import MidiFile.Event

/-! # Tracks

A track is a list of events in the order of their ticks, and a cursor for playing it: the number
and the tick of the next event, and where in the stored form of the track that event begins.
-/

namespace MidiFile

/-- Where the playing of a track stands. -/
structure Cursor where
  /-- The number of the next event, none behind the last one. -/
  next? : Option Nat
  /-- The tick of the next event. -/
  tick : Nat
  /-- The byte of the stored track that the next event begins at. -/
  offset : Nat
  /-- The running status in front of the next event. -/
  running? : Option UInt8
deriving DecidableEq, Repr

/-- The cursor of a track that has no events. -/
def Cursor.nowhere : Cursor := ⟨none, 0, 0, none⟩

/-- A track. The body size is the count of bytes that its events took when the track was last
    read or stored. -/
structure Track (S : Type) where
  number? : Option Nat
  events : List (Event S)
  bodySize : Nat
  cursor : Cursor
deriving BEq, DecidableEq, Repr

namespace Track

variable {S : Type}

/-- A track without events that belongs to no song. -/
def empty : Track S := ⟨none, [], 0, Cursor.nowhere⟩

instance : Inhabited (Track S) := ⟨empty⟩

def last? (track : Track S) : Option (Event S) := track.events.getLast?

/-- Whether the last event is the end of the track. -/
def isEnded (track : Track S) : Bool := track.last?.any (·.message.isEnd)

/-- The tick of the last event, zero where there is none. -/
def endTick (track : Track S) : Nat := track.last?.elim 0 (·.tick)

/-- Give the track and its events their place in a song, or take it from them. -/
def attach (number? : Option Nat) (track : Track S) : Track S :=
  { track with number? := number?, events := track.events.map fun event => { event with track? := number? } }

def rewind (track : Track S) : Track S :=
  match track.events with
  | [] => { track with cursor := Cursor.nowhere }
  | first :: _ => { track with cursor := ⟨some 0, first.tick, 0, none⟩ }

def peek? (track : Track S) : Option (Event S) := track.cursor.next?.bind fun number => track.events[number]?

/-- The cursor behind the event of the given number. Behind the last event it keeps its tick. -/
def cursorBehind (number : Nat) (event : Event S) (track : Track S) : Cursor :=
  let (size, running?) := event.encodedSize track.cursor.running?
  let offset := track.cursor.offset + size
  match track.events[number + 1]? with
  | some following => ⟨some (number + 1), following.tick, offset, running?⟩
  | none => ⟨none, track.cursor.tick, offset, running?⟩

/-- The event that the cursor is at, and the track with the cursor behind it. -/
def advance? (track : Track S) : Option (Event S × Track S) :=
  match track.cursor.next? with
  | none => none
  | some number =>
    match track.events[number]? with
    | none => none
    | some event => some (event, { track with cursor := track.cursorBehind number event })

/-- The count of events that are still to be played. -/
def remaining (track : Track S) : Nat := track.cursor.next?.elim 0 (track.events.length - ·)

/-- Each event that is played is one less to be played. -/
theorem remaining_advance? {track after : Track S} {event : Event S} (found : track.advance? = some (event, after)) :
    after.remaining < track.remaining := by
  unfold advance? at found
  split at found
  · simp at found
  · rename_i number next
    split at found
    · simp at found
    · rename_i event present
      simp only [Option.some.injEq, Prod.mk.injEq] at found
      have inside := (List.getElem?_eq_some_iff.mp present).1
      rw [← found.2]
      simp only [remaining, next, Option.elim_some, cursorBehind]
      split
      · simp only [Option.elim_some]; omega
      · simp only [Option.elim_none]; omega

/-- The bytes of all events. The first has no running status in front of it. -/
def encode (track : Track S) : Except Fault (List UInt8) :=
  match (track.events.mapM Event.encode).run none with
  | .error fault _ => .error fault
  | .ok parts _ =>
    let body := parts.flatten
    if body.length < 0x100000000 then .ok body else .error (.misuse .chunkLength)

end Track

end MidiFile
