import MidiFile.Event.Stream
import MidiFile.Track

/-! # Reading the body of a track

The events of a body are read up to the first end of track. A lenient reader leaves out what
comes behind that and adds an end where there is none; `Body` keeps note of both, so that the
song that the track goes into can pass it on.
-/

namespace MidiFile

/-- The events of a body and what was done to make them a track. -/
structure Body (S : Type) where
  events : List (Event S)
  /-- The count of all bytes of the body. -/
  size : Nat
  /-- Whether the end of the track was added. -/
  endAdded : Bool
  /-- The count of bytes left out behind the end of the track. -/
  ignored : Nat
deriving DecidableEq, Repr

namespace Body

variable {S : Type}

/-- What the events of a body are: those up to the end of the track, whether there is such an
    end, and the bytes behind the last event. -/
structure Scan (S : Type) where
  events : List (Event S)
  ended : Bool
  unread : List UInt8
deriving DecidableEq, Repr

/-- Read on behind the events already read, which come in reverse order. -/
def scanFrom (mode : Mode) (before : List (Event S)) (stream : EventStream) : Except Fault (Scan S) :=
  match found : stream.next? (S := S) mode with
  | none => .ok ⟨before.reverse, false, stream.unread⟩
  | some (.error fault, _) => .error fault
  | some (.ok event, after) =>
    have : after.unread.length < stream.unread.length := EventStream.length_next? found
    if event.message.isEnd then .ok ⟨(event :: before).reverse, true, after.unread⟩
    else scanFrom mode (event :: before) after
termination_by stream.unread.length

def scan (mode : Mode) (bytes : List UInt8) : Except Fault (Scan S) :=
  scanFrom mode [] (EventStream.ofBytes bytes)

/-- The end of a track behind events that have none. -/
def addedEnd (events : List (Event S)) : Event S :=
  ⟨Message.endOfTrack, 0, events.getLast?.elim 0 (·.tick), none, some events.length, none⟩

def read (mode : Mode) (bytes : List UInt8) : Except Fault (Body S) := do
  let found ← scan mode bytes
  if found.ended then
    Fault.ensure (mode == .lenient || found.unread.isEmpty) (.malformed .eventsAfterEnd)
    return ⟨found.events, bytes.length, false, found.unread.length⟩
  else
    Fault.ensure (mode == .lenient) (.malformed .endMissing)
    return ⟨found.events ++ [addedEnd found.events], bytes.length, true, 0⟩

/-- The track that a body makes, still outside of any song. -/
def track (body : Body S) : Track S := ⟨none, body.events, body.size, Cursor.nowhere⟩

end Body

end MidiFile
