import MidiFile.Message.Wire

/-! # Events: messages at a time

An event says when its message happens: as ticks after the event before it, as ticks after the
start of the song and, once it is part of a song, in seconds. It also knows its own place, the
number of its track and its number in there. Both are missing while it stands alone.

An event is stored as its delta time and its message. Whether the message needs its status
depends on the one before, so writing carries the running status along.
-/

namespace MidiFile

/-- The last tick that there is room for. -/
def greatestTick : Nat := 0xFFFFFFFF

/-- A time in seconds and the number of the tempo entry that it was worked out from, if any. -/
structure Cached (S : Type) where
  seconds : S
  source? : Option Nat
deriving BEq, DecidableEq, Repr

/-- A message at its time and place. -/
structure Event (S : Type) where
  message : Message
  delta : Nat
  tick : Nat
  track? : Option Nat
  number? : Option Nat
  cached? : Option (Cached S)
deriving BEq, DecidableEq, Repr

namespace Event

variable {S : Type}

/-- A message that stands alone, at no time and no place. -/
def ofMessage (message : Message) : Event S := ⟨message, 0, 0, none, none, none⟩

/-- The event without its time and place. -/
def detach (event : Event S) : Event S := ofMessage event.message

def seconds? (event : Event S) : Option S := event.cached?.map Cached.seconds

def source? (event : Event S) : Option Nat := event.cached?.bind Cached.source?

@[simp] theorem message_ofMessage (message : Message) : (ofMessage message : Event S).message = message := rfl

/-- The bytes of an event; the running status is the one that the events before it left. -/
def encode (event : Event S) : EStateM Fault (Option UInt8) (List UInt8) := fun running? =>
  match Narrow.ofNat? 28 event.delta with
  | none => .error (.misuse .deltaRange) running?
  | some delta =>
    match event.message.encode running? with
    | .error fault => .error fault event.message.running?
    | .ok bytes => .ok (Vlq.encode delta ++ bytes) event.message.running?

/-- The count of bytes of an event and the running status behind it. An event that cannot be
    stored takes no bytes. -/
def encodedSize (event : Event S) (running? : Option UInt8) : Nat × Option UInt8 :=
  match event.encode running? with
  | .ok bytes after => (bytes.length, after)
  | .error _ after => (0, after)

end Event

end MidiFile
