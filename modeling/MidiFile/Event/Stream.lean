import MidiFile.Event

/-! # The events of a track body, one after the other

`Wire` is where the reading stands: the bytes that are left and the running status. It moves on
even when an event turns out to be malformed, up to the fault. `EventStream` adds the tick and
the number of the next event and stops for good after the first fault. Every event takes at
least one byte, so a stream comes to an end.
-/

namespace MidiFile

/-- The bytes of a track body that are left and the running status. -/
structure Wire where
  unread : List UInt8
  running? : Option UInt8
deriving DecidableEq, Repr

namespace Wire

/-- Read a delta time and the status that the event has of its own or takes over. -/
def readHead (running? : Option UInt8) : Decode (Nat × UInt8) := do
  let delta ← Decode.within .deltaTime Vlq.read
  match ← Decode.peek with
  | none => Decode.fail (.truncated .event)
  | some lead =>
    if Status.isData lead then
      match running? with
      | none => Decode.fail (.malformed .statusMissing)
      | some status => return (delta.toNat, status)
    else return (delta.toNat, ← Decode.byte)

/-- Read a delta time and a message. The running status changes as soon as the status of the
    event is known, whether or not the rest of it can be read. -/
def read (mode : Mode) : EStateM Fault Wire (Nat × Message) := fun wire =>
  match readHead wire.running? wire.unread with
  | .error fault rest => .error fault { wire with unread := rest }
  | .ok (delta, status) rest =>
    let running? := mode.runningAfter status wire.running?
    match Message.readBody status rest with
    | .error fault rest => .error fault ⟨rest, running?⟩
    | .ok message rest => .ok (delta, message) ⟨rest, running?⟩

theorem takes_readRest (delta : Nat) (running? : Option UInt8) :
    (do match ← Decode.peek with
        | none => Decode.fail (.truncated .event)
        | some lead =>
          if Status.isData lead then
            match running? with
            | none => Decode.fail (.malformed .statusMissing)
            | some status => return (delta, status)
          else return (delta, ← Decode.byte) : Decode (Nat × UInt8)).Takes := by
  refine Decode.takes_bind Decode.takes_peek fun lead => ?_
  repeat' split
  · exact Decode.takes_fail _
  · exact Decode.takes_fail _
  · exact Decode.takes_pure _
  · exact Decode.takes_bind Decode.takes_byte fun _ => Decode.takes_pure _

theorem shortens_readHead (running? : Option UInt8) : (readHead running?).Shortens :=
  Decode.shortens_bind (Decode.shortens_within Vlq.shortens_read) fun delta => takes_readRest delta.toNat running?

/-- An event that was read took at least one byte. -/
theorem length_read {mode : Mode} {wire after : Wire} {event : Nat × Message}
    (done : read mode wire = .ok event after) : after.unread.length < wire.unread.length := by
  unfold read at done
  cases head : readHead wire.running? wire.unread with
  | error fault rest => simp [head] at done
  | ok found rest =>
    obtain ⟨delta, status⟩ := found
    cases body : Message.readBody status rest with
    | error fault left => simp [head, body] at done
    | ok message left =>
      simp only [head, body, EStateM.Result.ok.injEq] at done
      obtain ⟨_, rfl⟩ := done
      exact Nat.lt_of_le_of_lt ((Message.takes_readBody status).length_le body) (shortens_readHead _ _ _ _ head)

end Wire

/-- The events of a track body that are still to come. -/
structure EventStream where
  wire : Wire
  tick : Nat
  number : Nat
  failed : Bool
deriving DecidableEq, Repr

namespace EventStream

variable {S : Type}

def ofBytes (bytes : List UInt8) : EventStream := ⟨⟨bytes, none⟩, 0, 0, false⟩

def unread (stream : EventStream) : List UInt8 := stream.wire.unread

def running? (stream : EventStream) : Option UInt8 := stream.wire.running?

/-- The next event or the fault in its place, and the stream behind it. -/
def next? (mode : Mode) (stream : EventStream) : Option (Except Fault (Event S) × EventStream) :=
  if stream.failed || stream.unread.isEmpty then none
  else
    match Wire.read mode stream.wire with
    | .error fault wire => some (.error (fault.within .event), { stream with wire, failed := true })
    | .ok (delta, message) wire =>
      let tick := stream.tick + delta
      if tick ≤ greatestTick then
        some (.ok ⟨message, delta, tick, none, some stream.number, none⟩, ⟨wire, tick, stream.number + 1, false⟩)
      else
        let fault := (Fault.malformed .tickOverflow).within .event
        some (.error fault, { stream with wire, failed := true })

/-- Behind an event there are fewer bytes left than in front of it. -/
theorem length_next? {mode : Mode} {stream after : EventStream} {event : Event S}
    (found : stream.next? mode = some (.ok event, after)) : after.unread.length < stream.unread.length := by
  unfold next? at found
  split at found
  · simp at found
  · split at found
    · simp at found
    · rename_i wire read
      dsimp only at found
      split at found
      · simp only [Option.some.injEq, Prod.mk.injEq, Except.ok.injEq] at found
        obtain ⟨_, rfl⟩ := found
        exact Wire.length_read read
      · simp at found

end EventStream

end MidiFile
