import MidiFile.Event.Stream
import MidiFile.Proofs.Message.Grammar

/-! # The grammar of events

An event is a form of its delta time and its message, which may go without its status where that is
the running one (`Item.Written`). These bytes and no others are read as an event
(`Wire.read_written`, `Wire.exists_written`), and bytes settle which event is in front of them
(`Item.Written.unique`).
-/

namespace MidiFile

variable {S : Type}

/-- The bytes of an event, its delta time and its message. -/
structure Item where
  bytes : List UInt8
  delta : Nat
  message : Message
deriving DecidableEq, Repr

namespace Item

/-- The bytes of an item are a form of its delta time and its message, which may go without its
    status where that is the running one. -/
inductive Written (running? : Option UInt8) : Item → Prop
  | stated {time body : List UInt8} {message : Message} (isForm : Vlq.IsForm time)
      (spelled : Message.Spelled body message) :
      Written running? ⟨time ++ message.status :: body, Vlq.value time, message⟩
  | running {time data : List UInt8} {status : UInt8} (isForm : Vlq.IsForm time)
      (spelled : Message.Spelled data (.voice status data)) (runs : running? = some status) :
      Written running? ⟨time ++ data, Vlq.value time, .voice status data⟩

/-- The item as an event, which is at a tick and has a number. -/
def event (tick number : Nat) (item : Item) : Event S := ⟨item.message, item.delta, tick, none, some number, none⟩

theorem Written.exists_spelled {running? : Option UInt8} {item : Item} (written : item.Written running?) :
    ∃ time body, Vlq.IsForm time ∧ Message.Spelled body item.message ∧ Vlq.value time = item.delta ∧
      time.length + body.length ≤ item.bytes.length := by
  cases written with
  | @stated time body message isForm spelled =>
    exact ⟨time, body, isForm, spelled, rfl, by simp⟩
  | @running time data status isForm spelled runs =>
    exact ⟨time, data, isForm, spelled, rfl, by simp⟩

end Item

namespace Wire

theorem readHead_ok_iff {running? : Option UInt8} {bytes rest : List UInt8} {delta : Nat} {status : UInt8} :
    readHead running? bytes = .ok (delta, status) rest ↔
      ∃ time, Vlq.IsForm time ∧ delta = Vlq.value time ∧
        (Status.isData status = false ∧ bytes = time ++ status :: rest ∨
          running? = some status ∧ rest.head?.any Status.isData = true ∧ bytes = time ++ rest) := by
  simp only [readHead, step_bind_ok_iff, Decode.within_ok_iff, Vlq.read_ok_iff]
  constructor
  · rintro ⟨number, left, ⟨time, isForm, rfl, same⟩, lead?, _, peeked, done⟩
    cases peeked
    refine ⟨time, isForm, ?_⟩
    rw [← same]
    cases left with
    | nil => cases done
    | cons lead left =>
      simp only [List.head?_cons] at done
      cases isData : Status.isData lead with
      | true =>
        rw [isData, if_pos rfl] at done
        cases running? with
        | none => cases done
        | some running =>
          cases done
          exact ⟨rfl, .inr ⟨rfl, isData, rfl⟩⟩
      | false =>
        simp only [isData, Bool.false_eq_true, if_false, step_bind_ok_iff, Decode.byte_ok_iff] at done
        obtain ⟨_, _, whole, made⟩ := done
        cases made
        cases whole
        exact ⟨rfl, .inl ⟨isData, rfl⟩⟩
  · rintro ⟨time, isForm, rfl, ⟨isData, rfl⟩ | ⟨rfl, isData, rfl⟩⟩
    · refine ⟨⟨Vlq.value time, Vlq.value_lt isForm⟩, _, ⟨time, isForm, rfl, rfl⟩, some status, status :: rest, rfl, ?_⟩
      simp only [isData, Bool.false_eq_true, if_false]
      rfl
    · cases rest with
      | nil => cases isData
      | cons first rest =>
        have lead : Status.isData first = true := isData
        refine ⟨⟨Vlq.value time, Vlq.value_lt isForm⟩, _, ⟨time, isForm, rfl, rfl⟩, some first, first :: rest, rfl, ?_⟩
        simp only [lead, if_true]
        rfl

theorem read_ok_iff {mode : Mode} {wire after : Wire} {delta : Nat} {message : Message} :
    read mode wire = .ok (delta, message) after ↔
      ∃ status left, readHead wire.running? wire.unread = .ok (delta, status) left ∧
        Message.readBody status left = .ok message after.unread ∧
        after.running? = mode.runningAfter status wire.running? := by
  rw [read]
  rcases head : readHead wire.running? wire.unread with ⟨⟨time, status⟩, left⟩ | ⟨fault, left⟩
  · rcases body : Message.readBody status left with ⟨made, rest⟩ | ⟨fault, rest⟩
    · constructor
      · intro done
        simp only [body] at done
        cases done
        exact ⟨status, left, rfl, body, rfl⟩
      · rintro ⟨_, _, same, bodySame, running⟩
        cases same
        rw [body] at bodySame
        cases bodySame
        simp only [body, ← running]
    · constructor
      · intro done
        simp only [body] at done
        cases done
      · rintro ⟨_, _, same, bodySame, _⟩
        cases same
        rw [body] at bodySame
        cases bodySame
  · simp

theorem read_written (mode : Mode) {running? : Option UInt8} {item : Item} (written : item.Written running?)
    (rest : List UInt8) :
    read mode ⟨item.bytes ++ rest, running?⟩ =
      .ok (item.delta, item.message) ⟨rest, item.message.leaves mode running?⟩ := by
  rw [read_ok_iff]
  cases written with
  | @stated time body message isForm spelled =>
    refine ⟨message.status, body ++ rest, ?_, Message.readBody_spelled spelled rest,
      (Message.runningAfter_status spelled mode running?).symm⟩
    exact readHead_ok_iff.mpr ⟨time, isForm, rfl, .inl ⟨Message.isData_status_of_spelled spelled, by simp⟩⟩
  | @running time data status isForm spelled runs =>
    refine ⟨status, data ++ rest, ?_, Message.readBody_spelled spelled rest,
      (Message.runningAfter_status spelled mode running?).symm⟩
    refine readHead_ok_iff.mpr ⟨time, isForm, rfl, .inr ⟨runs, ?_, by simp⟩⟩
    cases spelled with
    | voice isVoice length low =>
      cases data with
      | nil => exact absurd length (Nat.ne_of_lt (Status.dataLength_pos status))
      | cons first others => simpa [Status.isData] using low first List.mem_cons_self

theorem exists_written {mode : Mode} {wire after : Wire} {delta : Nat} {message : Message}
    (voiced : Message.Voiced wire.running?) (done : read mode wire = .ok (delta, message) after) :
    ∃ item, Item.Written wire.running? item ∧ wire.unread = item.bytes ++ after.unread ∧
      item.delta = delta ∧ item.message = message ∧ after.running? = message.leaves mode wire.running? ∧
      Message.Voiced after.running? := by
  obtain ⟨status, left, head, bodyRead, running⟩ := read_ok_iff.mp done
  obtain ⟨body, spelled, rfl, rfl⟩ := Message.readBody_ok_iff.mp bodyRead
  rw [Message.runningAfter_status spelled] at running
  have voicedAfter : Message.Voiced after.running? := running ▸ Message.voiced_leaves spelled mode voiced
  obtain ⟨time, isForm, rfl, ⟨_, whole⟩ | ⟨runs, _, whole⟩⟩ := readHead_ok_iff.mp head
  · exact ⟨_, .stated isForm spelled, by rw [whole]; simp, rfl, rfl, running, voicedAfter⟩
  · have isVoice := Message.eq_voice spelled (voiced _ runs)
    rw [isVoice] at spelled
    exact ⟨_, .running isForm spelled runs, by rw [whole]; simp, rfl, isVoice.symm, running, voicedAfter⟩

end Wire

namespace Item

theorem Written.bytes_ne_nil {running? : Option UInt8} {item : Item} (written : item.Written running?) :
    item.bytes ≠ [] := by
  have shorter := Wire.length_read (Wire.read_written .strict written [])
  intro none
  simp [none] at shorter

/-- Which item is in front is settled by the bytes alone. -/
theorem Written.unique {running? : Option UInt8} {item other : Item} {left left' : List UInt8}
    (written : item.Written running?) (writtenOther : other.Written running?)
    (same : item.bytes ++ left = other.bytes ++ left') : item = other ∧ left = left' := by
  have read := Wire.read_written .strict written left
  rw [same, Wire.read_written .strict writtenOther left'] at read
  simp only [EStateM.Result.ok.injEq, Prod.mk.injEq, Wire.mk.injEq] at read
  obtain ⟨⟨delta, message⟩, rfl, _⟩ := read
  have bytes := List.append_cancel_right same
  obtain ⟨_, _, _⟩ := item
  obtain ⟨_, _, _⟩ := other
  cases bytes
  cases delta
  cases message
  exact ⟨rfl, rfl⟩

end Item

end MidiFile
