import MidiFile.Proofs.Track.Order

/-! # One event, written and read back

An event that was written is read back with its delta time, whatever bytes follow it and wherever the
running status of a reader agrees with that of the writer (`RunsOn`); the two agree again behind it.
The message is read in canonical form, so that its bytes are those that were written unless it is a meta
message whose length leads with bytes that add nothing (`Message.Padded`). Such a message can be
made out of all its bytes and in no other way.
-/

namespace MidiFile

variable {S : Type}

namespace Message

/-- A meta message whose length is not in its shortest form. -/
def Padded : Message → Prop
  | metadata _ field => field.head? = some 0x80
  | voice _ _ | sysex _ | escape _ => False

theorem wellFormed_canonical {message : Message} (wellFormed : message.WellFormed) : message.canonical.WellFormed := by
  cases message with
  | metadata kind field =>
    obtain ⟨payload, block⟩ := wellFormed
    obtain ⟨form, isForm, same, whole⟩ := Vlq.readBlock_form_iff.mp block
    rw [List.append_nil] at whole
    rw [canonical, whole, Vlq.shortest_form isForm]
    exact (Spelled.metadata isForm same).wellFormed
  | voice status data => exact wellFormed
  | sysex payload => exact wellFormed
  | escape payload => exact wellFormed

/-- Only a padded length is written anew. -/
theorem canonical_eq_self_iff {message : Message} (wellFormed : message.WellFormed) :
    message.canonical = message ↔ ¬message.Padded := by
  cases message with
  | metadata kind field =>
    obtain ⟨payload, block⟩ := wellFormed
    obtain ⟨form, isForm, _, whole⟩ := Vlq.readBlock_form_iff.mp block
    rw [List.append_nil] at whole
    have head : field.head? = form.head? := by
      rw [whole, List.head?_append_of_ne_nil _ (List.length_pos_iff.mp isForm.length_pos)]
    rw [Padded, head, canonical, whole, Vlq.shortest_form isForm, Message.metadata.injEq, List.append_left_inj,
      Vlq.trimmed_eq_self_iff]
    simp
  | voice status data => simp [Padded, canonical]
  | sysex payload => simp [Padded, canonical]
  | escape payload => simp [Padded, canonical]

/-- What is made out of bytes has these bytes. -/
theorem bytes_ofBytes {given : List UInt8} {message : Message} (made : ofBytes given = .ok message) :
    message.bytes = given := by
  rcases given with _ | ⟨status, rest⟩
  · cases made
  · rw [ofBytes] at made
    split_ifs at made with _ _ isMeta isSysex isEscape
    · simp only [ofVoice, bind, bind_ok_iff] at made
      obtain ⟨_, _, _, _, done⟩ := made
      cases done
      rfl
    · unfold ofMetadata at made
      split at made
      · simp only [ofField, bind, bind_ok_iff] at made
        obtain ⟨_, _, _, _, done⟩ := made
        cases done
        rw [bytes, isMeta]
      · cases made
    · cases made
      rw [bytes, isSysex]
    · cases made
      rw [bytes, isEscape]

theorem not_padded_ofPayload {kind : UInt8} {payload : List UInt8} {message : Message}
    (made : ofPayload kind payload = .ok message) : ¬message.Padded := by
  simp only [ofPayload, bind, bind_ok_iff] at made
  obtain ⟨_, _, field, block, done⟩ := made
  cases done
  obtain ⟨length, _, rfl⟩ := Vlq.block_ok_iff.mp block
  have filled : Vlq.encode length ≠ [] := List.length_pos_iff.mp (Vlq.isForm_encode length).length_pos
  rw [Padded, List.head?_append_of_ne_nil _ filled]
  exact Vlq.trimmed_eq_self_iff.mp (Vlq.trimmed_encode length)

/-- A padded length is one that was given among all the bytes of its message. -/
theorem Padded.exists_bytes {draft : Draft} {message : Message} (padded : message.Padded)
    (made : draft.message = .ok message) : ∃ kind rest, draft = .bytes (Status.metadata :: kind :: 0x80 :: rest) := by
  cases draft with
  | bytes given =>
    rw [← bytes_ofBytes made]
    cases message with
    | metadata kind field =>
      obtain ⟨rest, rfl⟩ := List.head?_eq_some_iff.mp padded
      exact ⟨kind, rest, rfl⟩
    | voice status data => cases padded
    | sysex payload => cases padded
    | escape payload => cases padded
  | metadata kind payload => exact absurd padded (not_padded_ofPayload made)
  | text kind words =>
    simp only [Draft.message, ofText, bind, bind_ok_iff] at made
    obtain ⟨_, _, made⟩ := made
    exact absurd padded (not_padded_ofPayload made)
  | tempo microseconds =>
    simp only [Draft.message, ofTempo, bind, bind_ok_iff] at made
    obtain ⟨_, _, made⟩ := made
    exact absurd padded (not_padded_ofPayload made)
  | timeSignature signature =>
    simp only [Draft.message, ofTimeSignature] at made
    split at made
    · cases made
    · exact absurd padded (not_padded_ofPayload made)
  | endOfTrack =>
    cases made
    simp [Padded, endOfTrack] at padded

end Message

namespace Event

/-- The event is written, and whatever bytes follow it is read back with the delta time and the bytes of
    its message that it had. Nothing behind it is read, and the reader takes for the running status
    what the writer does. -/
def ReadBack (mode : Mode) (event : Event S) (written? read? : Option UInt8) (rest : List UInt8) : Prop :=
  ∃ bytes running? found after?, event.encode written? = .ok bytes running? ∧
    Wire.read mode ⟨bytes ++ rest, read?⟩ = .ok (event.delta, found) ⟨rest, after?⟩ ∧
    found.bytes = event.message.bytes ∧ RunsOn running? after?

variable {event : Event S} {written? read? : Option UInt8}

theorem exists_read_encode (mode : Mode) (wellFormed : event.message.WellFormed) (storable : event.message.Storable)
    (delta : event.delta < 0x10000000) (runs : RunsOn written? read?) (rest : List UInt8) :
    ∃ bytes after?, event.encode written? = .ok bytes event.message.running? ∧
      Wire.read mode ⟨bytes ++ rest, read?⟩ = .ok (event.delta, event.message.canonical) ⟨rest, after?⟩ ∧
      RunsOn event.message.running? after? := by
  obtain ⟨bytes, running?, encoded⟩ := exists_encode_iff.mpr ⟨delta, storable⟩
  obtain ⟨_, _, _, _, _, rfl⟩ := encode_ok_iff.mp encoded
  have read := Wire.read_written mode (event.written_of_encode wellFormed runs encoded) rest
  exact ⟨bytes, _, encoded, read, runsOn_leaves mode event.message read?⟩

theorem readBack_iff {mode : Mode} {rest : List UInt8} (wellFormed : event.message.WellFormed)
    (storable : event.message.Storable) (delta : event.delta < 0x10000000) (runs : RunsOn written? read?) :
    event.ReadBack mode written? read? rest ↔ ¬event.message.Padded := by
  obtain ⟨bytes, after?, encoded, read, runsAfter⟩ := exists_read_encode mode wellFormed storable delta runs rest
  rw [← Message.canonical_eq_self_iff wellFormed]
  constructor
  · rintro ⟨_, _, found, _, again, readToo, same, _⟩
    rw [encoded] at again
    cases again
    rw [read] at readToo
    cases readToo
    exact Message.eq_of_bytes wellFormed (Message.wellFormed_canonical wellFormed) same
  · intro same
    exact ⟨bytes, _, _, after?, encoded, read, congrArg Message.bytes same, runsAfter⟩

/-- Whatever a draft makes, an event with that message and with any delta time that there is a form of can
    be written, unless a payload is too long for that. It is read back with its delta time and a message
    of the same content, by a reader of either kind whose running status is that of the writer where the
    writer has one, and no byte behind it is read. The bytes of the message are the same, too, unless it
    was made out of bytes with a padded length. -/
theorem draft_read_back (mode : Mode) {draft : Draft} {event : Event S} (made : draft.message = .ok event.message)
    (storable : event.message.Storable) (delta : event.delta < 0x10000000) {written? read? : Option UInt8}
    (runs : RunsOn written? read?) (rest : List UInt8) :
    (event.ReadBack mode written? read? rest ↔ ¬event.message.Padded) ∧
      (event.message.Padded → ∃ kind field, draft = .bytes (Status.metadata :: kind :: 0x80 :: field)) ∧
      ∃ bytes running? found after?, event.encode written? = .ok bytes running? ∧
        Wire.read mode ⟨bytes ++ rest, read?⟩ = .ok (event.delta, found) ⟨rest, after?⟩ ∧
        event.message.SameContent found ∧ RunsOn running? after? := by
  have wellFormed := Message.wellFormed_draft made
  refine ⟨readBack_iff wellFormed storable delta runs, fun padded => padded.exists_bytes made, ?_⟩
  obtain ⟨bytes, after?, encoded, read, runsAfter⟩ := exists_read_encode mode wellFormed storable delta runs rest
  exact ⟨bytes, _, _, after?, encoded, read, Message.sameContent_canonical wellFormed, runsAfter⟩

/-- A note at a time of its own. -/
private def note : Event Float := { ofMessage (.voice 0x90 [60, 64]) with delta := 96 }

/-- A note that does without its status, in front of bytes that are none of it. -/
theorem draft_read_back_running :
    (Draft.bytes [0x90, 60, 64]).message = .ok note.message ∧
      note.encode (some 0x90) = .ok [96, 60, 64] (some 0x90) ∧ note.ReadBack .lenient (some 0x90) (some 0x90) [0, 60] := by
  have made : (Draft.bytes [0x90, 60, 64]).message = .ok note.message := rfl
  have storable : note.message.Storable := trivial
  have delta : note.delta < 0x10000000 := by decide
  have unpadded : ¬note.message.Padded := id
  exact ⟨made, rfl, (draft_read_back .lenient made storable delta (fun _ same => same) [0, 60]).1.mpr unpadded⟩

/-- A text whose length is padded. -/
private def paddedText : Event Float := ofMessage (.metadata 0x01 [0x80, 0x01, 0x41])

/-- A text with a padded length can be made, is written as it is and read with the shortest length. -/
theorem padded_not_read_back :
    (Draft.bytes [0xFF, 0x01, 0x80, 0x01, 0x41]).message = .ok paddedText.message ∧
      paddedText.message.bytes = [0xFF, 0x01, 0x80, 0x01, 0x41] ∧
      paddedText.encode none = .ok [0, 0xFF, 0x01, 0x80, 0x01, 0x41] none ∧
      (∃ found, Wire.read .lenient ⟨[0, 0xFF, 0x01, 0x80, 0x01, 0x41], none⟩ = .ok (0, found) ⟨[], none⟩ ∧
        found.bytes = [0xFF, 0x01, 0x01, 0x41]) ∧
      ¬paddedText.ReadBack .lenient none none [] := by
  have wellFormed : paddedText.message.WellFormed := ⟨[0x41], rfl⟩
  have storable : paddedText.message.Storable := trivial
  have delta : paddedText.delta < 0x10000000 := by decide
  have padded : paddedText.message.Padded := rfl
  refine ⟨rfl, rfl, rfl, ⟨_, rfl, rfl⟩, ?_⟩
  rw [readBack_iff wellFormed storable delta (runsOn_none none)]
  exact fun unpadded => unpadded padded

end Event

end MidiFile
