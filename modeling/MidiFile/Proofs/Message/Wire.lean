import MidiFile.Proofs.Message.Grammar

/-! # Messages, stored and read

A message is well formed when it says how long it is: a voice message has the data bytes of its
status, and the field of a meta message is a length and as many bytes (`Message.WellFormed`). Every
message that can be made or read is well formed, and is made of its own bytes (`ofBytes_bytes`). A
well-formed message that was stored is read back as its canonical form, which writes the length of a
meta message in the shortest form and has the same content (`Message.SameContent`). What was read is
in canonical form already, and can be stored with no other bytes than it took, but for its status.
-/

namespace MidiFile

namespace Message

/-- The message is as long as it says. -/
def WellFormed : Message → Prop
  | voice status data =>
    Status.isVoice status = true ∧ data.length = Status.dataLength status ∧ data.all Status.isData = true
  | metadata _ field => ∃ payload, Vlq.readBlock field = .ok payload []
  | sysex _ | escape _ => True

theorem wellFormed_ofPayload {kind : UInt8} {payload : List UInt8} {message : Message}
    (made : ofPayload kind payload = .ok message) : message.WellFormed := by
  simp only [ofPayload, bind, bind_ok_iff, ensure_ok_iff] at made
  obtain ⟨_, _, field, block, done⟩ := made
  cases done
  exact ⟨payload, by simpa using Vlq.readBlock_block block []⟩

theorem wellFormed_ofField {kind : UInt8} {field : List UInt8} {message : Message}
    (made : ofField kind field = .ok message) : message.WellFormed := by
  simp only [ofField, bind, bind_ok_iff, guard_ok_iff, ensure_ok_iff, beq_iff_eq] at made
  obtain ⟨⟨length, used⟩, decoded, _, fits, done⟩ := made
  cases done
  rw [Vlq.decode] at decoded
  split at decoded
  · rename_i number payload head
    cases decoded
    have shorter := Vlq.takes_read.length_le head
    dsimp only at fits
    exact ⟨payload, Vlq.readBlock_ok_iff.mpr ⟨length, by omega, by simpa using head⟩⟩
  · cases decoded

theorem wellFormed_ofVoice {status : UInt8} {data : List UInt8} {message : Message}
    (voice : Status.isVoice status = true) (made : ofVoice status data = .ok message) : message.WellFormed := by
  simp only [ofVoice, bind, bind_ok_iff, ensure_ok_iff, beq_iff_eq] at made
  obtain ⟨_, length, _, allData, done⟩ := made
  cases done
  exact ⟨voice, length, allData⟩

theorem wellFormed_ofMetadata {bytes : List UInt8} {message : Message} (made : ofMetadata bytes = .ok message) :
    message.WellFormed := by
  unfold ofMetadata at made
  split at made
  · exact wellFormed_ofField made
  · cases made

theorem wellFormed_ofBytes {bytes : List UInt8} {message : Message} (made : ofBytes bytes = .ok message) :
    message.WellFormed := by
  rcases bytes with _ | ⟨status, rest⟩
  · cases made
  · by_cases isData : Status.isData status = true
    · simp [ofBytes, isData] at made
    · by_cases voice : Status.isVoice status = true
      · simp only [ofBytes, isData, voice, if_true] at made
        exact wellFormed_ofVoice voice made
      · simp only [ofBytes, isData, voice, Bool.false_eq_true, if_false] at made
        by_cases isMeta : status = Status.metadata
        · rw [if_pos isMeta] at made
          exact wellFormed_ofMetadata made
        · rw [if_neg isMeta] at made
          by_cases isSysex : status = Status.sysex
          · rw [if_pos isSysex] at made
            cases made
            trivial
          · by_cases isEscape : status = Status.escape
            · rw [if_neg isSysex, if_pos isEscape] at made
              cases made
              trivial
            · rw [if_neg isSysex, if_neg isEscape] at made
              cases made

theorem ofMetadata_field {kind : UInt8} {field : List UInt8} (wellFormed : (metadata kind field).WellFormed) :
    ofMetadata (kind :: field) = .ok (metadata kind field) := by
  obtain ⟨payload, block⟩ := wellFormed
  obtain ⟨length, size, head⟩ := Vlq.readBlock_ok_iff.mp block
  rw [List.append_nil] at head
  have shorter := Vlq.shortens_read _ _ _ head
  have decoded : Vlq.decode field = .ok (length, field.length - payload.length) := by rw [Vlq.decode, head]
  cases field with
  | nil => cases shorter
  | cons first rest =>
    have whole : (first :: rest).length = (first :: rest).length - payload.length + length.toNat := by omega
    simp only [ofMetadata, ofField, bind, bind_ok_iff, guard_ok_iff, ensure_ok_iff, beq_iff_eq]
    exact ⟨_, decoded, (), whole, rfl⟩

/-- A well-formed message is what its bytes make. -/
theorem ofBytes_bytes {message : Message} (wellFormed : message.WellFormed) : ofBytes message.bytes = .ok message := by
  cases message with
  | voice status data =>
    obtain ⟨voice, length, allData⟩ := wellFormed
    have notData : Status.isData status = false := by
      simp only [Status.isVoice, Bool.and_eq_true, decide_eq_true_eq] at voice
      exact decide_eq_false (Nat.not_lt.mpr voice.1)
    rw [bytes, ofBytes, notData, if_neg Bool.false_ne_true, if_pos voice]
    simp only [ofVoice, bind, bind_ok_iff, ensure_ok_iff, beq_iff_eq]
    exact ⟨(), length, (), allData, rfl⟩
  | metadata kind field => exact ofMetadata_field wellFormed
  | sysex payload => rfl
  | escape payload => rfl

theorem eq_of_bytes {message other : Message} (wellFormed : message.WellFormed) (wellFormedToo : other.WellFormed)
    (same : other.bytes = message.bytes) : other = message := by
  have made := ofBytes_bytes wellFormedToo
  rw [same, ofBytes_bytes wellFormed] at made
  cases made
  rfl

/-- Whatever a draft says, the message that it makes is well formed. -/
theorem wellFormed_draft {draft : Draft} {message : Message} (made : draft.message = .ok message) : message.WellFormed := by
  cases draft with
  | bytes given => exact wellFormed_ofBytes made
  | metadata kind payload => exact wellFormed_ofPayload made
  | text kind words =>
    simp only [Draft.message, ofText, bind, bind_ok_iff] at made
    obtain ⟨_, _, made⟩ := made
    exact wellFormed_ofPayload made
  | tempo microseconds =>
    simp only [Draft.message, ofTempo, bind, bind_ok_iff] at made
    obtain ⟨_, _, made⟩ := made
    exact wellFormed_ofPayload made
  | timeSignature signature =>
    simp only [Draft.message, ofTimeSignature] at made
    split at made
    · cases made
    · exact wellFormed_ofPayload made
  | endOfTrack =>
    cases made
    exact ⟨[], rfl⟩

/-- The message with the length of a meta message in its shortest form. -/
def canonical : Message → Message
  | metadata kind field => metadata kind (Vlq.shortest field)
  | message => message

/-- Two messages say the same: meta messages of one kind have one payload, all others are the same
    bytes. -/
structure SameContent (message other : Message) : Prop where
  status : other.status = message.status
  content : if message.isMetadata then other.metaKind? = message.metaKind? ∧ other.payload? = message.payload?
    else other.bytes = message.bytes

@[simp] theorem isEnd_canonical (message : Message) : message.canonical.isEnd = message.isEnd := by
  cases message <;> rfl

theorem sameContent_canonical {message : Message} (wellFormed : message.WellFormed) :
    message.SameContent message.canonical := by
  cases message with
  | metadata kind field =>
    obtain ⟨payload, block⟩ := wellFormed
    obtain ⟨length, same, head⟩ := Vlq.readBlock_ok_iff.mp block
    rw [List.append_nil] at head
    exact ⟨rfl, rfl, by simp [payload?, canonical, Vlq.shortest, head, Vlq.read_encode]⟩
  | voice status data => exact ⟨rfl, rfl⟩
  | sysex payload => exact ⟨rfl, rfl⟩
  | escape payload => exact ⟨rfl, rfl⟩

@[simp] theorem status_canonical (message : Message) : message.canonical.status = message.status := by
  cases message <;> rfl

/-- A stored message is its status and bytes that spell its canonical form, or a voice message without
    its status where that is the running one. -/
theorem spelled_of_encode {message : Message} (wellFormed : message.WellFormed) {running? : Option UInt8}
    {bytes : List UInt8} (stored : message.encode running? = .ok bytes) :
    (∃ body, Spelled body message.canonical ∧ bytes = message.status :: body) ∨
      ∃ status, message = .voice status bytes ∧ Spelled bytes message ∧ running? = some status := by
  cases message with
  | voice status data =>
    obtain ⟨isVoice, length, allData⟩ := wellFormed
    have spelled : Spelled data (.voice status data) := .voice isVoice length (by simpa [Status.isData] using allData)
    cases stored
    by_cases runs : running? = some status
    · rw [if_pos runs]
      exact .inr ⟨status, rfl, spelled, runs⟩
    · rw [if_neg runs]
      exact .inl ⟨data, spelled, rfl⟩
  | metadata kind field =>
    obtain ⟨payload, block⟩ := wellFormed
    obtain ⟨form, isForm, same, whole⟩ := Vlq.readBlock_form_iff.mp block
    rw [List.append_nil] at whole
    cases stored
    rw [canonical, whole, Vlq.shortest_form isForm]
    exact .inl ⟨_, .metadata isForm same, rfl⟩
  | sysex payload =>
    obtain ⟨written, block, done⟩ := bind_ok_iff.mp stored
    cases done
    obtain ⟨length, same, rfl⟩ := Vlq.block_ok_iff.mp block
    exact .inl ⟨_, .sysex (Vlq.isForm_encode length) ((Vlq.value_encode length).trans same), rfl⟩
  | escape payload =>
    obtain ⟨written, block, done⟩ := bind_ok_iff.mp stored
    cases done
    obtain ⟨length, same, rfl⟩ := Vlq.block_ok_iff.mp block
    exact .inl ⟨_, .escape (Vlq.isForm_encode length) ((Vlq.value_encode length).trans same), rfl⟩

theorem Spelled.wellFormed {body : List UInt8} {message : Message} (spelled : Spelled body message) :
    message.WellFormed := by
  cases spelled with
  | voice isVoice length low => exact ⟨isVoice, length, by simpa [Status.isData] using low⟩
  | @metadata kind length payload isForm same =>
    obtain ⟨isTrimmed, spells, _⟩ := Vlq.trimmed_shortest isForm isForm rfl
    exact ⟨payload, Vlq.readBlock_form_iff.mpr ⟨_, isTrimmed, spells.trans same, (List.append_nil _).symm⟩⟩
  | sysex isForm same => trivial
  | escape isForm same => trivial

/-- What was read is in canonical form. -/
theorem Spelled.canonical_eq {body : List UInt8} {message : Message} (spelled : Spelled body message) :
    message.canonical = message := by
  cases spelled with
  | voice isVoice length low => rfl
  | @metadata kind length payload isForm same =>
    have written : Vlq.encode ⟨_, Vlq.value_lt isForm⟩ = Vlq.trimmed length := Vlq.encode_eq_trimmed isForm rfl
    rw [canonical, ← written, Vlq.shortest_form (Vlq.isForm_encode _), Vlq.trimmed_encode]
  | sysex isForm same => rfl
  | escape isForm same => rfl

/-- What was read can be stored, with no other bytes than its status and those that spelled it. -/
theorem Spelled.storable {body : List UInt8} {message : Message} (spelled : Spelled body message)
    (running? : Option UInt8) :
    ∃ stored, message.encode running? = .ok stored ∧ stored.Sublist (message.status :: body) := by
  have shortened (length payload : List UInt8) : (Vlq.trimmed length ++ payload).Sublist (length ++ payload) :=
    (Vlq.trimmed_sublist length).append (.refl payload)
  cases spelled with
  | voice isVoice length low =>
    refine ⟨_, rfl, ?_⟩
    split
    · exact List.sublist_cons_self _ _
    · exact .refl _
  | metadata isForm same => exact ⟨_, rfl, ((shortened _ _).cons_cons _).cons_cons _⟩
  | sysex isForm same =>
    exact ⟨_, bind_ok_iff.mpr ⟨_, Vlq.block_of_form isForm same, rfl⟩, (shortened _ _).cons_cons _⟩
  | escape isForm same =>
    exact ⟨_, bind_ok_iff.mpr ⟨_, Vlq.block_of_form isForm same, rfl⟩, (shortened _ _).cons_cons _⟩

end Message

end MidiFile
