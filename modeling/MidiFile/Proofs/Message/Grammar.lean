import MidiFile.Message.Wire
import MidiFile.Proofs.Vlq

/-! # The grammar of messages

What may follow a status and which message it spells (`Message.Spelled`): the data bytes of a voice
message, or a length in any of its forms and as many bytes. These bytes and no others are read
(`readBody_ok_iff`). A message leaves a running status behind, which depends on the reader only for
meta and system exclusive messages (`Message.leaves`).
-/

namespace MidiFile

namespace Status

theorem isData_eq_false_of_isVoice {status : UInt8} (voice : isVoice status = true) : isData status = false := by
  simp only [isVoice, isData, Bool.and_eq_true, decide_eq_true_eq, decide_eq_false_iff_not] at voice ⊢
  omega

theorem dataLength_pos (status : UInt8) : 0 < dataLength status := by
  rw [dataLength]
  split <;> decide

end Status

namespace Message

/-- Bytes behind the status of a message that spell the message. -/
inductive Spelled : List UInt8 → Message → Prop
  | voice {status : UInt8} {data : List UInt8} (isVoice : Status.isVoice status = true)
      (length : data.length = Status.dataLength status) (low : ∀ byte ∈ data, byte.toNat < 0x80) :
      Spelled data (.voice status data)
  | metadata {kind : UInt8} {length payload : List UInt8} (isForm : Vlq.IsForm length)
      (same : Vlq.value length = payload.length) :
      Spelled (kind :: (length ++ payload)) (.metadata kind (Vlq.trimmed length ++ payload))
  | sysex {length payload : List UInt8} (isForm : Vlq.IsForm length) (same : Vlq.value length = payload.length) :
      Spelled (length ++ payload) (.sysex payload)
  | escape {length payload : List UInt8} (isForm : Vlq.IsForm length) (same : Vlq.value length = payload.length) :
      Spelled (length ++ payload) (.escape payload)

theorem readVoice_ok_iff {status : UInt8} {bytes rest : List UInt8} {message : Message} :
    readVoice status bytes = .ok message rest ↔
      ∃ data, data.length = Status.dataLength status ∧ (∀ byte ∈ data, byte.toNat < 0x80) ∧
        bytes = data ++ rest ∧ message = .voice status data := by
  simp only [readVoice, step_bind_ok_iff, Decode.within_ok_iff, Decode.take_ok_iff, Decode.ensure_ok_iff,
    List.all_eq_true, Status.isData, decide_eq_true_eq]
  constructor
  · rintro ⟨data, _, ⟨length, rfl⟩, _, _, ⟨low, rfl⟩, made⟩
    cases made
    exact ⟨data, length, low, rfl, rfl⟩
  · rintro ⟨data, length, low, rfl, rfl⟩
    exact ⟨data, rest, ⟨length, rfl⟩, (), rest, ⟨low, rfl⟩, rfl⟩

theorem readMetadata_ok_iff {bytes rest : List UInt8} {message : Message} :
    readMetadata bytes = .ok message rest ↔
      ∃ kind length payload, Vlq.IsForm length ∧ Vlq.value length = payload.length ∧
        bytes = kind :: (length ++ payload ++ rest) ∧ message = .metadata kind (Vlq.trimmed length ++ payload) := by
  simp only [readMetadata, step_bind_ok_iff, Decode.within_ok_iff, Decode.byte_ok_iff, Decode.ofExcept_ok_iff,
    Vlq.readBlock_form_iff]
  constructor
  · rintro ⟨kind, _, rfl, payload, _, ⟨length, isForm, same, rfl⟩, field, _, ⟨written, rfl⟩, made⟩
    cases made
    rw [Vlq.block_of_form isForm same] at written
    cases written
    exact ⟨kind, length, payload, isForm, same, rfl, rfl⟩
  · rintro ⟨kind, length, payload, isForm, same, rfl, rfl⟩
    exact ⟨kind, _, rfl, payload, rest, ⟨length, isForm, same, rfl⟩, _, rest, ⟨Vlq.block_of_form isForm same, rfl⟩, rfl⟩

theorem readPayload_ok_iff {make : List UInt8 → Message} {bytes rest : List UInt8} {message : Message} :
    (do return make (← Decode.within .systemExclusive Vlq.readBlock) : Decode Message) bytes = .ok message rest ↔
      ∃ length payload, Vlq.IsForm length ∧ Vlq.value length = payload.length ∧ bytes = length ++ payload ++ rest ∧
        message = make payload := by
  simp only [step_bind_ok_iff, Decode.within_ok_iff, Vlq.readBlock_form_iff]
  constructor
  · rintro ⟨payload, _, ⟨length, isForm, same, rfl⟩, made⟩
    cases made
    exact ⟨length, payload, isForm, same, rfl, rfl⟩
  · rintro ⟨length, payload, isForm, same, rfl, rfl⟩
    exact ⟨payload, rest, ⟨length, isForm, same, rfl⟩, rfl⟩

theorem readBody_voice {status : UInt8} (voice : Status.isVoice status = true) : readBody status = readVoice status := by
  rw [readBody, if_pos voice]

theorem readBody_metadata : readBody Status.metadata = readMetadata := rfl

theorem readBody_sysex :
    readBody Status.sysex = do return sysex (← Decode.within .systemExclusive Vlq.readBlock) := rfl

theorem readBody_escape :
    readBody Status.escape = do return escape (← Decode.within .systemExclusive Vlq.readBlock) := rfl

theorem readBody_spelled {body : List UInt8} {message : Message} (spelled : Spelled body message) (rest : List UInt8) :
    readBody message.status (body ++ rest) = .ok message rest := by
  cases spelled with
  | voice isVoice length low =>
    rw [status, readBody_voice isVoice]
    exact readVoice_ok_iff.mpr ⟨_, length, low, rfl, rfl⟩
  | metadata isForm same =>
    rw [status, readBody_metadata]
    exact readMetadata_ok_iff.mpr ⟨_, _, _, isForm, same, rfl, rfl⟩
  | sysex isForm same =>
    rw [status, readBody_sysex]
    exact readPayload_ok_iff.mpr ⟨_, _, isForm, same, rfl, rfl⟩
  | escape isForm same =>
    rw [status, readBody_escape]
    exact readPayload_ok_iff.mpr ⟨_, _, isForm, same, rfl, rfl⟩

theorem exists_spelled {status : UInt8} {bytes rest : List UInt8} {message : Message}
    (done : readBody status bytes = .ok message rest) :
    ∃ body, Spelled body message ∧ message.status = status ∧ bytes = body ++ rest := by
  by_cases voice : Status.isVoice status = true
  · rw [readBody_voice voice] at done
    obtain ⟨data, length, low, rfl, rfl⟩ := readVoice_ok_iff.mp done
    exact ⟨data, .voice voice length low, rfl, rfl⟩
  · by_cases isMeta : status = Status.metadata
    · rw [isMeta, readBody_metadata] at done
      obtain ⟨kind, length, payload, isForm, same, rfl, rfl⟩ := readMetadata_ok_iff.mp done
      exact ⟨_, .metadata isForm same, isMeta.symm, rfl⟩
    · by_cases isSysex : status = Status.sysex
      · rw [isSysex, readBody_sysex] at done
        obtain ⟨length, payload, isForm, same, rfl, rfl⟩ := readPayload_ok_iff.mp done
        exact ⟨_, .sysex isForm same, isSysex.symm, rfl⟩
      · by_cases isEscape : status = Status.escape
        · rw [isEscape, readBody_escape] at done
          obtain ⟨length, payload, isForm, same, rfl, rfl⟩ := readPayload_ok_iff.mp done
          exact ⟨_, .escape isForm same, isEscape.symm, rfl⟩
        · rw [readBody, if_neg voice, if_neg isMeta, if_neg isSysex, if_neg isEscape] at done
          split at done
          · cases done
          · split at done <;> cases done

/-- What follows a status is read exactly where it spells a message of that status. -/
theorem readBody_ok_iff {status : UInt8} {bytes rest : List UInt8} {message : Message} :
    readBody status bytes = .ok message rest ↔
      ∃ body, Spelled body message ∧ message.status = status ∧ bytes = body ++ rest := by
  constructor
  · exact exists_spelled
  · rintro ⟨body, spelled, rfl, rfl⟩
    exact readBody_spelled spelled rest

theorem isData_status_of_spelled {body : List UInt8} {message : Message} (spelled : Spelled body message) :
    Status.isData message.status = false := by
  cases spelled with
  | voice isVoice length low => exact Status.isData_eq_false_of_isVoice isVoice
  | metadata isForm same => rfl
  | sysex isForm same => rfl
  | escape isForm same => rfl

/-- A message of a voice status is a voice message. -/
theorem eq_voice {body : List UInt8} {message : Message} (spelled : Spelled body message)
    (voice : Status.isVoice message.status = true) : message = .voice message.status body := by
  cases spelled with
  | voice isVoice length low => rfl
  | metadata isForm same => cases voice
  | sysex isForm same => cases voice
  | escape isForm same => cases voice

/-- The running status that a reader takes past a meta or system exclusive message. -/
def carried (mode : Mode) (running? : Option UInt8) : Option UInt8 :=
  match mode with
  | .strict => none
  | .lenient => running?

/-- The running status behind a message: its own if it goes to a channel. -/
def leaves (mode : Mode) (running? : Option UInt8) : Message → Option UInt8
  | .voice status _ => some status
  | .metadata _ _ | .sysex _ | .escape _ => carried mode running?

theorem runningAfter_status {body : List UInt8} {message : Message} (spelled : Spelled body message) (mode : Mode)
    (running? : Option UInt8) : mode.runningAfter message.status running? = message.leaves mode running? := by
  cases spelled with
  | voice isVoice length low => exact if_pos isVoice
  | metadata isForm same => rfl
  | sysex isForm same => rfl
  | escape isForm same => rfl

/-- The running status, where there is one, is that of a voice message. -/
def Voiced (running? : Option UInt8) : Prop := ∀ status, running? = some status → Status.isVoice status = true

theorem voiced_none : Voiced none := fun _ same => nomatch same

theorem voiced_leaves {body : List UInt8} {message : Message} (spelled : Spelled body message) (mode : Mode)
    {running? : Option UInt8} (voiced : Voiced running?) : Voiced (message.leaves mode running?) := by
  have past : Voiced (carried mode running?) := by
    cases mode with
    | strict => exact nofun
    | lenient => exact voiced
  cases spelled with
  | voice isVoice length low =>
    rintro status same
    cases same
    exact isVoice
  | metadata isForm same => exact past
  | sysex isForm same => exact past
  | escape isForm same => exact past

end Message

end MidiFile
