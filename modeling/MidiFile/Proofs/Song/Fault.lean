import MidiFile.Proofs.Event.Stream
import MidiFile.Proofs.Song.Read

/-! # What can be wrong with a file

Reading goes through many steps, and each can fail for a few causes only (`Blames`, `Decode.Blames`).
These are taken together step by step: a sequence of steps fails for the causes of one of them. What can
be wrong with an event is that its bytes break a rule or end early; with a file it may also be that they
stand for something that has no place here (`Cause.OfEvent`, `Cause.OfFile`). Two faults that the steps
could report never come up. A payload that was read has a length that can be written
(`Vlq.exists_block_of_readBlock`), and every running status is a status. So whoever gives bytes to be
read is never told of a misuse, nor of a device (`Song.read_blames_bytes`).
-/

namespace MidiFile

variable {S α β : Type} {causes : Cause → Prop}

namespace Cause

/-- What can be wrong with the bytes of an event. -/
def OfEvent : Cause → Prop
  | malformed what => what ≠ .statusNotRunning
  | truncated _ => True
  | unsupported _ | misuse _ | device => False

/-- What can be wrong with the bytes of a file. -/
def OfFile : Cause → Prop
  | malformed what => what ≠ .statusNotRunning
  | truncated _ | unsupported _ => True
  | misuse _ | device => False

theorem OfEvent.ofFile {cause : Cause} (ofEvent : cause.OfEvent) : cause.OfFile := by
  cases cause with
  | malformed what => exact ofEvent
  | truncated what => trivial
  | unsupported what => trivial
  | misuse what => exact ofEvent
  | device => exact ofEvent

theorem OfEvent.kind_eq {cause : Cause} (ofEvent : cause.OfEvent) :
    (cause.kind = .format ∨ cause.kind = .truncatedFile) ∧ cause ≠ .malformed .statusNotRunning := by
  cases cause with
  | malformed what => exact ⟨.inl rfl, fun same => ofEvent (Cause.malformed.inj same)⟩
  | truncated what => exact ⟨.inr rfl, nofun⟩
  | unsupported what => cases ofEvent
  | misuse what => cases ofEvent
  | device => cases ofEvent

theorem OfFile.kind_eq {cause : Cause} (ofFile : cause.OfFile) :
    (cause.kind = .format ∨ cause.kind = .unsupportedFormat ∨ cause.kind = .truncatedFile) ∧
      cause ≠ .malformed .statusNotRunning := by
  cases cause with
  | malformed what => exact ⟨.inl rfl, fun same => ofFile (Cause.malformed.inj same)⟩
  | truncated what => exact ⟨.inr (.inr rfl), nofun⟩
  | unsupported what => exact ⟨.inr (.inl rfl), nofun⟩
  | misuse what => cases ofFile
  | device => cases ofFile

end Cause

/-- If the result is a fault, it has one of the causes. -/
def Blames (causes : Cause → Prop) (result : Except Fault α) : Prop :=
  ∀ fault, result = .error fault → causes fault.cause

theorem blames_ok (value : α) : Blames causes (.ok value) := nofun

theorem blames_error (fault : Fault) (cause : causes fault.cause) : Blames causes (.error fault : Except Fault α) := by
  rintro _ ⟨⟩
  exact cause

theorem blames_ensure (condition : Bool) (fault : Fault) (cause : causes fault.cause) :
    Blames causes (Fault.ensure condition fault) := by
  cases condition with
  | false => exact blames_error fault cause
  | true => exact blames_ok ()

namespace Blames

theorem mono {others : Cause → Prop} {result : Except Fault α} (blames : Blames causes result)
    (wider : ∀ {cause}, causes cause → others cause) : Blames others result :=
  fun fault failed => wider (blames fault failed)

theorem bind {result : Except Fault α} {next : α → Except Fault β} (first : Blames causes result)
    (later : ∀ value, result = .ok value → Blames causes (next value)) : Blames causes (result.bind next) := by
  cases result with
  | error fault => exact blames_error fault (first fault rfl)
  | ok value => exact later value rfl

theorem map {result : Except Fault α} (blames : Blames causes result) (change : α → β) :
    Blames causes (result.map change) := by
  cases result with
  | error fault => exact blames_error fault (blames fault rfl)
  | ok value => exact blames_ok (change value)

theorem guard {result : Except Fault α} (blames : Blames causes result) (context : Context) :
    Blames causes (Fault.guard context result) := by
  cases result with
  | error fault => exact blames_error (fault.within context) (blames fault rfl)
  | ok value => exact blames_ok value

/-- Whoever works on the tracks, only their faults are told. -/
theorem collect [Workers] {size : Nat} {results : List (Except Fault α)}
    (blames : ∀ result ∈ results, Blames causes result) : Blames causes (Workers.collect size results) :=
  fun fault failed => blames _ (Workers.mem_of_collect failed) fault rfl

end Blames

/-! ## Steps -/

namespace Decode

/-- If the step fails, it does so for one of the causes. -/
def Blames (causes : Cause → Prop) (step : Decode α) : Prop :=
  ∀ bytes fault rest, step bytes = .error fault rest → causes fault.cause

theorem blames_pure (value : α) : (pure value : Decode α).Blames causes := nofun

theorem blames_fail (fault : Fault) (cause : causes fault.cause) : (fail fault : Decode α).Blames causes := by
  rintro bytes _ _ ⟨⟩
  exact cause

theorem blames_ensure (condition : Bool) (fault : Fault) (cause : causes fault.cause) :
    (ensure condition fault).Blames causes := by
  cases condition with
  | false => exact blames_fail fault cause
  | true => exact blames_pure ()

theorem blames_ofExcept {result : Except Fault α} (blames : MidiFile.Blames causes result) :
    (ofExcept result).Blames causes := by
  cases result with
  | error fault => exact blames_fail fault (blames fault rfl)
  | ok value => exact blames_pure value

theorem blames_take (cause : causes (.truncated .bytes)) (count : Nat) : (take count).Blames causes := by
  intro bytes fault rest failed
  by_cases enough : (bytes.take count).length = count
  · simp [take, enough] at failed
  · rw [take, if_neg enough] at failed
    cases failed
    exact cause

theorem blames_byte (cause : causes (.truncated .bytes)) : byte.Blames causes := by
  rintro (_ | ⟨first, bytes⟩) fault rest failed
  · cases failed
    exact cause
  · cases failed

theorem blames_peek : peek.Blames causes := nofun

namespace Blames

variable {step : Decode α}

theorem within (blames : step.Blames causes) (context : Context) : (Decode.within context step).Blames causes := by
  intro bytes fault rest failed
  cases inner : step bytes with
  | ok value left => simp [Decode.within, inner] at failed
  | error cause left =>
    simp only [Decode.within, inner] at failed
    cases failed
    exact blames bytes cause rest inner

/-- The second step only has to go on with what the first can give. -/
theorem bind_of_ok {next : α → Decode β} (first : step.Blames causes)
    (later : ∀ bytes value rest, step bytes = .ok value rest → (next value).Blames causes) :
    (step >>= next).Blames causes := by
  intro bytes fault rest failed
  rw [bind_apply] at failed
  cases done : step bytes with
  | ok value left =>
    simp only [done] at failed
    exact later bytes value left done left fault rest failed
  | error early left =>
    simp only [done] at failed
    cases failed
    exact first bytes fault rest done

theorem bind {next : α → Decode β} (first : step.Blames causes) (later : ∀ value, (next value).Blames causes) :
    (step >>= next).Blames causes :=
  first.bind_of_ok fun _ value _ _ => later value

theorem run (blames : step.Blames causes) (bytes : List UInt8) : MidiFile.Blames causes (step.run bytes) := by
  rw [Decode.run]
  cases done : step bytes with
  | ok value rest => exact blames_ok value
  | error fault rest => exact blames_error fault (blames bytes fault rest done)

end Blames

theorem blames_word (cause : causes (.truncated .bytes)) (width : Nat) : (word width).Blames causes :=
  ((blames_take cause _).within _).bind fun _ => blames_pure _

end Decode

namespace Vlq

theorem blames_readGroups (left before : Nat) : (readGroups left before).Blames Cause.OfEvent := by
  induction left generalizing before with
  | zero => exact Decode.blames_fail (.malformed .numberTooLong) nofun
  | succ left ih =>
    rintro (_ | ⟨group, bytes⟩) fault rest failed
    · cases failed
      exact nofun
    · by_cases last : group.toNat < 0x80
      · simp [readGroups, last] at failed
      · simp only [readGroups, last, if_false] at failed
        exact ih _ bytes fault rest failed

theorem blames_read : read.Blames Cause.OfEvent := (blames_readGroups 4 0).bind fun _ => Decode.blames_pure _

theorem blames_readBlock : readBlock.Blames Cause.OfEvent :=
  (blames_read.within _).bind fun length => (Decode.blames_take trivial length.toNat).within _

/-- A block that was read can be written, as its length was read. -/
theorem exists_block_of_readBlock {bytes payload rest : List UInt8} (done : readBlock bytes = .ok payload rest) :
    ∃ field, block payload = .ok field := by
  obtain ⟨form, isForm, same, _⟩ := readBlock_form_iff.mp done
  exact ⟨_, block_of_form isForm same⟩

end Vlq

namespace Message

theorem blames_readVoice (status : UInt8) : (readVoice status).Blames Cause.OfEvent :=
  ((Decode.blames_take trivial _).within _).bind fun _ =>
    (Decode.blames_ensure _ (.malformed .dataByteNotSevenBit) nofun).bind fun _ => Decode.blames_pure _

theorem blames_readMetadata : readMetadata.Blames Cause.OfEvent := by
  refine ((Decode.blames_byte trivial).within _).bind fun kind => ?_
  refine (Vlq.blames_readBlock.within _).bind_of_ok fun bytes payload rest done => ?_
  obtain ⟨field, block⟩ := Vlq.exists_block_of_readBlock (Decode.within_ok_iff.mp done)
  rw [block]
  exact Decode.blames_pure _

/-- What follows a status fails only for what is wrong with it, if that is a status. -/
theorem blames_readBody {status : UInt8} (notData : Status.isData status = false) :
    (readBody status).Blames Cause.OfEvent := by
  have payload (make : List UInt8 → Message) :
      (do return make (← Decode.within .systemExclusive Vlq.readBlock) : Decode Message).Blames Cause.OfEvent :=
    (Vlq.blames_readBlock.within _).bind fun _ => Decode.blames_pure _
  unfold readBody
  split_ifs with _ _ _ _ isData
  · exact blames_readVoice status
  · exact blames_readMetadata
  · exact payload sysex
  · exact payload escape
  · rw [notData] at isData
    cases isData
  · exact Decode.blames_fail (.malformed .systemCommon) nofun
  · exact Decode.blames_fail (.malformed .systemRealtime) nofun

end Message

namespace Wire

theorem blames_readHead (running? : Option UInt8) : (readHead running?).Blames Cause.OfEvent := by
  refine (Vlq.blames_read.within _).bind fun delta => Decode.blames_peek.bind fun lead => ?_
  split
  · exact Decode.blames_fail (.truncated .event) trivial
  · split
    · split
      · exact Decode.blames_fail (.malformed .statusMissing) nofun
      · exact Decode.blames_pure _
    · exact (Decode.blames_byte trivial).bind fun _ => Decode.blames_pure _

/-- A status that is taken over is that of a channel, so whatever the status is of, it is one. -/
theorem isData_of_readHead {running? : Option UInt8} {bytes rest : List UInt8} {delta : Nat} {status : UInt8}
    (voiced : Message.Voiced running?) (head : readHead running? bytes = .ok (delta, status) rest) :
    Status.isData status = false := by
  obtain ⟨_, _, _, ⟨notData, _⟩ | ⟨runs, _, _⟩⟩ := readHead_ok_iff.mp head
  · exact notData
  · exact Status.isData_eq_false_of_isVoice (voiced status runs)

theorem cause_of_failed {mode : Mode} {wire after : Wire} {fault : Fault} (voiced : Message.Voiced wire.running?)
    (failed : read mode wire = .error fault after) : fault.cause.OfEvent := by
  obtain ⟨head, _⟩ | ⟨delta, status, left, head, body, _⟩ := read_error_cases failed
  · exact blames_readHead _ _ _ _ head
  · exact Message.blames_readBody (isData_of_readHead voiced head) _ _ _ body

end Wire

namespace EventStream

theorem Gives.cause {mode : Mode} {stream after : EventStream} {fault : Fault}
    (gives : Gives (S := S) mode stream (some (.error fault)) after) (voiced : Message.Voiced stream.running?) :
    fault.cause.OfEvent := by
  cases gives with
  | malformed failed =>
    have cause := Wire.cause_of_failed voiced failed
    exact cause
  | beyond read late => exact nofun

theorem cause_of_item? {mode : Mode} {bytes : List UInt8} {count : Nat} {fault : Fault}
    (found : (ofBytes bytes).item? mode count = some (.error fault : Except Fault (Event S))) : fault.cause.OfEvent := by
  have gives := gives (S := S) mode (ofBytes bytes) count
  rw [found] at gives
  exact gives.cause (voiced_after mode (voiced_ofBytes bytes) count)

end EventStream

namespace Body

theorem blames_scanFrom {mode : Mode} {before : List (Event S)} {stream : EventStream}
    (voiced : Message.Voiced stream.running?) : Blames Cause.OfEvent (scanFrom mode before stream) := by
  fun_induction scanFrom mode before stream with
  | case1 before stream exhausted => exact blames_ok _
  | case2 before stream fault left failed => exact blames_error fault ((EventStream.gives_of_next? failed).cause voiced)
  | case3 before stream event after next shorter isEnd => exact blames_ok _
  | case4 before stream event after next shorter notEnd ih => exact ih ((EventStream.gives_of_next? next).voiced voiced)

theorem blames_read (mode : Mode) (bytes : List UInt8) :
    Blames Cause.OfEvent (Body.read mode bytes : Except Fault (Body S)) := by
  refine (blames_scanFrom (EventStream.voiced_ofBytes bytes)).bind fun found _ => ?_
  split
  · exact (blames_ensure _ (.malformed .eventsAfterEnd) nofun).bind fun _ _ => blames_ok _
  · exact (blames_ensure _ (.malformed .endMissing) nofun).bind fun _ _ => blames_ok _

end Body

theorem Format.blames_read : Format.read.Blames Cause.OfFile := by
  refine (Decode.blames_word trivial 2).bind fun code => ?_
  split
  · exact Decode.blames_pure _
  · exact Decode.blames_fail (.unsupported .trackFormat) trivial

namespace Division

theorem blames_ofWord (word : Nat) : Blames Cause.OfFile (ofWord word) := by
  unfold ofWord
  split
  · split
    · exact blames_error (.unsupported .zeroTicksPerQuarter) trivial
    · exact blames_ok _
  · split
    · exact blames_error (.unsupported .zeroResolution) trivial
    · split
      · exact blames_ok _
      · exact blames_error (.unsupported .frameRate) trivial

theorem blames_read : Division.read.Blames Cause.OfFile :=
  ((Decode.blames_word trivial 2).within _).bind fun word => Decode.blames_ofExcept (blames_ofWord word)

end Division

theorem Header.blames_read : Header.read.Blames Cause.OfFile :=
  Format.blames_read.bind fun _ => (Decode.blames_word trivial 2).bind fun _ =>
    Division.blames_read.bind fun _ => Decode.blames_pure _

namespace Chunk

theorem blames_readContent (name : List UInt8) (length : Nat) : (readContent name length).Blames Cause.OfFile := by
  unfold readContent
  split
  · refine (Decode.blames_ensure _ (.malformed .headerLength) nofun).bind fun _ => ?_
    refine ((Decode.blames_take trivial 6).within _).bind fun content => ?_
    exact (Decode.blames_ofExcept (Header.blames_read.run content)).bind fun _ => Decode.blames_pure _
  · split
    · exact ((Decode.blames_take trivial length).within _).bind fun _ => Decode.blames_pure _
    · exact ((Decode.blames_take trivial length).within _).bind fun _ => Decode.blames_pure _

theorem blames_read : Chunk.read.Blames Cause.OfFile :=
  ((Decode.blames_take trivial 4).within _).bind fun name =>
    ((Decode.blames_word trivial 4).within _).bind fun length => blames_readContent name length

end Chunk

/-- If the row of chunks ends with bytes that are no chunk, the file is to blame. -/
def Ending.BlamesFile : Ending → Prop
  | .clean => True
  | .broken fault _ => fault.cause.OfFile

theorem Chunks.blamesFile_scanFrom (before : List Chunk) (bytes : List UInt8) :
    (scanFrom before bytes).ending.BlamesFile := by
  fun_induction scanFrom before bytes with
  | case1 before bytes exhausted => trivial
  | case2 before bytes more fault rest failed => exact Chunk.blames_read bytes fault rest failed
  | case3 before bytes more chunk rest found shorter ih => exact ih

/-! ## Files -/

namespace Rmid

theorem blames_embedded (bytes : List UInt8) : Blames Cause.OfFile (embedded bytes) := by
  unfold embedded
  split
  · exact blames_error (.truncated .wrapper) trivial
  · refine (((Decode.blames_take trivial 4).run _).guard _).bind fun given _ => ?_
    refine (blames_ensure _ (.unsupported .wrapperForm) trivial).bind fun _ _ => ?_
    split
    · exact blames_ok _
    · exact blames_error (.malformed .embeddedFileMissing) nofun

theorem blames_unwrap (bytes : List UInt8) : Blames Cause.OfFile (unwrap bytes) := by
  rw [unwrap]
  split
  · exact (blames_embedded bytes).guard _
  · exact blames_ok _

end Rmid

namespace Outline

theorem blames_readEnding (missing : Bool) {ending : Ending} (ofFile : ending.BlamesFile) :
    Blames Cause.OfFile (readEnding missing ending : Report S (List Warning)).result := by
  cases ending with
  | clean => exact blames_ok _
  | broken fault remaining =>
    cases missing with
    | false => exact blames_ok _
    | true => exact blames_error (fault.within .nextTrack) ofFile

theorem blames_readExtra (mode : Mode) (extra : Nat) :
    Blames Cause.OfFile (readExtra mode extra : Report S (List Warning)).result := by
  unfold readExtra
  split
  · exact blames_ok _
  · cases mode with
    | strict => exact blames_error (.malformed .tracksBeyondCount) nofun
    | lenient => exact blames_ok _

theorem blames_ofRest (mode : Mode) (header : Header) (trackCount : Nat) (rest : List Chunk) {ending : Ending}
    (ofFile : ending.BlamesFile) :
    Blames Cause.OfFile (ofRest mode header trackCount rest ending : Report S Outline).result := by
  simp only [ofRest, Report.result_bind, Report.result_ensure, Report.result_note, Report.result_pure]
  refine (blames_ensure _ (.malformed .singleTrackCount) nofun).bind fun _ _ => (blames_ok ()).bind fun _ _ => ?_
  refine (blames_ensure _ (.malformed .headerRepeated) nofun).bind fun _ _ => ?_
  refine (blames_readEnding _ ofFile).bind fun _ _ => ?_
  refine (blames_ensure _ (.truncated .tracks) trivial).bind fun _ _ => ?_
  exact (blames_readExtra mode _).bind fun _ _ => blames_ok _

theorem blames_ofChunks (mode : Mode) {found : Chunks} (ofFile : found.ending.BlamesFile) :
    Blames Cause.OfFile (ofChunks mode found : Report S Outline).result := by
  obtain ⟨chunks, ending⟩ := found
  cases chunks with
  | nil =>
    cases ending with
    | clean => exact blames_error (.truncated .header) trivial
    | broken fault remaining => exact blames_error (fault.within .header) ofFile
  | cons first rest =>
    cases first with
    | header header trackCount => exact blames_ofRest mode header trackCount rest ofFile
    | track body => exact blames_error (.malformed .headerNotFirst) nofun
    | other name => exact blames_error (.malformed .headerNotFirst) nofun

end Outline

namespace Song

variable [Clock S] [Workers]

theorem blames_read (mode : Mode) (identity : Nat) (bytes : List UInt8) :
    Blames Cause.OfFile (read mode identity bytes : Report S (Song S)).result := by
  rw [result_read]
  refine (Rmid.blames_unwrap bytes).bind fun file _ => ?_
  refine (Outline.blames_ofChunks mode (Chunks.blamesFile_scanFrom [] file)).bind fun outline _ => ?_
  refine (Blames.collect fun result member => ?_).map _
  obtain ⟨body, _, rfl⟩ := List.mem_map.mp member
  exact (Body.blames_read mode body).mono Cause.OfEvent.ofFile

/-- Whatever the bytes are, reading them as a file gives a song or blames them: they break a rule of the
    format, end early or stand for something that has no place here. Reading them as a body event by event
    blames them too, and only for one of the first two. The running status is a status at all times, so the
    fault of one that is none is never told, and a payload that was read can always be written anew. -/
theorem read_blames_bytes (mode : Mode) (identity : Nat) (bytes : List UInt8) :
    ((∃ song, (read mode identity bytes : Report S (Song S)).result = .ok song) ∨
      ∃ fault, (read mode identity bytes : Report S (Song S)).result = .error fault ∧
        (fault.kind = .format ∨ fault.kind = .unsupportedFormat ∨ fault.kind = .truncatedFile) ∧
        fault.cause ≠ .malformed .statusNotRunning) ∧
    (∀ count fault, (EventStream.ofBytes bytes).item? mode count = some (.error fault : Except Fault (Event S)) →
      (fault.kind = .format ∨ fault.kind = .truncatedFile) ∧ fault.cause ≠ .malformed .statusNotRunning) ∧
    (∀ count status, ((EventStream.ofBytes bytes).after S mode count).running? = some status → 0x80 ≤ status.toNat) ∧
    (∀ unread payload rest, Vlq.readBlock unread = .ok payload rest → ∃ field, Vlq.block payload = .ok field) := by
  refine ⟨?_, fun count fault found => (EventStream.cause_of_item? found).kind_eq, fun count status runs => ?_,
    fun _ _ _ done => Vlq.exists_block_of_readBlock done⟩
  · rcases result : (read mode identity bytes : Report S (Song S)).result with fault | song
    · exact .inr ⟨fault, rfl, (blames_read mode identity bytes fault result).kind_eq⟩
    · exact .inl ⟨song, rfl⟩
  · have isVoice := EventStream.voiced_after mode (EventStream.voiced_ofBytes bytes) count status runs
    simp only [Status.isVoice, Bool.and_eq_true, decide_eq_true_eq] at isVoice
    exact isVoice.1

/-- A note with a byte behind it that opens nothing. -/
private def realtimeBody : List UInt8 := [0, 0x90, 60, 64, 0, 0xF8]

theorem read_blames_bytes_realtime :
    (∃ fault, (EventStream.ofBytes realtimeBody).item? .lenient 1 = some (.error fault : Except Fault (Event Float)) ∧
      (fault.kind = .format ∨ fault.kind = .truncatedFile) ∧ fault.cause ≠ .malformed .statusNotRunning) ∧
    (((EventStream.ofBytes realtimeBody).after Float .lenient 1).running? = some 0x90 ∧ 0x80 ≤ (0x90 : UInt8).toNat) ∧
    Vlq.readBlock [0x80, 1, 7] = .ok [7] [] ∧ ∃ field, Vlq.block [7] = .ok field := by
  obtain ⟨_, faults, running, rewritten⟩ := read_blames_bytes (S := Float) .lenient 0 realtimeBody
  have second : (EventStream.ofBytes realtimeBody).item? .lenient 1 =
      some (.error ⟨.malformed .systemRealtime, [.event]⟩ : Except Fault (Event Float)) := rfl
  have runs : ((EventStream.ofBytes realtimeBody).after Float .lenient 1).running? = some 0x90 := rfl
  have block : Vlq.readBlock [0x80, 1, 7] = .ok [7] [] := rfl
  exact ⟨⟨_, second, faults 1 _ second⟩, ⟨runs, running 1 _ runs⟩, block, rewritten _ _ _ block⟩

end Song

end MidiFile
