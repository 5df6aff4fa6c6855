import MidiFile.Chunk
import MidiFile.Proofs.Vlq
import Mathlib.Data.List.Induction

/-! # The grammar of chunks

A chunk is a name of four bytes, the length of its content and the content. What a header chunk says
can be told from its words when the division is valid, that is when neither the ticks of a quarter
note nor those of a film frame are zero. The bytes of a chunk (`Chunk.Written`) and no others are read
as that chunk, whatever follows them (`Chunk.read_ok_iff`), so a file that starts with a row of chunks
gives these chunks and then whatever comes behind them (`Chunks.scan_written`).
-/

namespace MidiFile

namespace Bytes

theorem bigEndian_lt (bytes : List UInt8) : bigEndian bytes < Nat.pow 256 bytes.length := by
  induction bytes using List.reverseRecOn with
  | nil => decide
  | append_singleton bytes byte ih =>
    have small := byte.toNat_lt
    have power : Nat.pow 256 (bytes ++ [byte]).length = Nat.pow 256 bytes.length * 256 := by
      rw [List.length_append]
      rfl
    rw [bigEndian_append_byte, power]
    omega

/-- Bytes are the word of the number that they spell. -/
theorem word_bigEndian (bytes : List UInt8) : word bytes.length (bigEndian bytes) = bytes := by
  induction bytes using List.reverseRecOn with
  | nil => rfl
  | append_singleton bytes byte ih =>
    have small := byte.toNat_lt
    have upper : (bigEndian bytes * 256 + byte.toNat) / 256 = bigEndian bytes := by omega
    have lowest : UInt8.ofNat (bigEndian bytes * 256 + byte.toNat) = byte := by
      rw [← UInt8.toNat_inj, UInt8.toNat_ofNat']
      omega
    rw [List.length_append, List.length_singleton, word, bigEndian_append_byte, upper, lowest, ih]

end Bytes

namespace Decode

theorem word_ok_iff {width number : Nat} {bytes rest : List UInt8} :
    word width bytes = .ok number rest ↔ number < Nat.pow 256 width ∧ bytes = Bytes.word width number ++ rest := by
  simp only [word, step_bind_ok_iff, within_ok_iff, take_ok_iff]
  constructor
  · rintro ⟨front, _, ⟨rfl, rfl⟩, made⟩
    cases made
    exact ⟨Bytes.bigEndian_lt front, by rw [Bytes.word_bigEndian]⟩
  · rintro ⟨fits, rfl⟩
    refine ⟨Bytes.word width number, rest, ⟨Bytes.length_word width number, rfl⟩, ?_⟩
    rw [Bytes.bigEndian_word, Nat.mod_eq_of_lt fits]
    rfl

end Decode

theorem Format.code_of_ofCode? {code : Nat} {format : Format} (found : ofCode? code = some format) : format.code = code := by
  unfold ofCode? at found
  split at found <;> cases found <;> rfl

theorem FrameRate.toNat_of_ofNat? {frames : Nat} {rate : FrameRate} (found : ofNat? frames = some rate) :
    rate.toNat = frames := by
  unfold ofNat? at found
  split at found <;> cases found <;> rfl

/-- The division can be told from its word. -/
def Division.Valid : Division → Prop
  | metrical ticks => ticks.toNat ≠ 0
  | timecode _ resolution => resolution ≠ 0

namespace Division

theorem Valid.ticks_pos {ticks : Narrow 15} (valid : (metrical ticks).Valid) : 0 < ticks.toNat := Nat.pos_of_ne_zero valid

theorem Valid.resolution_pos {rate : FrameRate} {resolution : UInt8} (valid : (timecode rate resolution).Valid) :
    0 < resolution.toNat :=
  Nat.pos_of_ne_zero fun none => valid (UInt8.toNat_inj.mp none)

/-- The word that a division is stored as. -/
def word : Division → Nat
  | metrical ticks => ticks.toNat
  | timecode rate resolution => (256 - rate.toNat) * 256 + resolution.toNat

theorem word_lt (division : Division) : division.word < Nat.pow 256 2 := by
  cases division with
  | metrical ticks => exact Nat.lt_trans ticks.toNat_lt (by decide)
  | timecode rate resolution =>
    have small := resolution.toNat_lt
    show (256 - rate.toNat) * 256 + resolution.toNat < 65536
    cases rate <;> simp only [FrameRate.toNat] <;> omega

theorem encode_eq_word (division : Division) : division.encode = Bytes.word 2 division.word := by
  cases division with
  | metrical ticks => rfl
  | timecode rate resolution =>
    have small := resolution.toNat_lt
    have upper : ((256 - rate.toNat) * 256 + resolution.toNat) / 256 = 256 - rate.toNat := by omega
    have lowest : UInt8.ofNat ((256 - rate.toNat) * 256 + resolution.toNat) = resolution := by
      rw [← UInt8.toNat_inj, UInt8.toNat_ofNat']
      omega
    show [UInt8.ofNat (256 - rate.toNat), resolution] =
      [UInt8.ofNat (((256 - rate.toNat) * 256 + resolution.toNat) / 256),
        UInt8.ofNat ((256 - rate.toNat) * 256 + resolution.toNat)]
    rw [upper, lowest]

/-- A word stands for the one division that is stored as it, if that division is valid. -/
theorem ofWord_ok_iff {number : Nat} (fits : number < Nat.pow 256 2) {division : Division} :
    ofWord number = .ok division ↔ division.Valid ∧ number = division.word := by
  have bound : number < 65536 := fits
  constructor
  · intro made
    by_cases metrical : number < 0x8000
    · by_cases zero : number = 0
      · simp [ofWord, zero] at made
      · rw [ofWord, if_pos metrical, if_neg zero] at made
        cases made
        have kept : number % Nat.pow 2 15 = number := Nat.mod_eq_of_lt metrical
        exact ⟨fun none => zero (kept.symm.trans none), kept.symm⟩
    · by_cases zero : number % 256 = 0
      · simp [ofWord, metrical, zero] at made
      · rw [ofWord, if_neg metrical, if_neg zero] at made
        cases rate : FrameRate.ofNat? (256 - number / 256 % 256) with
        | none => simp [rate] at made
        | some found =>
          simp only [rate] at made
          cases made
          have low : (UInt8.ofNat number).toNat = number % 256 := UInt8.toNat_ofNat'
          have frames := FrameRate.toNat_of_ofNat? rate
          refine ⟨fun none => zero (low.symm.trans (congrArg UInt8.toNat none)), ?_⟩
          show number = (256 - found.toNat) * 256 + (UInt8.ofNat number).toNat
          omega
  · rintro ⟨valid, rfl⟩
    cases division with
    | metrical ticks =>
      have metrical : ticks.toNat < 0x8000 := ticks.toNat_lt
      rw [word, ofWord, if_pos metrical, if_neg valid, Narrow.truncate_toNat]
    | timecode rate resolution =>
      have small := resolution.toNat_lt
      have nonzero : resolution.toNat ≠ 0 := Nat.ne_of_gt valid.resolution_pos
      have frames : 24 ≤ rate.toNat ∧ rate.toNat ≤ 30 := by cases rate <;> decide
      have large : ¬ (256 - rate.toNat) * 256 + resolution.toNat < 0x8000 := by omega
      have low : ((256 - rate.toNat) * 256 + resolution.toNat) % 256 = resolution.toNat := by omega
      have high : 256 - ((256 - rate.toNat) * 256 + resolution.toNat) / 256 % 256 = rate.toNat := by omega
      have byte : UInt8.ofNat ((256 - rate.toNat) * 256 + resolution.toNat) = resolution := by
        rw [← UInt8.toNat_inj, UInt8.toNat_ofNat', low]
      rw [word, ofWord, if_neg large, low, if_neg nonzero, high, FrameRate.ofNat?_toNat, byte]

theorem read_ok_iff {division : Division} {bytes rest : List UInt8} :
    Division.read bytes = .ok division rest ↔ division.Valid ∧ bytes = division.encode ++ rest := by
  simp only [read, step_bind_ok_iff, Decode.within_ok_iff, Decode.ofExcept_ok_iff, Decode.word_ok_iff]
  constructor
  · rintro ⟨number, left, ⟨fits, rfl⟩, made, rfl⟩
    obtain ⟨valid, rfl⟩ := (ofWord_ok_iff fits).mp made
    exact ⟨valid, by rw [encode_eq_word]⟩
  · rintro ⟨valid, rfl⟩
    exact ⟨division.word, rest, ⟨word_lt division, by rw [encode_eq_word]⟩,
      (ofWord_ok_iff (word_lt division)).mpr ⟨valid, rfl⟩, rfl⟩

end Division

theorem Format.read_ok_iff {format : Format} {bytes rest : List UInt8} :
    Format.read bytes = .ok format rest ↔ bytes = Bytes.word 2 format.code ++ rest := by
  simp only [read, step_bind_ok_iff, Decode.word_ok_iff]
  constructor
  · rintro ⟨code, left, ⟨_, rfl⟩, done⟩
    cases found : ofCode? code with
    | none => simp [found, Decode.fail] at done
    | some made =>
      simp only [found] at done
      cases done
      rw [code_of_ofCode? found]
  · rintro rfl
    have code : format.code < Nat.pow 256 2 := by cases format <;> decide
    refine ⟨format.code, rest, ⟨code, rfl⟩, ?_⟩
    rw [ofCode?_code]
    rfl

namespace Header

theorem length_encode (header : Header) (trackCount : Nat) : (header.encode trackCount).length = 6 := by
  rw [encode, Division.encode_eq_word]
  simp

theorem read_ok_iff {header : Header} {trackCount : Nat} {bytes rest : List UInt8} :
    Header.read bytes = .ok (header, trackCount) rest ↔
      header.division.Valid ∧ trackCount < 0x10000 ∧ bytes = header.encode trackCount ++ rest := by
  simp only [read, step_bind_ok_iff, Format.read_ok_iff, Decode.word_ok_iff, Division.read_ok_iff]
  constructor
  · rintro ⟨format, _, rfl, count, _, ⟨few, rfl⟩, division, _, ⟨valid, rfl⟩, made⟩
    cases made
    exact ⟨valid, few, by simp [encode]⟩
  · rintro ⟨valid, few, rfl⟩
    exact ⟨header.format, _, by rw [encode, List.append_assoc, List.append_assoc], trackCount, _, ⟨few, rfl⟩,
      header.division, rest, ⟨valid, rfl⟩, rfl⟩

end Header

/-! ## Chunks -/

namespace Chunk

/-- What a name and a content mean. Chunks of other names may have any content. -/
inductive Means : List UInt8 → List UInt8 → Chunk → Prop
  | header {head : Header} {trackCount : Nat} (valid : head.division.Valid) (few : trackCount < 0x10000) :
    Means headerName (head.encode trackCount) (.header head trackCount)
  | track {body : List UInt8} : Means trackName body (.track body)
  | other {name content : List UInt8} (notHeader : name ≠ headerName) (notTrack : name ≠ trackName) :
    Means name content (.other name)

/-- The bytes of a chunk. -/
inductive Written : List UInt8 → Chunk → Prop
  | intro {name content : List UInt8} {chunk : Chunk} (four : name.length = 4) (fits : content.length < 0x100000000)
    (means : Means name content chunk) : Written (encode name content) chunk

theorem written_header {head : Header} (valid : head.division.Valid) {trackCount : Nat} (few : trackCount < 0x10000) :
    Written (encode headerName (head.encode trackCount)) (.header head trackCount) :=
  .intro rfl (by rw [Header.length_encode]; decide) (.header valid few)

theorem readContent_header_ok_iff {bytes rest : List UInt8} {length : Nat} {chunk : Chunk} :
    readContent headerName length bytes = .ok chunk rest ↔
      ∃ content, content.length = length ∧ bytes = content ++ rest ∧ Means headerName content chunk := by
  rw [readContent, if_pos rfl]
  simp only [step_bind_ok_iff, Decode.ensure_ok_iff, Decode.within_ok_iff, Decode.take_ok_iff, Decode.ofExcept_ok_iff,
    Decode.run_ok_iff, Prod.exists, Header.read_ok_iff, beq_iff_eq]
  constructor
  · rintro ⟨_, _, ⟨rfl, rfl⟩, _, _, ⟨six, rfl⟩, head, trackCount, _, ⟨⟨unread, valid, few, rfl⟩, rfl⟩, made⟩
    cases made
    rw [List.length_append, Header.length_encode] at six
    obtain rfl : unread = [] := List.length_eq_zero_iff.mp (by omega)
    rw [List.append_nil]
    exact ⟨_, Header.length_encode head trackCount, rfl, .header valid few⟩
  · rintro ⟨_, rfl, rfl, ⟨valid, few⟩ | _ | ⟨named, _⟩⟩
    · exact ⟨(), _, ⟨Header.length_encode _ _, rfl⟩, _, rest, ⟨Header.length_encode _ _, rfl⟩, _, _, rest,
        ⟨⟨[], valid, few, (List.append_nil _).symm⟩, rfl⟩, rfl⟩
    · exact absurd rfl named

theorem readContent_ok_iff {name bytes rest : List UInt8} {length : Nat} {chunk : Chunk} :
    readContent name length bytes = .ok chunk rest ↔
      ∃ content, content.length = length ∧ bytes = content ++ rest ∧ Means name content chunk := by
  by_cases isHeader : name = headerName
  · rw [isHeader, readContent_header_ok_iff]
  · by_cases isTrack : name = trackName
    · rw [isTrack, readContent, if_neg (by decide), if_pos rfl]
      simp only [step_bind_ok_iff, Decode.within_ok_iff, Decode.take_ok_iff]
      constructor
      · rintro ⟨body, _, ⟨length, rfl⟩, made⟩
        cases made
        exact ⟨body, length, rfl, .track⟩
      · rintro ⟨content, length, rfl, means⟩
        cases means with
        | track => exact ⟨content, rest, ⟨length, rfl⟩, rfl⟩
        | other _ named => exact absurd rfl named
    · rw [readContent, if_neg isHeader, if_neg isTrack]
      simp only [step_bind_ok_iff, Decode.within_ok_iff, Decode.take_ok_iff]
      constructor
      · rintro ⟨content, _, ⟨length, rfl⟩, made⟩
        cases made
        exact ⟨content, length, rfl, .other isHeader isTrack⟩
      · rintro ⟨content, length, rfl, means⟩
        cases means with
        | header => exact absurd rfl isHeader
        | track => exact absurd rfl isTrack
        | other _ _ => exact ⟨content, rest, ⟨length, rfl⟩, rfl⟩

/-- A chunk is read from its bytes, whatever follows them, and from no others. -/
theorem read_ok_iff {bytes rest : List UInt8} {chunk : Chunk} :
    Chunk.read bytes = .ok chunk rest ↔ ∃ written, Written written chunk ∧ bytes = written ++ rest := by
  simp only [read, step_bind_ok_iff, Decode.within_ok_iff, Decode.take_ok_iff, Decode.word_ok_iff, readContent_ok_iff]
  constructor
  · rintro ⟨name, _, ⟨four, rfl⟩, length, _, ⟨fits, rfl⟩, content, rfl, rfl, means⟩
    exact ⟨_, .intro four fits means, by simp [encode]⟩
  · rintro ⟨_, ⟨four, fits, means⟩, rfl⟩
    rename_i name content
    refine ⟨name, _, ⟨four, ?_⟩, content.length, _, ⟨fits, rfl⟩, content, rfl, rfl, means⟩
    rw [encode, List.append_assoc, List.append_assoc]

/-- What a chunk that was read is like: the body of a track comes with eight bytes in front of it
    out of all that there were, and a header can be written. -/
def Fits (size : Nat) : Chunk → Prop
  | header head trackCount => head.division.Valid ∧ trackCount < 0x10000
  | track body => body.length + 8 ≤ size
  | other _ => True

theorem fits_of_read {bytes rest : List UInt8} {chunk : Chunk} (done : Chunk.read bytes = .ok chunk rest) :
    chunk.Fits bytes.length := by
  obtain ⟨_, ⟨four, _, means⟩, rfl⟩ := read_ok_iff.mp done
  cases means with
  | header valid few => exact ⟨valid, few⟩
  | track =>
    simp only [Fits, encode, List.length_append, four, Bytes.length_word]
    omega
  | other _ _ => trivial

theorem Fits.mono {size more : Nat} {chunk : Chunk} (fits : chunk.Fits size) (larger : size ≤ more) : chunk.Fits more := by
  cases chunk with
  | header head trackCount => exact fits
  | track body => exact Nat.le_trans fits larger
  | other name => trivial

end Chunk

namespace Chunks

theorem scanFrom_next {bytes rest : List UInt8} {chunk : Chunk} (next : Chunk.read bytes = .ok chunk rest)
    (before : List Chunk) : scanFrom before bytes = scanFrom (chunk :: before) rest := by
  have shorter := Chunk.shortens_read _ _ _ next
  have nonempty : ¬ bytes.isEmpty = true := by
    rw [List.isEmpty_iff]
    rintro rfl
    simp at shorter
  rw [scanFrom, if_neg nonempty]
  split
  · rename_i failed
    rw [next] at failed
    cases failed
  · rename_i here
    rw [next] at here
    cases here
    rfl

theorem scan_nil : scan [] = ⟨[], .clean⟩ := by
  rw [scan, scanFrom]
  rfl

/-- Bytes that do not start with a chunk are not taken apart any further. -/
theorem scan_broken {bytes left : List UInt8} {fault : Fault} (more : bytes ≠ [])
    (failed : Chunk.read bytes = .error fault left) : scan bytes = ⟨[], .broken fault bytes.length⟩ := by
  rw [scan, scanFrom, if_neg (by simpa using more)]
  split
  · rename_i here
    rw [failed] at here
    cases here
    rfl
  · rename_i here
    rw [failed] at here
    cases here

/-- The chunks that were read before have no part in how the rest is taken apart. -/
theorem scanFrom_eq (before : List Chunk) (bytes : List UInt8) :
    scanFrom before bytes = ⟨before.reverse ++ (scan bytes).chunks, (scan bytes).ending⟩ := by
  induction length : bytes.length using Nat.strongRecOn generalizing before bytes with
  | ind size ih =>
    by_cases more : bytes = []
    · rw [more, scan_nil, scanFrom]
      simp
    · cases next : Chunk.read bytes with
      | error fault left =>
        rw [scan_broken more next, scanFrom, if_neg (by simpa using more)]
        split
        · rename_i here
          rw [next] at here
          cases here
          simp
        · rename_i here
          rw [next] at here
          cases here
      | ok chunk rest =>
        have shorter : rest.length < size := length ▸ Chunk.shortens_read _ _ _ next
        rw [scan, scanFrom_next next, scanFrom_next next, ih _ shorter _ rest rfl, ih _ shorter [chunk] rest rfl]
        simp

theorem scan_next {bytes rest : List UInt8} {chunk : Chunk} (next : Chunk.read bytes = .ok chunk rest) :
    scan bytes = ⟨chunk :: (scan rest).chunks, (scan rest).ending⟩ := by
  rw [scan, scanFrom_next next, scanFrom_eq]
  rfl

/-- Bytes that start with chunks are taken apart into these and what comes behind them. -/
theorem scan_written {pieces : List (List UInt8)} {chunks : List Chunk} (written : List.Forall₂ Chunk.Written pieces chunks)
    (rest : List UInt8) : scan (pieces.flatten ++ rest) = ⟨chunks ++ (scan rest).chunks, (scan rest).ending⟩ := by
  induction written with
  | nil => rfl
  | cons first _ ih =>
    rw [List.flatten_cons, List.append_assoc, scan_next (Chunk.read_ok_iff.mpr ⟨_, first, rfl⟩), ih]
    rfl

theorem fits_scanFrom (size : Nat) (before : List Chunk) (bytes : List UInt8) (within : bytes.length ≤ size)
    (fits : ∀ chunk ∈ before, chunk.Fits size) : ∀ chunk ∈ (scanFrom before bytes).chunks, chunk.Fits size := by
  fun_induction scanFrom before bytes with
  | case1 before bytes exhausted => simpa using fits
  | case2 before bytes more fault rest failed => simpa using fits
  | case3 before bytes more chunk rest found shorter ih =>
    exact ih (Nat.le_trans (Nat.le_of_lt shorter) within)
      (List.forall_mem_cons.mpr ⟨(Chunk.fits_of_read found).mono within, fits⟩)

theorem fits_scan (bytes : List UInt8) : ∀ chunk ∈ (scan bytes).chunks, chunk.Fits bytes.length :=
  fits_scanFrom bytes.length [] bytes (Nat.le_refl _) (by simp)

end Chunks

end MidiFile
