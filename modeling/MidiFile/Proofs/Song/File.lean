import MidiFile.Proofs.Chunk
import MidiFile.Proofs.Song.Read
import MidiFile.Proofs.Track.Body
import MidiFile.Song.Encode

/-! # Files, stored and read

A file of a header and track bodies gives them back as its outline (`outline_fileOf`), so a song
whose tracks are in order and end is read back from its file (`read_fileOf`). An outline that was
read can be stored again: its header can be written, and no body is longer than the file.
-/

namespace MidiFile

variable {S : Type}

namespace Rmid

theorem isWrapped_header (content rest : List UInt8) :
    isWrapped (Chunk.encode Chunk.headerName content ++ rest) = false := by
  rw [isWrapped, Chunk.encode, List.append_assoc, List.append_assoc, List.take_left' (by rfl)]
  decide

/-- A file that starts with a header chunk is in no wrapper. -/
theorem unwrap_header (content rest : List UInt8) :
    unwrap (Chunk.encode Chunk.headerName content ++ rest) = .ok (Chunk.encode Chunk.headerName content ++ rest) := by
  rw [unwrap, isWrapped_header]
  rfl

theorem part?_content {bytes rest : List UInt8} {part : Part} (found : part? bytes = some (part, rest)) :
    part.content.length ≤ bytes.length ∧ rest.length ≤ bytes.length := by
  refine ⟨?_, Nat.le_of_lt (length_part? found)⟩
  by_cases short : (bytes.take 8).length < 8
  · rw [part?, if_pos short] at found
    cases found
  · rw [part?, if_neg short] at found
    cases found
    simp only [List.length_take, List.length_drop]
    omega

theorem content_partsFrom (size : Nat) (before : List Part) (bytes : List UInt8) (within : bytes.length ≤ size)
    (fits : ∀ part ∈ before, part.content.length ≤ size) :
    ∀ part ∈ partsFrom before bytes, part.content.length ≤ size := by
  fun_induction partsFrom before bytes with
  | case1 before bytes exhausted => simpa using fits
  | case2 before bytes part rest found shorter ih =>
    obtain ⟨content, left⟩ := part?_content found
    exact ih (Nat.le_trans left within) (List.forall_mem_cons.mpr ⟨Nat.le_trans content within, fits⟩)

/-- What comes out of a wrapper is no longer than it was with it. -/
theorem length_unwrap {bytes file : List UInt8} (done : unwrap bytes = .ok file) : file.length ≤ bytes.length := by
  by_cases wrapped : isWrapped bytes = true
  · rw [unwrap, if_pos wrapped, guard_ok_iff] at done
    rcases found : part? bytes with _ | ⟨main, rest⟩
    · simp [embedded, found] at done
    · simp only [embedded, found] at done
      obtain ⟨_, _, done⟩ := bind_ok_iff.mp done
      obtain ⟨_, _, done⟩ := bind_ok_iff.mp done
      cases named : (parts (main.content.drop 4)).find? (·.name == dataName) with
      | none => simp [named] at done
      | some part =>
        simp only [named] at done
        cases done
        have inside : part.content.length ≤ main.content.length := by
          refine content_partsFrom main.content.length [] _ ?_ (by simp) part (List.mem_of_find?_eq_some named)
          rw [List.length_drop]
          omega
        exact Nat.le_trans inside (part?_content found).1
  · rw [unwrap, if_neg wrapped] at done
    cases done
    exact Nat.le_refl _

end Rmid

/-- The warnings for what comes behind the last chunk. -/
def Ending.leftOut : Ending → List Warning
  | .clean => []
  | .broken _ remaining => [.bytesIgnored remaining]

/-- The fault of a row of chunks that ends before all tracks are there. -/
def Ending.missing : Ending → Fault
  | .clean => .truncated .tracks
  | .broken fault _ => fault.within .nextTrack

namespace Outline

section
variable {header : Header} {trackCount : Nat} {rest : List Chunk}

theorem single_allowed (single : header.format = .single → trackCount = 1) :
    (header.format != .single || trackCount == 1) = true := by
  cases format : header.format <;> simp_all

/-- With enough tracks nothing that is left out but tracks can be a fault, and these only for a
    strict reader. -/
theorem result_ofRest_enough (mode : Mode) (ending : Ending) (single : header.format = .single → trackCount = 1)
    (noHeader : rest.any Chunk.isHeader = false) (enough : trackCount ≤ (rest.filterMap Chunk.body?).length) :
    (ofRest mode header trackCount rest ending : Report S Outline).result =
      (readExtra mode ((rest.filterMap Chunk.body?).length - trackCount) : Report S (List Warning)).result.map fun extra =>
        ⟨header, (rest.filterMap Chunk.body?).take trackCount, ending.leftOut ++ extra⟩ := by
  have trailing : (readEnding (decide ((rest.filterMap Chunk.body?).length < trackCount)) ending :
      Report S (List Warning)).result = .ok ending.leftOut := by
    rw [decide_eq_false (Nat.not_lt.mpr enough)]
    cases ending <;> rfl
  simp only [ofRest, Report.result_bind, Report.result_ensure, Report.result_note, Report.result_pure,
    single_allowed single, noHeader, trailing, decide_eq_true enough, Fault.ensure, Bool.not_false, if_true, Except.bind]
  rfl

theorem result_ofRest_few (mode : Mode) (ending : Ending) (single : header.format = .single → trackCount = 1)
    (noHeader : rest.any Chunk.isHeader = false) (few : (rest.filterMap Chunk.body?).length < trackCount) :
    (ofRest mode header trackCount rest ending : Report S Outline).result = .error ending.missing := by
  cases ending <;>
    simp only [ofRest, readEnding, Report.result_bind, Report.result_ensure, Report.result_note, Report.result_pure,
      single_allowed single, noHeader, few, decide_true, decide_eq_false (Nat.not_le.mpr few), Fault.ensure,
      Bool.not_false, if_true, Except.bind] <;>
    rfl

end

theorem isHeader_tracks (bodies : List (List UInt8)) : (bodies.map Chunk.track).any Chunk.isHeader = false := by
  simp [List.any_map, Chunk.isHeader, Function.comp_def]

theorem body?_tracks (bodies : List (List UInt8)) : (bodies.map Chunk.track).filterMap Chunk.body? = bodies := by
  rw [List.filterMap_map]
  exact List.filterMap_some

theorem result_ofTracks (mode : Mode) {header : Header} {bodies : List (List UInt8)}
    (single : header.format = .single → bodies.length = 1) :
    (ofChunks mode ⟨.header header bodies.length :: bodies.map Chunk.track, .clean⟩ : Report S Outline).result =
      .ok ⟨header, bodies, []⟩ := by
  have found := body?_tracks bodies
  have outlined := result_ofRest_enough (S := S) mode .clean single (isHeader_tracks bodies)
    (Nat.le_of_eq (congrArg List.length found.symm))
  rw [found, Nat.sub_self, List.take_length] at outlined
  exact outlined

theorem of_result {mode : Mode} {found : Chunks} {outline : Outline}
    (done : (ofChunks mode found : Report S Outline).result = .ok outline) :
    ∃ trackCount rest, found.chunks = .header outline.header trackCount :: rest ∧
      (outline.header.format = .single → trackCount = 1) ∧ trackCount ≤ (rest.filterMap Chunk.body?).length ∧
      outline.bodies = (rest.filterMap Chunk.body?).take trackCount := by
  rw [ofChunks] at done
  split at done
  · cases done
  · cases done
  · rename_i header trackCount rest chunks
    simp only [ofRest, Report.result_bind, bind_ok_iff, Report.result_ensure, ensure_ok_iff, Report.result_pure] at done
    obtain ⟨_, allowed, _, _, _, _, trailing, _, _, enough, extra, _, made⟩ := done
    cases made
    refine ⟨trackCount, rest, chunks, ?_, by simpa using enough, rfl⟩
    intro single
    change header.format = .single at single
    simpa [single] using allowed
  · cases done

end Outline

namespace Song

/-- The file of a header and bodies is a row of chunks. -/
theorem exists_written_fileOf {header : Header} (valid : header.division.Valid) {bodies : List (List UInt8)}
    (count : bodies.length < 0x10000) (fits : ∀ body ∈ bodies, body.length < 0x100000000) :
    ∃ pieces : List (List UInt8), fileOf header bodies = pieces.flatten ∧
      List.Forall₂ Chunk.Written pieces (.header header bodies.length :: bodies.map Chunk.track) := by
  have tracks : List.Forall₂ Chunk.Written (bodies.map (Chunk.encode Chunk.trackName)) (bodies.map Chunk.track) := by
    rw [List.forall₂_map_left_iff, List.forall₂_map_right_iff, List.forall₂_same]
    exact fun body member => .intro rfl (fits body member) .track
  exact ⟨_ :: _, rfl, .cons (Chunk.written_header valid count) tracks⟩

theorem scan_fileOf {header : Header} (valid : header.division.Valid) {bodies : List (List UInt8)}
    (count : bodies.length < 0x10000) (fits : ∀ body ∈ bodies, body.length < 0x100000000) :
    Chunks.scan (fileOf header bodies) = ⟨.header header bodies.length :: bodies.map Chunk.track, .clean⟩ := by
  obtain ⟨pieces, whole, written⟩ := exists_written_fileOf valid count fits
  rw [whole, ← List.append_nil pieces.flatten, Chunks.scan_written written, Chunks.scan_nil, List.append_nil]

/-- The outline of a file is what the file was made of. -/
theorem outline_fileOf (mode : Mode) {header : Header} (valid : header.division.Valid) {bodies : List (List UInt8)}
    (single : header.format = .single → bodies.length = 1) (count : bodies.length < 0x10000)
    (fits : ∀ body ∈ bodies, body.length < 0x100000000) :
    (Outline.ofChunks mode (Chunks.scan (fileOf header bodies)) : Report S Outline).result = .ok ⟨header, bodies, []⟩ := by
  rw [scan_fileOf valid count fits]
  exact Outline.result_ofTracks mode single

/-- An outline that was read can be stored, and no body in it is longer than the file. -/
theorem storable_outline {mode : Mode} {file : List UInt8} {outline : Outline}
    (done : (Outline.ofChunks mode (Chunks.scan file) : Report S Outline).result = .ok outline) :
    outline.header.division.Valid ∧ (outline.header.format = .single → outline.bodies.length = 1) ∧
      outline.bodies.length < 0x10000 ∧ ∀ body ∈ outline.bodies, body.length + 8 ≤ file.length := by
  obtain ⟨trackCount, rest, chunks, single, enough, bodies⟩ := Outline.of_result done
  have fits := Chunks.fits_scan file
  rw [chunks] at fits
  obtain ⟨⟨valid, few⟩, tracks⟩ := List.forall_mem_cons.mp fits
  have count : outline.bodies.length = trackCount := by
    rw [bodies, List.length_take]
    omega
  refine ⟨valid, fun format => count.trans (single format), count ▸ few, ?_⟩
  intro body member
  rw [bodies] at member
  obtain ⟨chunk, among, found⟩ := List.mem_filterMap.mp (List.mem_of_mem_take member)
  cases chunk with
  | track content =>
    cases found
    exact tracks _ among
  | header head count => cases found
  | other name => cases found

end Song

end MidiFile
