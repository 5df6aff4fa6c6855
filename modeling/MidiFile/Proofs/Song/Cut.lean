import MidiFile.Proofs.Song.RoundTrip

/-! # Files that are cut short

A chunk takes exactly its own bytes, and of a part of them none can be read for want of the rest
(`Chunk.needs_written`). So a file that is cut anywhere loses at least one of its chunks
(`Chunks.scan_cut`), and what is missing is the header or a track that the header declares. A part
of the file of a song is therefore never read as a smaller file: reading it fails, and says that
bytes are missing (`Song.session_cut_file_truncated`).
-/

namespace MidiFile

variable {S : Type}

/-- Bytes that are cut are cut within their front or behind it. -/
theorem cut_append {part front back : List UInt8} (inside : part <+: front ++ back) (cut : part ≠ front ++ back) :
    (part <+: front ∧ part ≠ front) ∨ ∃ rest, part = front ++ rest ∧ rest <+: back ∧ rest ≠ back := by
  by_cases whole : front <+: part
  · obtain ⟨rest, rfl⟩ := whole
    exact .inr ⟨rest, rfl, (List.prefix_append_right_inj front).mp inside, fun same => cut (same ▸ rfl)⟩
  · refine .inl ⟨(List.prefix_or_prefix_of_prefix inside (List.prefix_append front back)).resolve_right whole, ?_⟩
    rintro rfl
    exact whole (List.prefix_refl part)

namespace Decode

variable {α β : Type}

/-- The step takes these bytes, whatever follows them, and no fewer of them are enough. -/
structure Needs (step : Decode α) (bytes : List UInt8) (value : α) : Prop where
  reads : ∀ rest, step (bytes ++ rest) = .ok value rest
  short : ∀ part, part <+: bytes → part ≠ bytes → ∃ fault left, step part = .error fault left ∧ fault.kind = .truncatedFile

theorem Needs.of_nothing {step : Decode α} {value : α} (reads : ∀ rest, step rest = .ok value rest) :
    step.Needs [] value :=
  ⟨reads, fun _ front cut => absurd (List.prefix_nil.mp front) cut⟩

theorem needs_pure (value : α) : (pure value : Decode α).Needs [] value := .of_nothing fun _ => rfl

theorem needs_take {count : Nat} {bytes : List UInt8} (length : bytes.length = count) : (take count).Needs bytes bytes := by
  refine ⟨fun rest => take_ok_iff.mpr ⟨length, rfl⟩, fun part front cut => ?_⟩
  have short : part.length ≠ count := fun same => cut (front.eq_of_length (same.trans length.symm))
  have most := front.length_le
  have few : (part.take count).length ≠ count := by
    rw [List.length_take]
    omega
  exact ⟨_, _, if_neg few, rfl⟩

theorem Needs.within {context : Context} {step : Decode α} {bytes : List UInt8} {value : α} (needs : step.Needs bytes value) :
    (within context step).Needs bytes value := by
  refine ⟨fun rest => within_ok_iff.mpr (needs.reads rest), fun part front cut => ?_⟩
  obtain ⟨fault, left, failed, kind⟩ := needs.short part front cut
  exact ⟨fault.within context, left, by simp only [Decode.within, failed], kind⟩

theorem Needs.bind {step : Decode α} {next : α → Decode β} {front back : List UInt8} {found : α} {value : β}
    (first : step.Needs front found) (second : (next found).Needs back value) : (step >>= next).Needs (front ++ back) value := by
  refine ⟨fun rest => ?_, fun part inside cut => ?_⟩
  · rw [List.append_assoc, bind_apply, first.reads]
    exact second.reads rest
  · rcases cut_append inside cut with ⟨inFront, early⟩ | ⟨rest, rfl, inBack, late⟩
    · obtain ⟨fault, left, failed, kind⟩ := first.short part inFront early
      exact ⟨fault, left, by simp only [bind_apply, failed], kind⟩
    · obtain ⟨fault, left, failed, kind⟩ := second.short rest inBack late
      exact ⟨fault, left, by simp only [bind_apply, first.reads, failed], kind⟩

/-- What takes nothing needs nothing more. -/
theorem Needs.bind_nothing {step : Decode α} {next : α → Decode β} {bytes : List UInt8} {found : α} {value : β}
    (first : step.Needs bytes found) (second : (next found).Needs [] value) : (step >>= next).Needs bytes value := by
  have whole := first.bind second
  rwa [List.append_nil] at whole

theorem needs_word {width number : Nat} (fits : number < Nat.pow 256 width) :
    (word width).Needs (Bytes.word width number) number := by
  have needs : (word width).Needs (Bytes.word width number) (Bytes.bigEndian (Bytes.word width number)) :=
    (needs_take (Bytes.length_word width number)).within.bind_nothing (needs_pure _)
  rwa [Bytes.bigEndian_word, Nat.mod_eq_of_lt fits] at needs

end Decode

namespace Chunk

theorem needs_readContent {name content : List UInt8} {chunk : Chunk} (means : Means name content chunk) :
    (readContent name content.length).Needs content chunk := by
  cases means with
  | @header head trackCount valid few =>
    have six := Header.length_encode head trackCount
    have known : Header.read.run (head.encode trackCount) = .ok (head, trackCount) :=
      Decode.run_ok_iff.mpr ⟨[], Header.read_ok_iff.mpr ⟨valid, few, (List.append_nil _).symm⟩⟩
    have counted : (Decode.ensure ((head.encode trackCount).length == 6) (.malformed .headerLength)).Needs [] () :=
      .of_nothing fun _ => Decode.ensure_ok_iff.mpr ⟨by simp [six], rfl⟩
    have made : (Decode.ofExcept (Header.read.run (head.encode trackCount))).Needs [] (head, trackCount) :=
      .of_nothing fun _ => Decode.ofExcept_ok_iff.mpr ⟨known, rfl⟩
    rw [readContent, if_pos rfl]
    exact counted.bind ((Decode.needs_take six).within.bind_nothing (made.bind_nothing (Decode.needs_pure _)))
  | track =>
    rw [readContent, if_neg (by decide), if_pos rfl]
    exact (Decode.needs_take rfl).within.bind_nothing (Decode.needs_pure _)
  | other notHeader notTrack =>
    rw [readContent, if_neg notHeader, if_neg notTrack]
    exact (Decode.needs_take rfl).within.bind_nothing (Decode.needs_pure _)

/-- A chunk is read from its own bytes, and of a part of them none can be read. -/
theorem needs_written {bytes : List UInt8} {chunk : Chunk} (written : Written bytes chunk) : Chunk.read.Needs bytes chunk := by
  obtain ⟨four, fits, means⟩ := written
  rw [encode, List.append_assoc]
  exact (Decode.needs_take four).within.bind ((Decode.needs_word fits).within.bind (needs_readContent means))

end Chunk

/-- A row of chunks that ends, if not with the bytes, for want of more of them. -/
def Ending.Early : Ending → Prop
  | .clean => True
  | .broken fault _ => fault.kind = .truncatedFile

/-- Of a row of chunks that is cut there are only the first ones left, up to the one that is cut. -/
theorem Chunks.scan_cut {pieces : List (List UInt8)} {chunks : List Chunk}
    (written : List.Forall₂ Chunk.Written pieces chunks) {part : List UInt8} (front : part <+: pieces.flatten)
    (cut : part ≠ pieces.flatten) :
    ∃ count ending, scan part = ⟨chunks.take count, ending⟩ ∧ count < chunks.length ∧ ending.Early := by
  induction written generalizing part with
  | nil => exact absurd (List.prefix_nil.mp front) cut
  | @cons piece chunk pieces chunks first _ ih =>
    have needs := Chunk.needs_written first
    by_cases empty : part = []
    · exact ⟨0, .clean, by rw [empty, scan_nil, List.take_zero], Nat.succ_pos _, trivial⟩
    · rcases cut_append front cut with ⟨inFirst, early⟩ | ⟨rest, rfl, inLater, late⟩
      · obtain ⟨fault, left, failed, kind⟩ := needs.short part inFirst early
        exact ⟨0, _, scan_broken empty failed, Nat.succ_pos _, kind⟩
      · obtain ⟨count, ending, scanned, fewer, short⟩ := ih inLater late
        refine ⟨count + 1, ending, ?_, Nat.succ_lt_succ fewer, short⟩
        rw [scan_next (needs.reads rest), scanned, List.take_succ_cons]

namespace Rmid

/-- What does not start like a container does not start like one when it is cut. -/
theorem unwrap_of_prefix {part file : List UInt8} (front : part <+: file) (bare : isWrapped file = false) :
    unwrap part = .ok part := by
  refine if_neg fun wrapped => ?_
  obtain ⟨rest, rfl⟩ := front
  have named : part.take 4 = mainName := beq_iff_eq.mp wrapped
  have four : 4 ≤ part.length := by
    have length := congrArg List.length named
    simp only [List.length_take, mainName, List.length_cons, List.length_nil] at length
    omega
  rw [isWrapped, List.take_append_of_le_length four, named] at bare
  cases bare

end Rmid

namespace Outline

theorem kind_missing {ending : Ending} (early : ending.Early) : ending.missing.kind = .truncatedFile := by
  cases ending with
  | clean => rfl
  | broken fault remaining => exact early

/-- The first chunks of a file, but not all of them, make no outline. -/
theorem result_cut (mode : Mode) {header : Header} {bodies : List (List UInt8)}
    (single : header.format = .single → bodies.length = 1) {count : Nat} (fewer : count < bodies.length + 1)
    {ending : Ending} (early : ending.Early) :
    ∃ fault, (ofChunks mode ⟨(.header header bodies.length :: bodies.map Chunk.track).take count, ending⟩ :
      Report S Outline).result = .error fault ∧ fault.kind = .truncatedFile := by
  cases count with
  | zero =>
    cases ending with
    | clean => exact ⟨_, rfl, rfl⟩
    | broken fault remaining => exact ⟨_, rfl, early⟩
  | succ tracks =>
    have taken : (bodies.map Chunk.track).take tracks = (bodies.take tracks).map Chunk.track := List.map_take.symm
    have few : (((bodies.map Chunk.track).take tracks).filterMap Chunk.body?).length < bodies.length := by
      rw [taken, body?_tracks, List.length_take]
      omega
    exact ⟨_, result_ofRest_few mode ending single (taken ▸ isHeader_tracks _) few, kind_missing early⟩

end Outline

namespace Song

variable [Clock S]

/-- A part of a file that is not the whole file is not read. -/
theorem result_cut [Workers] (mode : Mode) (identity : Nat) {header : Header} (valid : header.division.Valid)
    {bodies : List (List UInt8)} (single : header.format = .single → bodies.length = 1) (count : bodies.length < 0x10000)
    (fits : ∀ body ∈ bodies, body.length < 0x100000000) {part : List UInt8} (front : part <+: fileOf header bodies)
    (cut : part ≠ fileOf header bodies) :
    ∃ fault, (read mode identity part : Report S (Song S)).result = .error fault ∧ fault.kind = .truncatedFile := by
  have bare := Rmid.unwrap_of_prefix front (Rmid.isWrapped_header _ _)
  obtain ⟨pieces, whole, written⟩ := exists_written_fileOf valid count fits
  rw [whole] at front cut
  obtain ⟨kept, ending, scanned, fewer, early⟩ := Chunks.scan_cut written front cut
  rw [List.length_cons, List.length_map] at fewer
  obtain ⟨fault, failed, kind⟩ := Outline.result_cut (S := S) mode single fewer early
  refine ⟨fault, ?_, kind⟩
  rw [result_read, bare]
  simp only [Except.bind, scanned, failed]

/-- A part of the file of a song of a session is never mistaken for a whole file: whatever reader is
    given it finds that bytes are missing. -/
theorem session_cut_file_truncated [Workers] (mode : Mode) (commands : List (Command S)) {song saved : Song S}
    {file : List UInt8} (member : song ∈ (Workspace.session mode commands).songs)
    (done : encode song = .ok file saved) {part : List UInt8} (front : part <+: file) (cut : part ≠ file)
    (reader : Mode) (identity : Nat) :
    ∃ fault, (read reader identity part : Report S (Song S)).result = .error fault ∧ fault.kind = .truncatedFile := by
  have sound := session_sound mode commands member
  obtain ⟨single, count, closed, bodies, ended, encoded, rfl, _⟩ := sound.encode_ok done
  have length : bodies.length = song.tracks.length := (length_of_mapM_ok encoded).symm.trans ended.length
  exact result_cut reader identity sound.division (fun format => length.trans (single format)) (length ▸ count)
    (Track.fits_of_encode (mapM_ok_iff.mp encoded)) front cut

/-- One note. -/
private def cutCommands : List (Command Float) :=
  [.create, .change 0 (.addTrack .new), .change 0 (.addEvent 0 (.new (.bytes [0x90, 60, 64])) (.tick 96))]

private def cutBody : List UInt8 := [96, 0x90, 60, 64, 0, 0xFF, 0x2F, 0]

theorem session_cut_file_truncated_note :
    ∃ song ∈ (Workspace.session .strict cutCommands).songs, ∃ saved,
      encode song = .ok (fileOf song.header [cutBody]) saved ∧
        ∀ count < (fileOf song.header [cutBody]).length, ∃ fault,
          (read .lenient 1 ((fileOf song.header [cutBody]).take count) : Report Float (Song Float)).result = .error fault ∧
            fault.kind = .truncatedFile := by
  obtain ⟨song, songs, length, encoded⟩ : ∃ song, (Workspace.session .strict cutCommands).songs = [song] ∧
      song.tracks.length = 1 ∧ (song.tracks.map Track.close).mapM Track.encode = .ok [cutBody] := ⟨_, rfl, rfl, by decide⟩
  have member : song ∈ (Workspace.session .strict cutCommands).songs := songs ▸ List.mem_singleton_self song
  obtain ⟨saved, done⟩ :=
    (session_sound .strict cutCommands member).exists_encode (fun _ => length) (length ▸ by decide) encoded
  refine ⟨song, member, saved, done, fun count short => ?_⟩
  have cut : (fileOf song.header [cutBody]).take count ≠ fileOf song.header [cutBody] := by
    intro whole
    have length := congrArg List.length whole
    rw [List.length_take] at length
    omega
  exact session_cut_file_truncated .strict cutCommands member done (List.take_prefix _ _) cut .lenient 1

end Song

end MidiFile
