import MidiFile.Proofs.Song.Rebuild

/-! # What storing a song does

A song can be stored when its header has room for its tracks and each delta time has a form, as
long as no payload and no track is too long for the length in front of it. What is stored is a
matter of the header and of the delta times and messages alone (`Song.Sound.outcome_encode_of_contents`).
Storing gives an end to each track that has none, measures the tracks and moves all cursors to the
start; it changes nothing else (`Song.StoredAs`), and storing once more changes nothing at all.
-/

namespace MidiFile

variable {S : Type}

namespace Track

/-- A track is stored when every event of it can be and they are not too long together. -/
theorem exists_encode_iff {track : Track S} :
    (∃ body, track.encode = .ok body) ↔
      (∀ event ∈ track.events, event.delta < 0x10000000 ∧ event.message.Storable) ∧
        ∀ parts after?, (track.events.mapM Event.encode) none = .ok parts after? → parts.flatten.length < 0x100000000 := by
  constructor
  · rintro ⟨body, encoded⟩
    obtain ⟨parts, after?, stored, rfl, fits⟩ := encode_ok_iff.mp encoded
    refine ⟨exists_encodeAll_iff.mp ⟨parts, after?, stored⟩, ?_⟩
    intro others end? again
    rw [stored] at again
    cases again
    exact fits
  · rintro ⟨storable, fits⟩
    obtain ⟨parts, after?, stored⟩ := exists_encodeAll_iff.mpr storable
    exact ⟨_, encode_ok_iff.mpr ⟨parts, after?, stored, rfl, fits parts after? stored⟩⟩

/-- The end that is added can be stored, so what matters is whether the other events can. -/
theorem storable_close_iff {track : Track S} (inOrder : InOrder 0 0 track.events) :
    (∀ event ∈ track.close.events, event.delta < 0x10000000 ∧ event.message.Storable) ↔
      ∀ event ∈ track.events, event.delta < 0x10000000 ∧ event.message.Storable := by
  cases ended : track.isEnded with
  | true => rw [close_of_ended ended]
  | false =>
    rw [close_of_open inOrder ended, events_rewind, List.forall_mem_append, List.forall_mem_singleton]
    exact and_iff_left ⟨show 0 < 0x10000000 by decide, trivial⟩

end Track

namespace Song

variable [Clock S] {song other : Song S}

/-- The events of a track, with an end at the tick of the last one where there was none. -/
def withEnd (song : Song S) (track : Track S) : List (Event S) :=
  if track.isEnded then track.events
  else track.events ++ [⟨Message.endOfTrack, 0, track.endTick, track.number?, some track.events.length,
    some (song.tempoMap.timeOf song.division track.endTick)⟩]

/-- The track with an end, which takes its cursor back to the start, where it had none. -/
def closed (song : Song S) (track : Track S) : Track S :=
  if track.isEnded then track else Track.rewind { track with events := song.withEnd track }

/-- Closing a song adds the ends that are missing and touches no other event. -/
theorem tracks_close (sound : song.Sound) (timed : song.Timed) : song.close.tracks = song.tracks.map song.closed := by
  rw [close, recount]
  apply List.map_congr_left
  intro track member
  by_cases ended : track.isEnded = true
  · rw [closed, if_pos ended, if_pos ended]
  · have kept := timed.map_refreshEvent track.endTick member
    have late : song.refreshEvent track.endTick { Body.addedEnd track.events with track? := track.number? } =
        ⟨Message.endOfTrack, 0, track.endTick, track.number?, some track.events.length,
          some (song.tempoMap.timeOf song.division track.endTick)⟩ := if_pos (Nat.le_refl _)
    rw [closed, if_neg ended, if_neg ended, withEnd, if_neg ended,
      Track.close_of_open (sound.inOrder track member) (by simpa using ended), Track.map_rewind (tick_refreshEvent song _)]
    simp only [List.map_append, List.map_singleton, kept, late]

@[simp] theorem events_closed (song : Song S) (track : Track S) : (song.closed track).events = song.withEnd track := by
  rw [closed]
  split
  · rw [withEnd, if_pos ‹_›]
  · exact Track.events_rewind _

@[simp] theorem number?_closed (song : Song S) (track : Track S) : (song.closed track).number? = track.number? := by
  rw [closed]
  split
  · rfl
  · exact congrArg Prod.fst (Track.frame_rewind _)

/-- No payload and no track of the song is too long for the length in front of it. -/
structure FitsLengths (song : Song S) : Prop where
  payloads : ∀ event ∈ song.events, event.message.Storable
  chunks : ∀ track ∈ song.tracks, ∀ parts after?, (track.close.events.mapM Event.encode) none = .ok parts after? →
    parts.flatten.length < 0x100000000

theorem exists_encode_iff [Workers] (sound : song.Sound) : (∃ file saved, encode song = .ok file saved) ↔
    (song.format ≠ .single ∨ song.tracks.length = 1) ∧ song.tracks.length ≤ 65535 ∧
      ∀ track ∈ song.tracks, ∃ body, track.close.encode = .ok body := by
  rw [← List.forall_mem_map (P := fun track => ∃ body, Track.encode track = .ok body), ← exists_mapM_ok_iff]
  constructor
  · rintro ⟨file, saved, done⟩
    obtain ⟨single, count, closed, bodies, ended, encoded, _, _⟩ := sound.encode_ok done
    exact ⟨Decidable.not_or_of_imp single, Nat.le_of_lt_succ count, bodies,
      (mapM_encode_of_frames ended.frames).symm.trans encoded⟩
  · rintro ⟨single, count, bodies, encoded⟩
    exact ⟨_, sound.exists_encode (fun format => single.resolve_left (not_not.mpr format)) (Nat.lt_succ_of_le count) encoded⟩

theorem exists_encode_iff_of_fits [Workers] (sound : song.Sound) (fits : song.FitsLengths) :
    (∃ file saved, encode song = .ok file saved) ↔
      (song.format ≠ .single ∨ song.tracks.length = 1) ∧ song.tracks.length ≤ 65535 ∧
        ∀ event ∈ song.events, event.delta ≤ 0x0FFFFFFF := by
  have stored : (∀ track ∈ song.tracks, ∃ body, track.close.encode = .ok body) ↔
      ∀ event ∈ song.events, event.delta ≤ 0x0FFFFFFF := by
    calc (∀ track ∈ song.tracks, ∃ body, track.close.encode = .ok body)
      _ ↔ ∀ track ∈ song.tracks, ∀ event ∈ track.events, event.delta < 0x10000000 ∧ event.message.Storable :=
        forall₂_congr fun track member => (Track.exists_encode_iff.trans (and_iff_left (fits.chunks track member))).trans
          (Track.storable_close_iff (sound.inOrder track member))
      _ ↔ ∀ event ∈ song.events, event.delta < 0x10000000 ∧ event.message.Storable := List.forall_mem_flatMap.symm
      _ ↔ ∀ event ∈ song.events, event.delta ≤ 0x0FFFFFFF :=
        forall₂_congr fun event member => (and_iff_left (fits.payloads event member)).trans Nat.lt_succ_iff
  rw [exists_encode_iff sound, stored]

omit [Clock S] in
/-- The bytes of a message tell it from all others, so that what a file keeps of a sound song can be
    told by the bytes of its messages. -/
theorem contents_of_bytes (sound : song.Sound) (soundToo : other.Sound)
    (same : (other.tracks.map fun track => track.events.map fun event => (event.delta, event.message.bytes)) =
      song.tracks.map fun track => track.events.map fun event => (event.delta, event.message.bytes)) :
    other.tracks.map Track.content = song.tracks.map Track.content := by
  refine map_eq_of_forall₂ ?_
  have rows := (List.forall₂_and_left _ _).mpr ⟨sound.inOrder, forall₂_and_right (forall₂_of_map_eq same) soundToo.inOrder⟩
  refine rows.imp ?_
  rintro track counterpart ⟨inOrder, alike, inOrderToo⟩
  refine map_eq_of_forall₂ ?_
  have events := (List.forall₂_and_left _ _).mpr
    ⟨inOrder.wellFormed, forall₂_and_right (forall₂_of_map_eq alike) inOrderToo.wellFormed⟩
  refine events.imp ?_
  rintro event twin ⟨wellFormed, pair, wellFormedToo⟩
  obtain ⟨delta, bytes⟩ := Prod.mk.inj pair
  exact Prod.ext delta (Message.eq_of_bytes wellFormed wellFormedToo bytes)

/-- What becomes of a song that is stored as a file. -/
structure StoredAs [Workers] (song : Song S) (file : List UInt8) (saved : Song S) (bodies : List (List UInt8)) : Prop where
  /-- The file is a header chunk and a chunk for each track. -/
  chunks : file = fileOf song.header bodies
  stored : List.Forall₂ (fun track body => track.encode = .ok body) saved.tracks bodies
  /-- The length in front of each body is its own. -/
  lengths : ∀ body ∈ bodies, Bytes.bigEndian (Bytes.word 4 body.length) = body.length
  count : bodies.length = song.tracks.length
  /-- Each track has an end and knows the size of its body, with its cursor at the first event. -/
  tracks : saved.tracks = List.zipWith
    (fun track body => Track.rewind ⟨track.number?, song.withEnd track, body.length, Cursor.nowhere⟩) song.tracks bodies
  /-- Beyond that, the tempo map has counted the events anew, and the song was sought to its start. -/
  rest : saved = { song with
    tracks := saved.tracks
    tempoMap := song.tempoMap.recount (saved.events.filterMap Event.source?)
    position? := some Clock.zero }
  rewound : saved.rewind = saved
  again : encode saved = .ok file saved

/-- Storing a second time stores the same file and changes nothing. -/
theorem encode_saved [Workers] (sound : song.Sound) {file : List UInt8} {saved : Song S}
    (done : encode song = .ok file saved) : encode saved = .ok file saved := by
  obtain ⟨single, count, closed, bodies, ended, encoded, rfl, rfl⟩ := sound.encode_ok done
  have enough := Nat.le_of_eq (length_of_mapM_ok encoded)
  have frames : (closed.measured bodies).rewind.tracks.map Track.frame = closed.tracks.map Track.frame :=
    (frames_rewind _).trans (frames_measured closed enough)
  have length : (closed.measured bodies).rewind.tracks.length = song.tracks.length :=
    Eq.trans (by simpa using congrArg List.length frames) ended.length
  have ends : ∀ track ∈ (closed.measured bodies).rewind.tracks, Ended track.events := by
    intro track member
    obtain ⟨measured, among, rfl⟩ := List.mem_map.mp member
    obtain ⟨closed, body, inside, rfl⟩ := exists_of_mem_zipWith among
    rw [Track.events_rewind]
    exact ended.ends sound closed inside
  have headed : (closed.measured bodies).rewind.header = song.header := ended.header
  have format : (closed.measured bodies).rewind.format = song.format := congrArg Header.format headed
  have again := encode_ended ends (rewind_rewind _) (fun single' => length.trans (single (format ▸ single')))
    (length ▸ count) ((mapM_encode_of_frames frames).trans encoded)
  rwa [rewind_measured, measured_measured, ← rewind_measured, headed] at again

theorem storedAs [Workers] (sound : song.Sound) (timed : song.Timed) {file : List UInt8} {saved : Song S}
    (done : encode song = .ok file saved) : ∃ bodies, song.StoredAs file saved bodies := by
  have again := encode_saved sound done
  obtain ⟨single, count, bodies, encoded, rfl, rfl⟩ := timed.encode_ok sound done
  have stored : (song.close.measured bodies).rewind.tracks.mapM Track.encode = .ok bodies :=
    (mapM_encode_of_frames ((frames_rewind _).trans
      (frames_measured song.close (Nat.le_of_eq (length_of_mapM_ok encoded))))).trans encoded
  have events : (song.close.measured bodies).rewind.events = song.close.events :=
    (events_rewind _).trans (events_measured _ (Nat.le_of_eq (length_of_mapM_ok encoded)))
  refine ⟨bodies, ⟨rfl, mapM_ok_iff.mp stored, ?_, ?_, ?_, ?_, rewind_rewind _, again⟩⟩
  · intro body member
    exact (Bytes.bigEndian_word 4 _).trans (Nat.mod_eq_of_lt (Track.fits_of_encode (mapM_ok_iff.mp encoded) body member))
  · exact (length_of_mapM_ok encoded).symm.trans (List.length_map _)
  · -- What rewinding a measured track makes depends on its number, its events and the body alone.
    have laid : ∀ (track : Track S) (body : List UInt8), (song.closed track |>.measured body).rewind =
        Track.rewind ⟨track.number?, song.withEnd track, body.length, Cursor.nowhere⟩ := by
      intro track body
      rw [← events_closed, ← number?_closed song track]
      exact Track.rewind_mk _ _ _ _ _
    show (List.zipWith Track.measured song.close.tracks bodies).map Track.rewind = _
    rw [tracks_close sound timed, List.zipWith_map_left, List.map_zipWith]
    exact congrArg (fun combine => List.zipWith combine song.tracks bodies) (funext₂ laid)
  · rw [events]
    rfl

/-- Whatever was done in a session, a song whose payloads and tracks are not too long is stored exactly
    when its header has room for its tracks and every delta time has a form. Storing it leaves no more
    and no less than `StoredAs` says, if fewer references were taken than can be counted, and a song of
    the same header and the same delta times and message bytes comes to the same file, or to the same
    fault, in whatever session it was made. -/
theorem session_song_stored [Workers] (mode : Mode) (commands : List (Command S)) {song : Song S}
    (member : song ∈ (Workspace.session mode commands).songs) :
    (song.FitsLengths → ((∃ file saved, encode song = .ok file saved) ↔
      (song.format ≠ .single ∨ song.tracks.length = 1) ∧ song.tracks.length ≤ 65535 ∧
        ∀ event ∈ song.events, event.delta ≤ 0x0FFFFFFF)) ∧
      (Workspace.acquisitions mode commands < 0xFFFFFFFF →
        ∀ file saved, encode song = .ok file saved → ∃ bodies, song.StoredAs file saved bodies) ∧
      (∀ file saved, encode song = .ok file saved → encode saved = .ok file saved) ∧
      ∀ (otherMode : Mode) (otherCommands : List (Command S)), ∀ other ∈ (Workspace.session otherMode otherCommands).songs,
        other.header = song.header →
        (other.tracks.map fun track => track.events.map fun event => (event.delta, event.message.bytes)) =
          (song.tracks.map fun track => track.events.map fun event => (event.delta, event.message.bytes)) →
        outcome encode other = outcome encode song := by
  have sound := session_sound mode commands member
  refine ⟨exists_encode_iff_of_fits sound, fun few file saved => storedAs sound (session_timed few member),
    fun file saved => encode_saved sound, ?_⟩
  intro otherMode otherCommands other among headed same
  have soundToo := session_sound otherMode otherCommands among
  exact sound.outcome_encode_of_contents soundToo headed (contents_of_bytes sound soundToo same)

/-- One note. -/
private def plainCommands : List (Command Float) :=
  [.create, .change 0 (.addTrack .new), .change 0 (.addEvent 0 (.new (.bytes [0x90, 60, 64])) (.tick 96))]

/-- The same note, and a tempo in front of it that was taken out again behind its entry. -/
private def pacedCommands : List (Command Float) :=
  plainCommands ++ [.change 0 (.addEvent 0 (.new (.tempo 400000)) (.tick 48)), .change 0 (.removeEvent 0 0)]

theorem session_song_stored_note :
    ∃ song ∈ (Workspace.session .strict plainCommands).songs, ∃ other ∈ (Workspace.session .lenient pacedCommands).songs,
      song.FitsLengths ∧ song.tempoMap.entries.length = 0 ∧ other.tempoMap.entries.length = 1 ∧
        ∃ file saved bodies, encode song = .ok file saved ∧ song.StoredAs file saved bodies ∧
          outcome encode other = .ok file := by
  obtain ⟨song, songs, header, rows, entries, length, encoded⟩ :
      ∃ song, (Workspace.session .strict plainCommands).songs = [song] ∧
        song.header = ⟨.single, .metrical (Narrow.truncate 15 120)⟩ ∧
        (song.tracks.map fun track => track.events.map fun event => (event.delta, event.message.bytes)) =
          [[(96, [0x90, 60, 64])]] ∧
        song.tempoMap.entries.length = 0 ∧ song.tracks.length = 1 ∧
        (song.tracks.map Track.close).mapM Track.encode = .ok [[96, 0x90, 60, 64, 0, 0xFF, 0x2F, 0]] :=
    ⟨_, rfl, rfl, rfl, rfl, rfl, by decide⟩
  obtain ⟨other, others, headerToo, rowsToo, entry⟩ :
      ∃ other, (Workspace.session .lenient pacedCommands).songs = [other] ∧
        other.header = ⟨.single, .metrical (Narrow.truncate 15 120)⟩ ∧
        (other.tracks.map fun track => track.events.map fun event => (event.delta, event.message.bytes)) =
          [[(96, [0x90, 60, 64])]] ∧
        other.tempoMap.entries.length = 1 := ⟨_, rfl, rfl, rfl, rfl⟩
  have member : song ∈ (Workspace.session .strict plainCommands).songs := songs ▸ List.mem_singleton_self song
  have sound := session_sound .strict plainCommands member
  have encodes : ∀ track ∈ song.tracks, ∃ body, track.close.encode = .ok body :=
    fun track among => exists_mapM_ok_iff.mp ⟨_, encoded⟩ _ (List.mem_map_of_mem among)
  have storable : ∀ event ∈ song.events, event.delta < 0x10000000 ∧ event.message.Storable :=
    List.forall_mem_flatMap.mpr fun track among =>
      (Track.storable_close_iff (sound.inOrder track among)).mp (Track.exists_encode_iff.mp (encodes track among)).1
  have fits : song.FitsLengths :=
    ⟨fun event inside => (storable event inside).2, fun track among => (Track.exists_encode_iff.mp (encodes track among)).2⟩
  obtain ⟨possible, effect, _, alike⟩ := session_song_stored .strict plainCommands member
  obtain ⟨file, saved, done⟩ := (possible fits).mpr
    ⟨.inr length, by omega, fun event inside => Nat.le_of_lt_succ (storable event inside).1⟩
  obtain ⟨bodies, stored⟩ := effect (by decide) file saved done
  have among : other ∈ (Workspace.session .lenient pacedCommands).songs := others ▸ List.mem_singleton_self other
  have same := alike .lenient pacedCommands other among (headerToo.trans header.symm) (rowsToo.trans rows.symm)
  exact ⟨song, member, other, among, fits, entries, entry, file, saved, bodies, done, stored, same.trans (by rw [outcome, done])⟩

end Song

end MidiFile
