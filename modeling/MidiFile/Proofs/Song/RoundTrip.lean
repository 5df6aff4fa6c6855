import MidiFile.Proofs.Song.Close
import Mathlib.Data.List.Zip

/-! # Songs, stored and read

The file of a sound song is read back by a reader of either kind, without a warning and with the
same events, as far as the file tells (`session_file_readable`). A song that was read is stored
again as it is, but for the sizes of its tracks, and the file gives it back exactly
(`load_save_load`).
-/

namespace MidiFile

variable {S : Type}

/-- An event and what it is read back as: at the same place and with the same content. -/
structure Event.Alike (event other : Event S) : Prop where
  delta : other.delta = event.delta
  tick : other.tick = event.tick
  track : other.track? = event.track?
  number : other.number? = event.number?
  content : event.message.SameContent other.message

namespace Track

theorem encode_ok_iff {track : Track S} {body : List UInt8} :
    track.encode = .ok body ↔
      ∃ parts after?, (track.events.mapM Event.encode) none = .ok parts after? ∧ body = parts.flatten ∧
        body.length < 0x100000000 := by
  unfold encode EStateM.run
  cases (track.events.mapM Event.encode) none with
  | error fault left => simp
  | ok parts left =>
    dsimp only
    constructor
    · intro made
      split at made
      · rename_i fits
        cases made
        exact ⟨parts, left, rfl, rfl, fits⟩
      · cases made
    · rintro ⟨_, _, same, rfl, fits⟩
      cases same
      rw [if_pos fits]

theorem fits_of_encode {tracks : List (Track S)} {bodies : List (List UInt8)}
    (encoded : List.Forall₂ (fun track body => track.encode = .ok body) tracks bodies) :
    ∀ body ∈ bodies, body.length < 0x100000000 := by
  intro body member
  obtain ⟨track, _, stored⟩ := exists_of_mem_right encoded member
  obtain ⟨_, _, _, _, fits⟩ := encode_ok_iff.mp stored
  exact fits

theorem rewind_measured (track : Track S) (body : List UInt8) : (track.measured body).rewind = track.rewind.measured body := by
  unfold rewind measured
  cases track.events <;> rfl

theorem rewind_rewind (track : Track S) : track.rewind.rewind = track.rewind := by
  cases track with
  | mk number? events size cursor => cases events <;> rfl

/-- What a stored track is read as, before it becomes a part of a song. -/
def stored (track : Track S) (body : List UInt8) : Track S :=
  ⟨none, track.events.map Event.stored, body.length, Cursor.nowhere⟩

end Track

namespace Song

theorem endsAdded_eq_nil {bodies : List (Body S)} (none : ∀ body ∈ bodies, body.endAdded = false) : endsAdded bodies = [] := by
  rw [endsAdded, List.map_eq_nil_iff, List.filter_eq_nil_iff]
  rintro ⟨body, number⟩ member
  simpa using none body (List.fst_mem_of_mem_zipIdx member)

theorem forall₂_read (mode : Mode) {tracks : List (Track S)} {bodies : List (List UInt8)}
    (encoded : List.Forall₂ (fun track body => track.encode = .ok body) tracks bodies)
    (inOrder : ∀ track ∈ tracks, InOrder 0 0 track.events) (ended : ∀ track ∈ tracks, Ended track.events) :
    List.Forall₂ (fun body read => Body.read mode body = .ok read) bodies
      (List.zipWith (fun (track : Track S) body => ⟨track.events.map Event.stored, body.length, false, 0⟩) tracks bodies) := by
  induction encoded with
  | nil => exact .nil
  | cons first rest ih =>
    obtain ⟨inOrderFirst, inOrderLater⟩ := List.forall_mem_cons.mp inOrder
    obtain ⟨endedFirst, endedLater⟩ := List.forall_mem_cons.mp ended
    obtain ⟨parts, after?, stored, rfl, _⟩ := Track.encode_ok_iff.mp first
    exact .cons (Body.read_encode mode inOrderFirst endedFirst stored) (ih inOrderLater endedLater)

variable [Clock S]

/-- A file of tracks that are in order and end is read back as these tracks. -/
theorem read_fileOf [Workers] (mode : Mode) (identity : Nat) {header : Header} (valid : header.division.Valid)
    {tracks : List (Track S)} {bodies : List (List UInt8)} (single : header.format = .single → tracks.length = 1)
    (count : tracks.length < 0x10000) (encoded : List.Forall₂ (fun track body => track.encode = .ok body) tracks bodies)
    (inOrder : ∀ track ∈ tracks, InOrder 0 0 track.events) (ended : ∀ track ∈ tracks, Ended track.events) :
    (read mode identity (fileOf header bodies)).result =
      .ok (ofTracks identity header [] (List.zipWith Track.stored tracks bodies)) := by
  have fits := Track.fits_of_encode encoded
  rw [encoded.length_eq] at single count
  refine read_ok_iff.mpr ⟨_, ⟨header, bodies, []⟩, _, Rmid.unwrap_header _ _, outline_fileOf mode valid single count fits,
    forall₂_read mode encoded inOrder ended, ?_⟩
  have ends : endsAdded (List.zipWith (fun (track : Track S) body =>
      (⟨track.events.map Event.stored, body.length, false, 0⟩ : Body S)) tracks bodies) = [] := by
    apply endsAdded_eq_nil
    intro body member
    obtain ⟨track, stored, _, rfl⟩ := exists_of_mem_zipWith member
    rfl
  rw [ofBodies, ends, List.map_zipWith]
  rfl

omit [Clock S] in
/-- Tracks are alike when their frames are. -/
theorem forall₂_of_frames {related : Event S → Event S → Prop}
    (blind : ∀ event other : Event S, related event.untimed other.untimed → related event other)
    {tracks others tracks' others' : List (Track S)} (same : tracks'.map Track.frame = tracks.map Track.frame)
    (same' : others'.map Track.frame = others.map Track.frame)
    (all : List.Forall₂ (fun track other => List.Forall₂ (fun event other => related event.untimed other.untimed)
      track.events other.events) tracks others) :
    List.Forall₂ (fun track other => List.Forall₂ related track.events other.events) tracks' others' := by
  have framed : List.Forall₂ (fun frame other : Option Nat × List (Event S) => List.Forall₂ related frame.2 other.2)
      (tracks.map Track.frame) (others.map Track.frame) := by
    rw [List.forall₂_map_left_iff, List.forall₂_map_right_iff]
    apply all.imp
    intro track other alike
    rw [Track.frame, Track.frame, List.forall₂_map_left_iff, List.forall₂_map_right_iff]
    exact alike
  rw [← same, ← same', List.forall₂_map_left_iff, List.forall₂_map_right_iff] at framed
  apply framed.imp
  intro track other alike
  rw [Track.frame, Track.frame, List.forall₂_map_left_iff, List.forall₂_map_right_iff] at alike
  exact alike.imp blind

omit [Clock S] in
/-- The tracks of a sound song are alike to what a file keeps of them. -/
theorem Sound.alike_stored {song : Song S} (sound : song.Sound) {bodies : List (List UInt8)}
    (lengths : bodies.length = song.tracks.length) :
    List.Forall₂ (fun track other => List.Forall₂ (fun event other => Event.Alike event.untimed other.untimed)
        track.events other.events) song.tracks
      ((List.zipWith Track.stored song.tracks bodies).mapIdx fun number track => track.attach (some number)) := by
  refine List.forall₂_of_length_eq_of_get (by simp [lengths]) ?_
  intro number inside inside'
  have here : song.tracks[number]? = some song.tracks[number] := List.getElem?_eq_getElem inside
  have knows := sound.knows number _ here
  have inOrder := sound.inOrder _ (List.getElem_mem inside)
  simp only [List.get_eq_getElem, List.getElem_mapIdx, List.getElem_zipWith, Track.attach, Track.stored]
  rw [List.forall₂_map_right_iff, List.forall₂_map_right_iff, List.forall₂_same]
  intro event among
  exact ⟨rfl, rfl, (knows.events event among).symm, rfl, Message.sameContent_canonical (inOrder.wellFormed event among)⟩

/-- Whatever was done in a session, the file of a song can be read by a reader of either kind and
    without a warning, and gives back the header and every event in its place. -/
theorem session_file_readable [Workers] (mode : Mode) (commands : List (Command S)) {song saved : Song S} {file : List UInt8}
    (member : song ∈ (Workspace.session mode commands).songs) (done : encode song = .ok file saved)
    (reader : Mode) (identity : Nat) :
    ∃ again, (read reader identity file).result = .ok again ∧ again.warnings = [] ∧ again.header = saved.header ∧
      List.Forall₂ (fun track other => List.Forall₂ Event.Alike track.events other.events) saved.tracks again.tracks := by
  have sound := (Workspace.session_keeps (lasting_sound mode) commands).songs song member
  obtain ⟨single, count, closed, bodies, ended, encoded, rfl, rfl⟩ := sound.encode_ok done
  have length := ended.length
  have lengths := length_of_mapM_ok encoded
  refine ⟨_, read_fileOf reader identity sound.division (fun format => length.trans (single format)) (length ▸ count)
    (mapM_ok_iff.mp encoded) ended.sound.inOrder (ended.ends sound), rfl, ended.header.symm, ?_⟩
  apply forall₂_of_frames _ ((frames_rewind _).trans (frames_measured _ (Nat.le_of_eq lengths)))
    (frames_ofTracks identity song.header [] _) (ended.sound.alike_stored lengths.symm)
  intro event other alike
  exact ⟨alike.delta, alike.tick, alike.track, alike.number, alike.content⟩

/-- Two notes, the second with the status of the first, and then a tempo in front of both. -/
private def noteCommands : List (Command Float) :=
  [.create, .change 0 (.addTrack .new), .change 0 (.addEvent 0 (.new (.bytes [0x90, 60, 64])) (.tick 240)),
    .change 0 (.addEvent 0 (.new (.bytes [0x90, 60, 0])) (.tick 480)),
    .change 0 (.addEvent 0 (.new (.tempo 400000)) (.tick 120))]

private def noteBody : List UInt8 :=
  [120, 0xFF, 0x51, 3, 0x06, 0x1A, 0x80, 120, 0x90, 60, 64, 0x81, 0x70, 60, 0, 0, 0xFF, 0x2F, 0]

theorem session_file_readable_notes :
    ∃ song ∈ (Workspace.session .strict noteCommands).songs, ∃ saved again,
      encode song = .ok (fileOf song.header [noteBody]) saved ∧
        (read .strict 1 (fileOf song.header [noteBody])).result = .ok again ∧
        List.Forall₂ (fun track other => List.Forall₂ Event.Alike track.events other.events) saved.tracks again.tracks := by
  obtain ⟨song, songs, length, encoded⟩ : ∃ song, (Workspace.session .strict noteCommands).songs = [song] ∧
      song.tracks.length = 1 ∧ (song.tracks.map Track.close).mapM Track.encode = .ok [noteBody] := ⟨_, rfl, rfl, by decide⟩
  have member : song ∈ (Workspace.session .strict noteCommands).songs := songs ▸ List.mem_singleton_self song
  obtain ⟨saved, done⟩ :=
    (session_sound .strict noteCommands member).exists_encode (fun _ => length) (length ▸ by decide) encoded
  obtain ⟨again, readBack, _, _, alike⟩ := session_file_readable .strict noteCommands member done .strict 1
  exact ⟨song, member, saved, again, done, readBack, alike⟩

theorem register_identity (division : Division) (tick : Nat) (message : Message) (map : TempoMap S) (other : Nat) :
    TempoMap.register division tick message { map with identity := other } =
      { TempoMap.register division tick message map with identity := other } := by
  unfold TempoMap.register TempoMap.set
  split
  · dsimp only
    split <;> rfl
  · rfl

theorem registerAll_identity (division : Division) (events : List (Event S)) (map : TempoMap S) (other : Nat) :
    TempoMap.registerAll division events { map with identity := other } =
      { TempoMap.registerAll division events map with identity := other } := by
  induction events generalizing map with
  | nil => rfl
  | cons event rest ih =>
    have first := register_identity division event.tick event.message map other
    exact (congrArg (TempoMap.registerAll division rest) first).trans (ih _)

/-- A song that is made under another identity and with other warnings. -/
theorem ofTracks_copy (identity other : Nat) (header : Header) (warnings : List Warning) (tracks : List (Track S)) :
    ofTracks other header [] tracks =
      { (ofTracks identity header warnings tracks).copy other with warnings := [] } := by
  have started := registerAll_identity header.division
    ((tracks.mapIdx fun number track => track.attach (some number)).flatMap (·.events)) (TempoMap.empty identity) other
  have empty : (TempoMap.empty other : TempoMap S) = { TempoMap.empty identity with identity := other } := rfl
  rw [ofTracks, empty, started]
  rfl

omit [Clock S] in
theorem recount_measured (song : Song S) {bodies : List (List UInt8)} (enough : song.tracks.length ≤ bodies.length) :
    (song.measured bodies).recount = song.recount.measured bodies := by
  rw [recount, events_measured song enough]
  rfl

omit [Clock S] in
theorem map_measured {change : Track S → Track S}
    (blind : ∀ track body, change (Track.measured track body) = (change track).measured body) (tracks : List (Track S))
    (bodies : List (List UInt8)) :
    (List.zipWith Track.measured tracks bodies).map change = List.zipWith Track.measured (tracks.map change) bodies := by
  rw [List.map_zipWith, List.zipWith_map_left]
  simp only [blind]

theorem refreshFrom_measured (start : Nat) (song : Song S) {bodies : List (List UInt8)}
    (enough : song.tracks.length ≤ bodies.length) :
    (song.measured bodies).refreshFrom start = (song.refreshFrom start).measured bodies := by
  rw [refreshFrom, refreshFrom, ← recount_measured _ (by simpa using enough), measured, measured]
  dsimp only
  rw [map_measured fun _ _ => rfl]
  rfl

theorem rewind_measured (song : Song S) (bodies : List (List UInt8)) :
    (song.measured bodies).rewind = song.rewind.measured bodies := by
  rw [rewind, rewind, measured, measured]
  dsimp only
  rw [map_measured Track.rewind_measured]

/-- A song that is made of tracks of other sizes. -/
theorem ofTracks_measured (identity : Nat) (header : Header) (warnings : List Warning) {tracks : List (Track S)}
    {bodies : List (List UInt8)} (enough : tracks.length ≤ bodies.length) :
    ofTracks identity header warnings (List.zipWith Track.measured tracks bodies) =
      (ofTracks identity header warnings tracks).measured bodies := by
  have attached : (List.zipWith Track.measured tracks bodies).mapIdx (fun number track => track.attach (some number)) =
      List.zipWith Track.measured (tracks.mapIdx fun number track => track.attach (some number)) bodies := by
    apply List.ext_getElem?
    intro number
    simp only [List.getElem?_mapIdx, List.getElem?_zipWith]
    cases tracks[number]? <;> cases bodies[number]? <;> rfl
  have kept : ∀ (track : Track S) (body : List UInt8), (track.measured body).events = track.events := fun _ _ => rfl
  have events : (List.zipWith Track.measured (tracks.mapIdx fun number track => track.attach (some number)) bodies).flatMap
      (·.events) = (tracks.mapIdx fun number track => track.attach (some number)).flatMap (·.events) := by
    simp only [List.flatMap_def, map_zipWith_left kept (Nat.le_trans (Nat.le_of_eq List.length_mapIdx) enough)]
  rw [ofTracks, ofTracks, attached, events, ← rewind_measured, ← refreshFrom_measured]
  · rfl
  · exact Nat.le_trans (Nat.le_of_eq List.length_mapIdx) enough

/-! ## Songs that were read -/

omit [Clock S] in
theorem mapM_encode_attach (tracks : List (Track S)) :
    (tracks.mapIdx fun number track => track.attach (some number)).mapM Track.encode = tracks.mapM Track.encode := by
  have own (track : Track S) (number? : Option Nat) : (track.attach number?).content = track.content := by
    simp only [Track.content, Track.attach, List.map_map]
    rfl
  apply mapM_encode_of_contents
  apply List.ext_getElem?
  intro number
  rw [List.getElem?_map, List.getElem?_mapIdx, List.getElem?_map, Option.map_map]
  exact congrFun (congrArg Option.map (funext fun track => own track _)) _

/-- The cursors of a song are at the start once and for all. -/
theorem rewind_rewind (song : Song S) : song.rewind.rewind = song.rewind := by
  simp only [rewind, List.map_map, Function.comp_def, Track.rewind_rewind]

theorem rewind_ofTracks (identity : Nat) (header : Header) (warnings : List Warning) (tracks : List (Track S)) :
    (ofTracks identity header warnings tracks).rewind = ofTracks identity header warnings tracks :=
  rewind_rewind _

/-- A song whose tracks end and whose cursors are at the start is stored as it is, but for the
    sizes of its tracks. -/
theorem encode_ended [Workers] {song : Song S} (ended : ∀ track ∈ song.tracks, Ended track.events)
    (rewound : song.rewind = song) (single : song.format = .single → song.tracks.length = 1)
    (count : song.tracks.length < 0x10000) {bodies : List (List UInt8)} (encoded : song.tracks.mapM Track.encode = .ok bodies) :
    encode song = .ok (fileOf song.header bodies) (song.measured bodies) := by
  rw [encode_of_ended single count (endTracks_of_ended ended), encodeBodies_ok_iff.mpr encoded]
  dsimp only
  rw [rewind_measured, rewound]

theorem ended_ofTracks (identity : Nat) (header : Header) (warnings : List Warning) {tracks : List (Track S)}
    (ended : ∀ track ∈ tracks, Ended track.events) :
    ∀ track ∈ (ofTracks identity header warnings tracks).tracks, Ended track.events := by
  intro track member
  have listed := List.mem_map_of_mem (f := Track.frame) member
  rw [frames_ofTracks, List.mem_map] at listed
  obtain ⟨attached, among, same⟩ := listed
  obtain ⟨number, inside, rfl⟩ := List.mem_mapIdx.mp among
  refine (ended _ (List.getElem_mem inside)).of_messages ?_
  have messages (track : Track S) : track.events.map (·.message) = track.frame.2.map (·.message) := by
    rw [Track.frame, List.map_map]
    rfl
  rw [messages, ← same, ← messages, Track.attach, List.map_map]
  rfl

/-- A song that is made of tracks with an end is stored as it is. -/
theorem encode_ofTracks [Workers] (identity : Nat) {header : Header} (warnings : List Warning) {tracks : List (Track S)}
    {bodies : List (List UInt8)} (ended : ∀ track ∈ tracks, Ended track.events)
    (single : header.format = .single → tracks.length = 1) (count : tracks.length < 0x10000)
    (encoded : tracks.mapM Track.encode = .ok bodies) :
    encode (ofTracks identity header warnings tracks) =
      .ok (fileOf header bodies) ((ofTracks identity header warnings tracks).measured bodies) := by
  have frames := frames_ofTracks identity header warnings tracks
  have length : (ofTracks identity header warnings tracks).tracks.length = tracks.length := by
    simpa using congrArg List.length frames
  exact encode_ended (ended_ofTracks _ _ _ ended) (rewind_ofTracks _ _ _ _)
    (fun format => length.trans (single format)) (length ▸ count)
    ((mapM_encode_of_frames frames).trans ((mapM_encode_attach tracks).trans encoded))

/-- A header and tracks that make a file, if each track can be stored. -/
structure Storable (header : Header) (tracks : List (Track S)) : Prop where
  valid : header.division.Valid
  single : header.format = .single → tracks.length = 1
  count : tracks.length < 0x10000
  inOrder : ∀ track ∈ tracks, InOrder 0 0 track.events
  ended : ∀ track ∈ tracks, Ended track.events

/-- The tracks of a file that was read make a file again, and unless the file was huge each of them
    can be stored as what it was read as. -/
theorem storable_read [Workers] {mode : Mode} {identity : Nat} {bytes : List UInt8} {song : Song S}
    (loaded : (read mode identity bytes).result = .ok song) :
    ∃ header warnings tracks, song = ofTracks identity header warnings tracks ∧ Storable header tracks ∧
      (bytes.length < 0x80000000 → ∀ track ∈ tracks,
        ∃ body, track.encode = .ok body ∧ track.stored body = track.measured body) := by
  obtain ⟨file, outline, found, unwrapped, outlined, bodiesRead, rfl⟩ := read_ok_iff.mp loaded
  obtain ⟨valid, single, count, fits⟩ := storable_outline outlined
  have sized : (found.map Body.track).length = outline.bodies.length := by rw [List.length_map, bodiesRead.length_eq]
  have formed : ∀ track ∈ found.map Body.track, ∃ body read, body ∈ outline.bodies ∧ track = Body.track read ∧
      Body.read mode body = .ok read := by
    intro track member
    obtain ⟨read, among, rfl⟩ := List.mem_map.mp member
    obtain ⟨body, bodyAmong, bodyRead⟩ := exists_of_mem_right bodiesRead among
    exact ⟨body, read, bodyAmong, rfl, bodyRead⟩
  refine ⟨outline.header, _, found.map Body.track, rfl, ⟨valid, fun format => sized.trans (single format), sized ▸ count,
    ?_, ?_⟩, ?_⟩
  · intro track member
    obtain ⟨body, read, _, rfl, bodyRead⟩ := formed track member
    exact (Body.of_read bodyRead).1
  · intro track member
    obtain ⟨body, read, _, rfl, bodyRead⟩ := formed track member
    exact (Body.of_read bodyRead).2.1
  · intro short track member
    obtain ⟨body, read, among, rfl, bodyRead⟩ := formed track member
    obtain ⟨_, _, stored, parts, after?, encoded, most⟩ := Body.of_read bodyRead
    have inFile := fits body among
    have inBytes := Rmid.length_unwrap unwrapped
    refine ⟨parts.flatten, Track.encode_ok_iff.mpr ⟨parts, after?, encoded, rfl, by omega⟩, ?_⟩
    have events : read.track.events.map Event.stored = read.track.events := map_eq_self stored
    rw [Track.stored, events]
    rfl

omit [Clock S] in
theorem measured_measured (song : Song S) (bodies : List (List UInt8)) :
    (song.measured bodies).measured bodies = song.measured bodies := by
  have twice : List.zipWith Track.measured (List.zipWith Track.measured song.tracks bodies) bodies =
      List.zipWith Track.measured song.tracks bodies := by
    apply List.ext_getElem?
    intro number
    simp only [List.getElem?_zipWith]
    cases song.tracks[number]? <;> cases bodies[number]? <;> rfl
  rw [measured, measured]
  dsimp only
  rw [twice]

/-- A song made of tracks that were stored before is stored as it is. -/
theorem encode_again [Workers] (identity : Nat) {header : Header} {tracks : List (Track S)} {bodies : List (List UInt8)}
    (ended : ∀ track ∈ tracks, Ended track.events) (single : header.format = .single → tracks.length = 1)
    (count : tracks.length < 0x10000) (encoded : tracks.mapM Track.encode = .ok bodies) :
    let again := ofTracks identity header [] (List.zipWith Track.measured tracks bodies)
    encode again = .ok (fileOf header bodies) again := by
  have enough := Nat.le_of_eq (length_of_mapM_ok encoded)
  have frames := frames_measured ⟨header, tracks, TempoMap.empty identity, [], none⟩ enough
  have length : (List.zipWith Track.measured tracks bodies).length = tracks.length := by
    simpa [measured] using congrArg List.length frames
  have endedAgain : ∀ track ∈ List.zipWith Track.measured tracks bodies, Ended track.events := by
    intro track member
    obtain ⟨old, body, among, rfl⟩ := exists_of_mem_zipWith member
    exact ended old among
  have stored := encode_ofTracks identity [] endedAgain (fun format => length.trans (single format)) (length ▸ count)
    ((mapM_encode_of_frames frames).trans encoded)
  rw [ofTracks_measured _ _ _ enough, measured_measured] at stored
  rw [ofTracks_measured _ _ _ enough]
  exact stored

/-- A file that was read is stored anew from a song that keeps everything but the sizes of its
    tracks, and what is stored is read, by a reader of either kind, as that same song without its
    warnings, which is stored as the same file and stays as it is. -/
theorem load_save_load [Workers] (mode : Mode) (identity : Nat) {bytes : List UInt8} (short : bytes.length < 0x80000000)
    {song : Song S} (loaded : (read mode identity bytes).result = .ok song) :
    ∃ bodies : List (List UInt8), bodies.length = song.tracks.length ∧
      encode song = .ok (fileOf song.header bodies) (song.measured bodies) ∧
      ∀ (reader : Mode) (other : Nat), ∃ again, (read reader other (fileOf song.header bodies)).result = .ok again ∧
        again = { (song.measured bodies).copy other with warnings := [] } ∧
        encode again = .ok (fileOf song.header bodies) again := by
  obtain ⟨header, warnings, tracks, rfl, ⟨valid, single, count, inOrder, ended⟩, bodiesOf⟩ := storable_read loaded
  obtain ⟨bodies, stored⟩ := exists_forall₂ (bodiesOf short)
  have encoded := stored.imp fun _ _ both => both.1
  have enough := Nat.le_of_eq encoded.length_eq
  refine ⟨bodies, ?_, encode_ofTracks identity _ ended single count (mapM_ok_iff.mpr encoded), ?_⟩
  · simpa [ofTracks, rewind, refreshFrom, recount] using encoded.length_eq.symm
  · intro reader other
    have readBack := read_fileOf reader other valid single count encoded inOrder ended
    rw [List.zipWith_congr _ _ _ _ (stored.imp fun _ _ both => both.2)] at readBack
    refine ⟨_, readBack, ?_, encode_again other ended single count (mapM_ok_iff.mpr encoded)⟩
    rw [← ofTracks_measured _ _ _ enough]
    exact ofTracks_copy identity other _ _ _

/-- A note, its delta time longer than it needs to be, and a byte behind the end of the track. -/
private def looseBody : List UInt8 := [0x80, 0, 0x90, 60, 64, 0, 0xFF, 0x2F, 0, 1]

private def looseHeader : Header := ⟨.single, .metrical (Narrow.truncate 15 96)⟩

private theorem read_looseBody : Body.read .lenient looseBody =
    .ok (⟨[⟨.voice 0x90 [60, 64], 0, 0, none, some 0, none⟩, ⟨.endOfTrack, 0, 0, none, some 1, none⟩], 10, false, 1⟩ :
      Body Float) := by
  have note : EventStream.next? .lenient (.ofBytes looseBody) =
      some (.ok (⟨.voice 0x90 [60, 64], 0, 0, none, some 0, none⟩ : Event Float),
        ⟨⟨[0, 0xFF, 0x2F, 0, 1], some 0x90⟩, 0, 1, false⟩) := by decide
  have ending : EventStream.next? .lenient ⟨⟨[0, 0xFF, 0x2F, 0, 1], some 0x90⟩, 0, 1, false⟩ =
      some (.ok (⟨.endOfTrack, 0, 0, none, some 1, none⟩ : Event Float), ⟨⟨[1], some 0x90⟩, 0, 2, false⟩) := by decide
  rw [Body.read, Body.scan, Body.scanFrom_next note, if_neg (by decide), Body.scanFrom_next ending]
  rfl

theorem load_save_load_loose :
    ∃ song : Song Float, (read .lenient 0 (fileOf looseHeader [looseBody])).result = .ok song ∧
      song.tracks.map (·.bodySize) = [10] ∧
      ∃ bodies, encode song = .ok (fileOf looseHeader bodies) (song.measured bodies) ∧
        (read .strict 1 (fileOf looseHeader bodies)).result = .ok { (song.measured bodies).copy 1 with warnings := [] } := by
  have valid : looseHeader.division.Valid := show (Narrow.truncate 15 96).toNat ≠ 0 by decide
  have outlined := outline_fileOf (S := Float) .lenient valid (fun _ => rfl) (by decide)
    (by decide : ∀ body ∈ [looseBody], body.length < 0x100000000)
  have loaded : (read .lenient 0 (fileOf looseHeader [looseBody])).result = .ok (ofBodies 0 _ _) :=
    read_ok_iff.mpr ⟨_, _, _, Rmid.unwrap_header _ _, outlined, .cons read_looseBody .nil, rfl⟩
  obtain ⟨bodies, _, stored, again⟩ := load_save_load .lenient 0 (by decide) loaded
  obtain ⟨_, readBack, rfl, _⟩ := again .strict 1
  exact ⟨_, loaded, rfl, bodies, stored, readBack⟩

end Song

end MidiFile
