import MidiFile.Proofs.Song.File
import MidiFile.Proofs.Song.Times
import MidiFile.Proofs.Track.Edit

/-! # Songs that can be stored

A song is sound when its header can be written and the events of each track are in order and know
their track (`Song.Sound`). Every step keeps songs sound, with whatever tracks and messages it
brings in, since these come from sound songs or from drafts. Times in seconds, sizes and cursors
play no part: `Track.frame` is what soundness depends on.
-/

namespace MidiFile

variable {S : Type}

/-- The event without its time in seconds. -/
def Event.untimed (event : Event S) : Event S := { event with cached? := none }

theorem inOrder_untimed {events : List (Event S)} (inOrder : InOrder 0 0 events) : InOrder 0 0 (events.map Event.untimed) := by
  apply inOrder.of_core
  rw [List.map_map]
  rfl

/-- A track without times in seconds, its size and its cursor. -/
def Track.frame (track : Track S) : Option Nat × List (Event S) := (track.number?, track.events.map Event.untimed)

namespace Track

@[simp] theorem frame_rewind (track : Track S) : track.rewind.frame = track.frame := by
  have number : track.rewind.number? = track.number? := by
    rw [rewind]
    split <;> rfl
  rw [frame, frame, events_rewind, number]

theorem inOrder_of_frame {track other : Track S} (inOrder : InOrder 0 0 track.events) (same : other.frame = track.frame) :
    InOrder 0 0 other.events := by
  apply inOrder.of_core
  have part (track : Track S) : track.events.map Event.core = track.frame.2.map Event.core := by
    simp only [frame, List.map_map]
    rfl
  rw [part, same, ← part]

theorem Knows.of_frame {number : Nat} {track other : Track S} (knows : track.Knows number) (same : other.frame = track.frame) :
    other.Knows number := by
  obtain ⟨itself, events⟩ := Prod.mk.inj same
  refine ⟨itself.trans knows.itself, ?_⟩
  intro event member
  have listed : event.untimed ∈ track.events.map Event.untimed := events ▸ List.mem_map_of_mem member
  obtain ⟨old, oldMember, alike⟩ := List.mem_map.mp listed
  have track? : old.untimed.track? = event.untimed.track? := congrArg Event.track? alike
  exact track?.symm.trans (knows.events old oldMember)

end Track

namespace Song

/-- A song that can be stored and read back. -/
structure Sound (song : Song S) : Prop where
  division : song.division.Valid
  single : song.format = .single → song.tracks.length ≤ 1
  inOrder : ∀ track ∈ song.tracks, InOrder 0 0 track.events
  knows : ∀ (number : Nat) (track : Track S), song.tracks[number]? = some track → track.Knows number

variable {song other : Song S}

theorem Sound.tick_le (sound : song.Sound) {event : Event S} (member : event ∈ song.events) : event.tick ≤ greatestTick := by
  obtain ⟨track, trackMember, inside⟩ := List.mem_flatMap.mp member
  exact (sound.inOrder track trackMember).within event inside

/-- What is no part of the frames is no part of soundness. -/
theorem Sound.of_frames (sound : song.Sound) (division : other.division.Valid)
    (single : other.format = .single → other.tracks.length ≤ 1)
    (frames : other.tracks.map Track.frame = song.tracks.map Track.frame) : other.Sound := by
  refine ⟨division, single, ?_, ?_⟩
  · intro track member
    have listed : track.frame ∈ song.tracks.map Track.frame := frames ▸ List.mem_map_of_mem member
    obtain ⟨old, oldMember, same⟩ := List.mem_map.mp listed
    exact Track.inOrder_of_frame (sound.inOrder old oldMember) same.symm
  · intro number track here
    have found : (song.tracks.map Track.frame)[number]? = some track.frame := by
      rw [← frames, List.getElem?_map, here]
      rfl
    rw [List.getElem?_map, Option.map_eq_some_iff] at found
    obtain ⟨old, oldHere, same⟩ := found
    exact (sound.knows number old oldHere).of_frame same.symm

/-- Only the header and the frames matter. -/
theorem Sound.of_header (sound : song.Sound) (header : other.header = song.header)
    (frames : other.tracks.map Track.frame = song.tracks.map Track.frame) : other.Sound := by
  have length : other.tracks.length = song.tracks.length := by simpa using congrArg List.length frames
  refine sound.of_frames ?_ ?_ frames
  · rw [Song.division, header]
    exact sound.division
  · intro single
    rw [length]
    exact sound.single (by rw [Song.format, ← header]; exact single)

/-- One track may change. -/
theorem Sound.set (sound : song.Sound) {number : Nat} {new : Track S} (inOrder : InOrder 0 0 new.events)
    (knows : new.Knows number) : Sound { song with tracks := song.tracks.set number new } := by
  refine ⟨sound.division, ?_, ?_, ?_⟩
  · intro single
    rw [List.length_set]
    exact sound.single single
  · intro track member
    rcases List.mem_or_eq_of_mem_set member with old | rfl
    · exact sound.inOrder track old
    · exact inOrder
  · intro place track here
    by_cases same : number = place
    · subst same
      rw [List.getElem?_set_self'] at here
      obtain ⟨_, _, rfl⟩ := Option.map_eq_some_iff.mp here
      exact knows
    · rw [List.getElem?_set_ne same] at here
      exact sound.knows place track here

section
variable [Clock S] {after : Song S}

@[simp] theorem untimed_refreshEvent (song : Song S) (start : Nat) (event : Event S) :
    (song.refreshEvent start event).untimed = event.untimed := by
  rw [refreshEvent]
  split <;> rfl

theorem Sound.refreshFrom (sound : song.Sound) (start : Nat) : (song.refreshFrom start).Sound := by
  refine sound.of_header rfl ?_
  simp only [Song.refreshFrom, recount, List.map_map]
  apply List.map_congr_left
  intro track _
  simp [Track.frame, Function.comp_def]

theorem frames_rewind (song : Song S) : song.rewind.tracks.map Track.frame = song.tracks.map Track.frame := by
  simp [Song.rewind, Function.comp_def]

theorem Sound.rewind (sound : song.Sound) : song.rewind.Sound := sound.of_header rfl (frames_rewind song)

theorem Sound.refresh (sound : song.Sound) : song.refresh.Sound := by
  have resolved : Sound { song with tempoMap := song.tempoMap.resolve song.division } := sound.of_header rfl rfl
  exact resolved.refreshFrom 0

theorem Sound.withDivision (sound : song.Sound) {division : Division} (valid : division.Valid) :
    (song.withDivision division).Sound := by
  have divided : Sound { song with header := { song.header with division := division } } :=
    sound.of_frames valid sound.single rfl
  exact divided.refresh

theorem Sound.setFormat {format : Format} (sound : song.Sound) (done : setFormat format song = .ok () after) :
    after.Sound := by
  obtain ⟨single, rfl⟩ := setFormat_ok done
  exact sound.of_frames sound.division single rfl

theorem Sound.addTrack {track : Track S} {number : Nat} (sound : song.Sound) (inOrder : InOrder 0 0 track.events)
    (done : addTrack track song = .ok number after) : after.Sound := by
  obtain ⟨placed, retimed, rfl, rfl⟩ := addTrack_ok done
  have knows := (Track.knows_attach song.tracks.length track).retime retimed
  have placedInOrder := Track.inOrder_retime (Track.inOrder_attach inOrder _) retimed
  have extended : ∀ tempoMap, Sound { song with
      header := { song.header with format := song.format.forTracks (song.tracks ++ [placed.rewind]).length }
      tracks := song.tracks ++ [placed.rewind]
      tempoMap := tempoMap } := by
    refine fun tempoMap => ⟨sound.division, ?_, ?_, ?_⟩
    · intro single
      change song.format.forTracks (song.tracks ++ [placed.rewind]).length = .single at single
      show (song.tracks ++ [placed.rewind]).length ≤ 1
      by_cases many : (song.format = .single && 1 < (song.tracks ++ [placed.rewind]).length) = true
      · rw [Format.forTracks, if_pos many] at single
        cases single
      · rw [Format.forTracks, if_neg many] at single
        simp only [single, decide_true, Bool.true_and, decide_eq_true_eq] at many
        omega
    · intro part member
      rcases List.mem_append.mp member with old | added
      · exact sound.inOrder part old
      · rw [List.mem_singleton.mp added, Track.events_rewind]
        exact placedInOrder
    · intro place part here
      by_cases inside : place < song.tracks.length
      · rw [List.getElem?_append_left inside] at here
        exact sound.knows place part here
      · by_cases last : place = song.tracks.length
        · subst last
          rw [List.getElem?_concat_length] at here
          cases here
          exact knows.rewind
        · rw [List.getElem?_eq_none (by rw [List.length_append, List.length_singleton]; omega)] at here
          cases here
  exact (extended _).refreshFrom _

theorem Sound.removeTrack {number : Nat} {removed : Track S} (sound : song.Sound)
    (done : removeTrack number song = .ok removed after) : after.Sound ∧ InOrder 0 0 removed.events := by
  obtain ⟨track, here, rfl, rfl⟩ := removeTrack_ok done
  refine ⟨⟨sound.division, ?_, ?_, ?_⟩,
    inOrder_untimed (Track.inOrder_attach (sound.inOrder track (List.mem_of_getElem? here)) none)⟩
  · intro single
    have most := sound.single single
    have less := List.length_eraseIdx_le song.tracks number
    simp only [recount, List.length_mapIdx]
    omega
  · intro part member
    obtain ⟨place, inside, rfl⟩ := List.mem_mapIdx.mp member
    exact Track.inOrder_attach (sound.inOrder _ (List.mem_of_mem_eraseIdx (List.getElem_mem inside))) _
  · intro place part found
    simp only [recount, List.getElem?_mapIdx, Option.map_eq_some_iff] at found
    obtain ⟨old, _, rfl⟩ := found
    exact Track.knows_attach place old

theorem Sound.addEvent {number tick place : Nat} {message : Message} (sound : song.Sound) (wellFormed : message.WellFormed)
    (done : addEvent number message tick song = .ok place after) : after.Sound := by
  obtain ⟨old, new, here, within, inserted, rfl⟩ := addEvent_ok done
  have inOrder := Track.inOrder_insert (sound.inOrder old (List.mem_of_getElem? here)) within wellFormed inserted
  have knows : new.Knows number := by
    obtain ⟨_, _, rfl⟩ := Track.insert_ok inserted
    exact (sound.knows number old here).place message tick
  have changed : Sound { song with tracks := song.tracks.set number new.rewind } :=
    sound.set (by rwa [Track.events_rewind]) knows.rewind
  have mapped : Sound { song with
      tracks := song.tracks.set number new.rewind
      tempoMap := song.tempoMap.register song.division tick message } := changed.of_header rfl rfl
  exact mapped.refreshFrom tick

theorem Sound.removeEvent {number place : Nat} {removed : Event S} (sound : song.Sound)
    (done : removeEvent number place song = .ok removed after) : after.Sound := by
  obtain ⟨old, new, here, taken, rfl⟩ := removeEvent_ok done
  have inOrder := Track.inOrder_remove (sound.inOrder old (List.mem_of_getElem? here)) taken
  have knows := (sound.knows number old here).remove taken
  have changed : Sound { song with tracks := song.tracks.set number new.rewind } :=
    sound.set (by rwa [Track.events_rewind]) knows.rewind
  exact changed.of_header rfl rfl

omit [Clock S] in
theorem frames_measured (song : Song S) {bodies : List (List UInt8)} (enough : song.tracks.length ≤ bodies.length) :
    (song.measured bodies).tracks.map Track.frame = song.tracks.map Track.frame := by
  have own : ∀ (track : Track S) (body : List UInt8), (track.measured body).frame = track.frame := fun _ _ => rfl
  exact map_zipWith_left own enough

theorem Sound.stored (sound : song.Sound) {bodies : List (List UInt8)} (enough : song.tracks.length ≤ bodies.length) :
    Sound (Song.rewind (song.measured bodies)) := by
  have measured : Sound (song.measured bodies) := sound.of_header rfl (frames_measured song enough)
  exact measured.rewind

omit [Clock S] in
theorem Sound.next? {event : Event S} (sound : song.Sound) (done : song.next? = some (event, after)) : after.Sound := by
  obtain ⟨number, track, advanced, _, here, step, rfl⟩ := next?_some done
  obtain ⟨_, _, _, rfl⟩ := Track.advance?_some step
  have knows := sound.knows number track here
  exact sound.set (sound.inOrder track (List.mem_of_getElem? here)) ⟨knows.itself, knows.events⟩

theorem Sound.holdLastTempo {entry : Entry S} (sound : song.Sound) (done : song.holdLastTempo = some (entry, after)) :
    after.Sound := by
  obtain ⟨_, _, rfl⟩ := holdLastTempo_ok done
  exact sound.of_header rfl rfl

theorem Sound.releaseTempo {handle : Handle} {entry : Entry S} (sound : song.Sound)
    (done : song.releaseTempo handle = some (entry, after)) : after.Sound := by
  obtain ⟨tempoMap, _, rfl⟩ := releaseTempo_ok done
  have released : Sound { song with tempoMap := tempoMap } := sound.of_header rfl rfl
  split
  · exact released
  · exact released.refreshFrom 0

/-! ## Sessions -/

/-- The tracks of a song that is made of tracks, less what soundness does not depend on. -/
theorem frames_ofTracks (identity : Nat) (header : Header) (warnings : List Warning) (tracks : List (Track S)) :
    (ofTracks identity header warnings tracks).tracks.map Track.frame =
      (tracks.mapIdx fun number track => track.attach (some number)).map Track.frame := by
  simp only [ofTracks, Song.rewind, Song.refreshFrom, recount, List.map_map]
  apply List.map_congr_left
  intro track _
  simp only [Function.comp_apply, Track.frame_rewind]
  simp [Track.frame, Function.comp_def]

theorem sound_ofTracks (identity : Nat) {header : Header} (warnings : List Warning) {tracks : List (Track S)}
    (valid : header.division.Valid) (single : header.format = .single → tracks.length ≤ 1)
    (inOrder : ∀ track ∈ tracks, InOrder 0 0 track.events) : (ofTracks identity header warnings tracks).Sound := by
  have attached : Sound (S := S) ⟨header, tracks.mapIdx fun number track => track.attach (some number),
      TempoMap.empty identity, warnings, none⟩ := by
    refine ⟨valid, ?_, ?_, ?_⟩
    · intro format
      rw [List.length_mapIdx]
      exact single format
    · intro track member
      obtain ⟨place, inside, rfl⟩ := List.mem_mapIdx.mp member
      exact Track.inOrder_attach (inOrder _ (List.getElem_mem inside)) _
    · intro number track here
      rw [List.getElem?_mapIdx, Option.map_eq_some_iff] at here
      obtain ⟨old, _, rfl⟩ := here
      exact Track.knows_attach number old
  exact attached.of_header rfl (frames_ofTracks identity header warnings tracks)

section
variable [Workers]

theorem sound_read {mode : Mode} {identity : Nat} {bytes : List UInt8} (done : (read mode identity bytes).result = .ok song) :
    song.Sound := by
  obtain ⟨file, outline, bodies, _, outlined, bodiesRead, rfl⟩ := read_ok_iff.mp done
  obtain ⟨valid, single, _, _⟩ := storable_outline outlined
  refine sound_ofTracks identity _ valid ?_ ?_
  · intro format
    rw [List.length_map, ← bodiesRead.length_eq]
    exact Nat.le_of_eq (single format)
  · intro track member
    obtain ⟨body, bodyMember, rfl⟩ := List.mem_map.mp member
    obtain ⟨bytes, _, read⟩ := exists_of_mem_right bodiesRead bodyMember
    exact (Body.of_read read).1

theorem lasting_sound (mode : Mode) :
    Lasting (S := S) mode (fun _ => Sound) (fun track => InOrder 0 0 track.events) Message.WellFormed where
  empty _ identity := ⟨(by decide : (Narrow.truncate 15 120).toNat ≠ 0), by simp [empty], by simp [empty], by simp [empty]⟩
  read _ identity bytes song result := sound_read result
  copy _ identity song sound := sound.of_header rfl rfl
  later _ _ sound := sound
  steady _ song after sound step := by
    cases step with
    | formatted done => exact sound.setFormat done
    | metrical done =>
      obtain ⟨_, nonzero, rfl⟩ := setTicksPerQuarter_ok done
      exact sound.withDivision nonzero
    | timecode done =>
      obtain ⟨nonzero, rfl⟩ := setTimecode_ok done
      exact sound.withDivision nonzero
    | trackAdded inOrder done => exact sound.addTrack inOrder done
    | trackRemoved done => exact (sound.removeTrack done).1
    | eventAdded wellFormed done => exact sound.addEvent wellFormed done
    | eventRemoved done => exact sound.removeEvent done
    | refreshed => exact sound.refresh
    | stored enough => exact sound.stored enough
    | rewound => exact sound.rewind
    | played done => exact sound.next? done
    | stood position? => exact sound.of_header rfl rfl
  held _ _ _ _ sound done := sound.holdLastTempo done
  released _ _ _ _ _ sound done := sound.releaseTempo done
  blank := inOrder_nil 0 0
  tracks _ song sound track member := sound.inOrder track member
  removed _ song number part after sound done := (sound.removeTrack done).2
  drafts draft made done := Message.wellFormed_draft done
  messages _ song sound event member := by
    obtain ⟨track, trackMember, inside⟩ := List.mem_flatMap.mp member
    exact (sound.inOrder track trackMember).wellFormed event inside

/-- Every song of every session is sound. -/
theorem session_sound (mode : Mode) (commands : List (Command S)) (member : song ∈ (Workspace.session mode commands).songs) :
    song.Sound :=
  (Workspace.session_keeps (lasting_sound mode) commands).songs song member

end

end

end Song

end MidiFile
