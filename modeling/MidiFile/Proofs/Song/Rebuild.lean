import MidiFile.Proofs.Song.RoundTrip

/-! # Songs built by edits

A song that was read can be built anew, event by event (`Song.rebuild`). Reading takes over the
tempos of all tracks at once and works out every time once; the edits place one event after
another, and each of them works times out from its own tick on. Both come to the same because of
what a song of given rows of events has to be (`Song.MadeOf`): its header, its events without their
times and its tempo map without the counts of dependents are given by the rows, and times and
counts follow from these in a timed song (`Timed.eq_of_untimed`), so that there is one such song only.
Each edit of the building keeps this up for one event more (`MadeOf.addEventAfter`).
-/

namespace MidiFile

variable {S : Type}

namespace Track

/-- The track as one that was neither read nor stored. -/
def unsized (track : Track S) : Track S := { track with bodySize := 0 }

/-- A track of a song that has the given events and was neither read nor stored, without times in
    seconds and with the cursor at the start. -/
def laid (number : Nat) (events : List (Event S)) : Track S :=
  rewind ⟨some number, events.map fun event => { event with track? := some number, cached? := none }, 0, Cursor.nowhere⟩

theorem unsized_rewind (track : Track S) : track.rewind.unsized = track.unsized.rewind := by
  cases track with
  | mk number? events size cursor => cases events <;> rfl

/-- A track in its place of which nothing was played is laid out by its events. -/
theorem untimed_unsized {number : Nat} {track : Track S} (knows : track.Knows number) (rewound : track.rewind = track) :
    track.unsized.untimed = laid number track.events := by
  have events : track.events.map Event.untimed =
      track.events.map fun event => { event with track? := some number, cached? := none } :=
    List.map_congr_left fun event member => by rw [← knows.events event member]; rfl
  calc track.unsized.untimed = track.rewind.unsized.untimed := by rw [rewound]
    _ = track.unsized.untimed.rewind := by rw [unsized_rewind, untimed_rewind]
    _ = laid number track.events := by
      rw [laid, ← events, ← knows.itself]
      exact rewind_mk _ _ _ _ _

/-- One event more behind those of a track that is laid out. -/
theorem untimed_behind {number : Nat} {row : List (Event S)} {track : Track S} (same : track.untimed = laid number row)
    (event : Event S) :
    (rewind { track with events := track.events ++ [{ event with track? := track.number?, cached? := none }] }).untimed =
      laid number (row ++ [event]) := by
  have number? : track.number? = some number := by
    have := congrArg Track.number? same
    cases row <;> exact this
  have size : track.bodySize = 0 := by
    have := congrArg Track.bodySize same
    cases row <;> exact this
  have events : track.events.map Event.untimed = row.map fun event => { event with track? := some number, cached? := none } := by
    have := congrArg Track.events same
    cases row <;> exact this
  rw [untimed_rewind, laid, List.map_append, ← events, untimed, List.map_append, number?, size]
  exact rewind_mk _ _ _ _ _

end Track

namespace TempoMap

variable [Clock S]

/-- What events set is a matter of their ticks and their messages. -/
theorem registerAll_of_map {events others : List (Event S)}
    (same : others.map (fun event => (event.tick, event.message)) = events.map fun event => (event.tick, event.message))
    (division : Division) (map : TempoMap S) : map.registerAll division others = map.registerAll division events := by
  have own (events : List (Event S)) : map.registerAll division events =
      (events.map fun event => (event.tick, event.message)).foldl (fun map set => map.register division set.1 set.2) map := by
    rw [registerAll, List.foldl_map]
  rw [own, same, ← own]

theorem registerAll_concat (division : Division) (events : List (Event S)) (event : Event S) (map : TempoMap S) :
    map.registerAll division (events ++ [event]) =
      (map.registerAll division events).register division event.tick event.message := by
  rw [registerAll, List.foldl_concat]
  rfl

end TempoMap

namespace Song

variable [Clock S]

/-- A song of the given rows of events, one row for a track, that was neither read nor stored nor
    played. -/
structure MadeOf (identity : Nat) (header : Header) (rows : List (List (Event S))) (song : Song S) : Prop where
  headed : song.header = header
  tracks : song.tracks.map Track.untimed = rows.mapIdx Track.laid
  tempoMap : song.tempoMap.idle = ((TempoMap.empty identity).registerAll header.division rows.flatten).idle
  timed : song.Timed
  warnings : song.warnings = []
  position : song.position? = none

namespace MadeOf

variable {identity : Nat} {header : Header} {rows : List (List (Event S))} {song other : Song S}

/-- The rows say all there is to say about their song. -/
theorem unique (made : MadeOf identity header rows song) (again : MadeOf identity header rows other) : song = other := by
  refine made.timed.eq_of_untimed again.timed ?_
  rw [untimed, untimed, made.headed, again.headed, made.tracks, again.tracks, made.tempoMap, again.tempoMap,
    made.warnings, again.warnings, made.position, again.position]

theorem length_tracks (made : MadeOf identity header rows song) : song.tracks.length = rows.length := by
  simpa using congrArg List.length made.tracks

/-- Working times out has no part in what a song is made of. -/
theorem of_refreshFrom {start : Nat} (timed : (song.refreshFrom start).Timed) (ordered : song.tempoMap.Ordered)
    (headed : song.header = header)
    (tracks : song.tracks.map Track.untimed = rows.mapIdx Track.laid)
    (tempoMap : song.tempoMap.idle = ((TempoMap.empty identity).registerAll header.division rows.flatten).idle)
    (warnings : song.warnings = []) (position : song.position? = none) :
    MadeOf identity header rows (song.refreshFrom start) := by
  refine ⟨headed, ?_, (ordered.idle_recount _).trans tempoMap, timed, warnings, position⟩
  rw [tracks_untimed_refreshFrom, tracks]

/-- No tracks yet. -/
theorem withDivision_empty (identity : Nat) (division : Division) :
    MadeOf (S := S) identity ⟨.single, division⟩ [] ((empty identity).withDivision division) :=
  ⟨rfl, rfl, rfl, timed_refresh (TempoMap.ordered_empty identity), rfl, rfl⟩

/-- One track more, without events. -/
theorem addTrack (made : MadeOf identity header rows song) :
    ∃ format after, addTrack Track.empty song = .ok rows.length after ∧
      MadeOf identity ⟨format, header.division⟩ (rows ++ [[]]) after := by
  have done : Song.addTrack Track.empty song = .ok song.tracks.length (refreshFrom 0 { song with
      header := { song.header with format := song.format.forTracks (song.tracks ++ [Track.laid song.tracks.length []]).length }
      tracks := song.tracks ++ [Track.laid song.tracks.length []] }) := rfl
  have timed := made.timed.addTrack done
  rw [made.length_tracks] at done timed
  refine ⟨song.format.forTracks (song.tracks ++ [Track.laid rows.length []]).length, _, done,
    of_refreshFrom timed made.timed.ordered ?_ ?_ ?_ made.warnings made.position⟩
  · rw [← made.headed]
  · rw [List.map_append, made.tracks, List.mapIdx_concat]
    rfl
  · rw [List.flatten_append, List.flatten_singleton, List.append_nil]
    exact made.tempoMap

theorem setFormat (made : MadeOf identity header rows song) (format : Format) (single : format = .single → rows.length ≤ 1) :
    ∃ after, setFormat format song = .ok () after ∧ MadeOf identity ⟨format, header.division⟩ rows after := by
  have few : ¬ (format = .single && 1 < song.tracks.length) = true := by
    rw [made.length_tracks]
    simpa using single
  refine ⟨{ song with header := { song.header with format := format } }, by rw [Song.setFormat, if_neg few], ?_⟩
  refine ⟨by rw [made.headed], made.tracks, made.tempoMap, made.timed.of_events rfl rfl rfl, made.warnings, made.position⟩

/-- One event more behind those of a track, while the tracks behind it have none. -/
theorem addEventAfter {front back : List (List (Event S))} {row : List (Event S)} {event : Event S}
    (made : MadeOf identity header (front ++ row :: back) song) (later : back.flatten = [])
    (inOrder : InOrder 0 0 (row ++ [event])) :
    ∃ after, addEventAfter front.length event.message event.delta song = .ok row.length after ∧
      MadeOf identity header (front ++ (row ++ [event]) :: back) after := by
  have place : (song.tracks.map Track.untimed)[front.length]? = some (Track.laid front.length row) := by
    simp [made.tracks]
  obtain ⟨track, here, same⟩ := Option.map_eq_some_iff.mp (List.getElem?_map .. ▸ place)
  have events : track.events.map Event.core = row.map Event.core := by
    have untimed := congrArg (List.map Event.core ∘ Track.events) same
    simp only [Function.comp_apply, Track.untimed, Track.laid, Track.events_rewind, List.map_map] at untimed
    exact untimed
  have kept : InOrder 0 0 (track.events ++ [event]) := inOrder.of_core (by rw [List.map_append, List.map_append, events])
  have within : event.tick ≤ greatestTick := inOrder.within event (by simp)
  have length : track.events.length = row.length := by simpa using congrArg List.length events
  have tick : track.endTick + event.delta = event.tick := kept.spaced.last.symm
  have inserted := Track.insert_behind kept
  have done : Song.addEventAfter front.length event.message event.delta song = .ok row.length (refreshFrom event.tick { song with
      tracks := song.tracks.set front.length (Track.rewind
        { track with events := track.events ++ [{ event with track? := track.number?, cached? := none }] })
      tempoMap := song.tempoMap.register song.division event.tick event.message }) := by
    rw [Song.addEventAfter, here, Option.elim_some, tick, addEvent]
    simp only [here, if_neg (Nat.not_lt.mpr within), inserted, length]
  refine ⟨_, done, of_refreshFrom ?_ (made.timed.ordered.register _ _ _) made.headed ?_ ?_ made.warnings made.position⟩
  · rw [Song.addEventAfter] at done
    exact made.timed.addEvent done
  · rw [List.map_set, Track.untimed_behind same, made.tracks, List.mapIdx_append, List.mapIdx_append]
    simp
  · show (song.tempoMap.register song.division event.tick event.message).idle = _
    rw [← TempoMap.register_idle, made.tempoMap, TempoMap.register_idle, Song.division, made.headed,
      ← TempoMap.registerAll_concat]
    congr 2
    simp [later]

end MadeOf

/-! ## Rebuilding -/

/-- Say what a tick is, whichever kind it is. -/
def setDivision : Division → Edit S Unit
  | .metrical ticks => setTicksPerQuarter ticks.toNat
  | .timecode rate resolution => setTimecode rate resolution

/-- Add events to a track one after another, each some ticks behind the one before it. The results
    are the numbers that they get. -/
def addEvents (events : List (Event S)) (number : Nat) : Edit S (List Nat) :=
  events.mapM fun event => addEventAfter number event.message event.delta

/-- Build a song anew in one that is empty: first what its ticks are, then its tracks without their
    events, then how they belong together, and then the events, track by track. -/
def rebuild (song : Song S) : Edit S (List (List Nat)) := do
  setDivision song.division
  let _ ← (List.replicate song.tracks.length Track.empty).mapM addTrack
  setFormat song.format
  (song.tracks.map (·.events)).zipIdx.mapM fun (events, number) => addEvents events number

theorem setDivision_empty (identity : Nat) {division : Division} (valid : division.Valid) :
    setDivision division (empty identity : Song S) = .ok () ((empty identity).withDivision division) := by
  cases division with
  | metrical ticks =>
    have nonzero : ticks.toNat ≠ 0 := valid
    simp only [setDivision, setTicksPerQuarter, Narrow.ofNat?_toNat, if_neg nonzero]
  | timecode rate resolution =>
    have nonzero : resolution ≠ 0 := valid
    rw [setDivision, setTimecode, if_neg nonzero]

namespace MadeOf

variable {identity : Nat} {header : Header} {song : Song S}

theorem addTracks {rows : List (List (Event S))} (made : MadeOf identity header rows song) (count : Nat) :
    ∃ numbers format after, (List.replicate count Track.empty).mapM Song.addTrack song = .ok numbers after ∧
      MadeOf identity ⟨format, header.division⟩ (rows ++ List.replicate count []) after := by
  induction count generalizing header rows song with
  | zero => exact ⟨[], header.format, song, rfl, by simpa using made⟩
  | succ count ih =>
    obtain ⟨format, between, first, begun⟩ := made.addTrack
    obtain ⟨numbers, format, after, others, finished⟩ := ih begun
    refine ⟨rows.length :: numbers, format, after, ?_, ?_⟩
    · rw [List.replicate_succ, List.mapM_cons]
      exact step_bind_ok_iff.mpr ⟨_, _, first, step_bind_ok_iff.mpr ⟨_, _, others, rfl⟩⟩
    · rwa [List.append_assoc] at finished

theorem addEvents {front back : List (List (Event S))} {row events : List (Event S)}
    (made : MadeOf identity header (front ++ row :: back) song) (later : back.flatten = [])
    (inOrder : InOrder 0 0 (row ++ events)) :
    ∃ after, addEvents events front.length song = .ok (List.range' row.length events.length) after ∧
      MadeOf identity header (front ++ (row ++ events) :: back) after := by
  induction events generalizing row song with
  | nil => exact ⟨song, rfl, by simpa using made⟩
  | cons event rest ih =>
    have whole : row ++ event :: rest = (row ++ [event]) ++ rest := by simp
    rw [whole] at inOrder ⊢
    obtain ⟨between, first, begun⟩ := made.addEventAfter later inOrder.front
    obtain ⟨after, others, finished⟩ := ih begun inOrder
    refine ⟨after, ?_, finished⟩
    rw [Song.addEvents, List.mapM_cons]
    refine step_bind_ok_iff.mpr ⟨_, _, first, step_bind_ok_iff.mpr ⟨_, _, others, ?_⟩⟩
    rw [List.length_append]
    rfl

/-- The events of all tracks, the tracks in front being filled already. -/
theorem addRows {front rows : List (List (Event S))}
    (made : MadeOf identity header (front ++ List.replicate rows.length []) song) (inOrder : ∀ row ∈ rows, InOrder 0 0 row) :
    ∃ after, ((rows.zipIdx front.length).mapM fun ((events, number) : List (Event S) × Nat) =>
          Song.addEvents events number) song = .ok (rows.map fun row => List.range' 0 row.length) after ∧
      MadeOf identity header (front ++ rows) after := by
  induction rows generalizing front song with
  | nil => exact ⟨song, rfl, by simpa using made⟩
  | cons row rest ih =>
    obtain ⟨inOrderFirst, inOrderLater⟩ := List.forall_mem_cons.mp inOrder
    have filled : InOrder 0 0 ([] ++ row) := inOrderFirst
    obtain ⟨between, first, begun⟩ := made.addEvents List.flatten_replicate_nil filled
    have whole : front ++ ([] ++ row) :: List.replicate rest.length [] = (front ++ [row]) ++ List.replicate rest.length [] := by
      simp
    obtain ⟨after, others, finished⟩ := ih (whole ▸ begun) inOrderLater
    refine ⟨after, ?_, by simpa using finished⟩
    rw [List.length_append, List.length_singleton] at others
    rw [List.zipIdx_cons, List.mapM_cons]
    exact step_bind_ok_iff.mpr ⟨_, _, first, step_bind_ok_iff.mpr ⟨_, _, others, rfl⟩⟩

end MadeOf

/-- Every sound song can be built anew, whatever its times are. -/
theorem Sound.rebuild {song : Song S} (sound : song.Sound) (identity : Nat) :
    ∃ built, rebuild song (empty identity) = .ok (song.tracks.map fun track => List.range' 0 track.events.length) built ∧
      MadeOf identity song.header (song.tracks.map (·.events)) built := by
  have inOrder : ∀ row ∈ song.tracks.map (·.events), InOrder 0 0 row := List.forall_mem_map.mpr sound.inOrder
  have divided := setDivision_empty (S := S) identity sound.division
  obtain ⟨_, _, _, tracks, begun⟩ := (MadeOf.withDivision_empty (S := S) identity song.division).addTracks song.tracks.length
  obtain ⟨_, formatted, headed⟩ := begun.setFormat song.format (by simpa using sound.single)
  rw [← List.length_map (·.events)] at headed
  obtain ⟨built, events, made⟩ := MadeOf.addRows headed inOrder
  rw [List.map_map] at events
  refine ⟨built, step_bind_ok_iff.mpr ⟨_, _, divided, step_bind_ok_iff.mpr ⟨_, _, tracks, ?_⟩⟩, made⟩
  exact step_bind_ok_iff.mpr ⟨_, _, formatted, events⟩

/-- The song as one that was made under another identity and neither read nor stored nor sought. -/
def afresh (identity : Nat) (song : Song S) : Song S :=
  { song.copy identity with tracks := song.tracks.map Track.unsized, warnings := [], position? := none }

/-- A song whose cursors are at the start is what its own events make, if its tempo map is what they
    set and no more. -/
theorem madeOf_afresh {song : Song S} (sound : song.Sound) (timed : song.Timed) (rewound : song.rewind = song)
    {identity : Nat} (set : song.tempoMap.idle = ((TempoMap.empty identity).registerAll song.division song.events).idle)
    (other : Nat) : MadeOf other song.header (song.tracks.map (·.events)) (song.afresh other) := by
  have atStart : ∀ track ∈ song.tracks, track.rewind = track :=
    List.map_inj_left.mp ((congrArg Song.tracks rewound).trans (List.map_id _).symm)
  refine ⟨rfl, ?_, ?_, ?_, rfl, rfl⟩
  · apply List.ext_getElem?
    intro number
    rw [afresh, List.map_map, List.getElem?_map, List.getElem?_mapIdx, List.getElem?_map, Option.map_map]
    cases here : song.tracks[number]? with
    | none => rfl
    | some track =>
      exact congrArg some (Track.untimed_unsized (sound.knows number track here) (atStart track (List.mem_of_getElem? here)))
  · have renamed := registerAll_identity song.division song.events (TempoMap.empty identity) other
    calc (song.afresh other).tempoMap.idle = { song.tempoMap.idle with identity := other } := rfl
      _ = TempoMap.idle { (TempoMap.empty identity).registerAll song.division song.events with identity := other } := by
        rw [set]
        rfl
      _ = _ := by
        rw [← renamed, ← List.flatMap_def]
        rfl
  · refine (timed.copy other).of_events rfl rfl ?_
    rw [afresh, events, List.flatMap_map]
    rfl

theorem idle_ofTracks (identity : Nat) (header : Header) (warnings : List Warning) (tracks : List (Track S)) :
    (ofTracks identity header warnings tracks).tempoMap.idle = ((TempoMap.empty identity).registerAll header.division
      (ofTracks identity header warnings tracks).events).idle := by
  have same : (ofTracks identity header warnings tracks).events.map (fun event => (event.tick, event.message)) =
      ((tracks.mapIdx fun number track => track.attach (some number)).flatMap (·.events)).map fun event =>
        (event.tick, event.message) := by
    rw [ofTracks, events_rewind, events_refreshFrom, List.map_map]
    apply List.map_congr_left
    intro event _
    simp
  rw [TempoMap.registerAll_of_map same]
  exact ((TempoMap.ordered_empty identity).registerAll _ _).idle_recount _

/-- A song that was read is built anew by edits, each of which succeeds and gives its event the number
    that it has in the song: the same song, but for what tells that it was read. Both are stored as
    the same file, or are refused for the same fault. -/
theorem rebuild_of_read [Workers] (mode : Mode) (identity other : Nat) {bytes : List UInt8} {song : Song S}
    (loaded : (read mode identity bytes).result = .ok song) :
    ∃ numbers built, rebuild song (empty other) = .ok numbers built ∧
      numbers.map (·.map some) = song.tracks.map (fun track => track.events.map (·.number?)) ∧
      built = song.afresh other ∧ outcome encode built = outcome encode song ∧
      (bytes.length < 0x80000000 → ∃ file, outcome encode song = .ok file) := by
  have sound := sound_read loaded
  obtain ⟨header, warnings, tracks, rfl, storable, bodiesOf⟩ := storable_read loaded
  have timed := timed_ofTracks identity header warnings tracks
  have ended := ended_ofTracks identity header warnings storable.ended
  obtain ⟨built, done, made⟩ := sound.rebuild other
  have again := madeOf_afresh sound timed (rewind_ofTracks identity header warnings tracks) (idle_ofTracks _ _ _ _) other
  obtain rfl := made.unique again
  refine ⟨_, _, done, ?_, rfl, ?_, ?_⟩
  · rw [List.map_map]
    exact List.map_congr_left fun track member => (sound.inOrder track member).numbered.symm
  · have frames : ((ofTracks identity header warnings tracks).afresh other).tracks.map Track.frame =
        (ofTracks identity header warnings tracks).tracks.map Track.frame := by
      rw [afresh, List.map_map]
      rfl
    exact sound.outcome_encode_of_contents (sound.of_header rfl frames) rfl (contents_of_frames frames)
  · intro short
    obtain ⟨bodies, stored⟩ := exists_forall₂ (bodiesOf short)
    have encoded := mapM_ok_iff.mpr (stored.imp fun _ _ both => both.1)
    have stored := encode_ofTracks identity warnings storable.ended storable.single storable.count encoded
    exact ⟨fileOf header bodies, by rw [outcome, stored]⟩

/-- A tempo, and a note at the tick at which the other track sets the tempo anew. -/
private def earlierItems : List Item :=
  [⟨[0, 0xFF, 0x51, 3, 0x07, 0xA1, 0x20], 0, .metadata 0x51 [3, 0x07, 0xA1, 0x20]⟩,
    ⟨[96, 0x90, 60, 64], 96, .voice 0x90 [60, 64]⟩, ⟨[0, 0xFF, 0x2F, 0], 0, .metadata 0x2F [0]⟩]

private def laterItems : List Item :=
  [⟨[96, 0xFF, 0x51, 3, 0x06, 0x1A, 0x80], 96, .metadata 0x51 [3, 0x06, 0x1A, 0x80]⟩,
    ⟨[0, 0xFF, 0x2F, 0], 0, .metadata 0x2F [0]⟩]

private def pairHeader : Header := ⟨.simultaneous, .metrical (Narrow.truncate 15 96)⟩

private theorem parse_pair : Body.Parse .strict (earlierItems.flatMap (·.bytes)) earlierItems [] ∧
    Body.Parse .strict (laterItems.flatMap (·.bytes)) laterItems [] := by
  have zero : Vlq.IsForm [0] := Vlq.isForm_byte (by decide)
  have three : Vlq.IsForm [3] := Vlq.isForm_byte (by decide)
  have beat : Vlq.IsForm [96] := Vlq.isForm_byte (by decide)
  have early : Item.IsRow .strict none earlierItems :=
    ⟨.stated zero (.metadata three rfl), .stated beat (.voice rfl rfl (by simp)), .stated zero (.metadata zero rfl), trivial⟩
  have late : Item.IsRow .strict none laterItems :=
    ⟨.stated beat (.metadata three rfl), .stated zero (.metadata zero rfl), trivial⟩
  exact ⟨⟨rfl, early, by decide, by decide, .inl ⟨⟨_, rfl, rfl⟩, fun _ => rfl⟩⟩,
    ⟨rfl, late, by decide, by decide, .inl ⟨⟨_, rfl, rfl⟩, fun _ => rfl⟩⟩⟩

theorem rebuild_of_read_pair :
    ∃ song : Song Float,
      (read .strict 0 (fileOf pairHeader [earlierItems.flatMap (·.bytes), laterItems.flatMap (·.bytes)])).result = .ok song ∧
      (song.events.map fun event => (event.tick, event.source?)) =
        [(0, some 0), (96, some 1), (96, some 1), (96, some 1), (96, some 1)] ∧
      ∃ numbers file, rebuild song (empty 1) = .ok numbers (song.afresh 1) ∧
        numbers.map (·.map some) = [[some 0, some 1, some 2], [some 0, some 1]] ∧
        outcome encode (song.afresh 1) = .ok file ∧ outcome encode song = .ok file := by
  obtain ⟨early, late⟩ := parse_pair
  have valid : pairHeader.division.Valid := show (Narrow.truncate 15 96).toNat ≠ 0 by decide
  have outlined := outline_fileOf (S := Float) .strict valid nofun (by decide)
    (by decide : ∀ body ∈ [earlierItems.flatMap (·.bytes), laterItems.flatMap (·.bytes)], body.length < 0x100000000)
  have loaded : (read .strict 0 _).result = .ok (ofBodies 0 _ _) :=
    read_ok_iff.mpr ⟨_, _, _, Rmid.unwrap_header _ _, outlined, .cons (Body.read_ok_iff.mpr ⟨_, _, early, rfl⟩)
      (.cons (Body.read_ok_iff.mpr ⟨_, _, late, rfl⟩) .nil), rfl⟩
  obtain ⟨numbers, built, done, named, rfl, same, stored⟩ := rebuild_of_read .strict 0 1 loaded
  obtain ⟨file, kept⟩ := stored (by decide)
  exact ⟨_, loaded, rfl, numbers, file, done, named, same.trans kept, kept⟩

end Song

end MidiFile
