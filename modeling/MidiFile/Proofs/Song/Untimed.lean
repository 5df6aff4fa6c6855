import MidiFile.Proofs.Song.Sound

/-! # What does not depend on times

Edits place events, number them and space them by their ticks and their messages; times in seconds have
no part in that (`Track.untimed_put`, `Track.remove_untimed`), nor in what is stored of a track
(`Song.mapM_encode_of_frames`). In a timed song they are not even something of their own: times, and how
many events each entry of the tempo map was used for, follow from the rest of the song
(`Song.Timed.eq_of_untimed`).
-/

namespace MidiFile

variable {S : Type}

namespace Track

/-- The track without the times in seconds of its events. -/
def untimed (track : Track S) : Track S := { track with events := track.events.map Event.untimed }

theorem rewind_mk (number? : Option Nat) (events : List (Event S)) (size : Nat) (cursor cursor' : Cursor) :
    rewind ⟨number?, events, size, cursor⟩ = rewind ⟨number?, events, size, cursor'⟩ := by
  cases events <;> rfl

/-- Where the cursor starts is a matter of the ticks. -/
theorem map_rewind {change : Event S → Event S} (kept : ∀ event, (change event).tick = event.tick) (track : Track S) :
    ({ track.rewind with events := track.rewind.events.map change } : Track S) =
      rewind { track with events := track.events.map change } := by
  cases track with
  | mk number? events size cursor =>
    cases events with
    | nil => rfl
    | cons first rest => simp [rewind, kept]

theorem untimed_rewind (track : Track S) : track.rewind.untimed = track.untimed.rewind := by
  have kept : ∀ event : Event S, event.untimed.tick = event.tick := fun _ => rfl
  exact map_rewind kept track

theorem isEnded_untimed (track : Track S) : track.untimed.isEnded = track.isEnded := by
  rw [isEnded, isEnded, last?, last?, untimed, List.getLast?_map, Option.any_map]
  rfl

theorem room_untimed (message : Message) (tick : Nat) (track : Track S) : track.untimed.room message tick =
    ((track.room message tick).1.map Event.untimed, (track.room message tick).2.map Event.untimed) := by
  rw [room, room, withoutEnd, withoutEnd, isEnded_untimed]
  split
  · rfl
  · split
    · rw [last?, last?, untimed, List.getLast?_map]
      cases track.events.getLast? <;> simp [Event.untimed, List.map_dropLast]
    · rfl

theorem renumbered_untimed (events : List (Event S)) :
    renumbered (events.map Event.untimed) = (renumbered events).map Event.untimed := by
  apply List.ext_getElem?
  intro number
  simp only [renumbered, List.getElem?_mapIdx, List.getElem?_map, Option.map_map]
  rfl

theorem respaced_untimed (events : List (Event S)) :
    respaced (events.map Event.untimed) = (respaced events).map Event.untimed := by
  rw [respaced, respaced, List.map_zipWith, List.zipWith_map_left, List.map_map]
  rfl

theorem delayed_untimed (delta : Nat) (events : List (Event S)) :
    delayed delta (events.map Event.untimed) = (delayed delta events).map Event.untimed := by
  cases events <;> rfl

/-- Where a message goes, and what becomes of delta times and numbers, is no matter of seconds. -/
theorem untimed_put (message : Message) (tick : Nat) (track : Track S) :
    (track.put message tick).untimed = track.untimed.put message tick := by
  have arranged : track.untimed.arranged message tick = (track.arranged message tick).map Event.untimed := by
    rw [arranged, arranged, room_untimed, arrange, arrange]
    simp only [List.takeWhile_map, List.dropWhile_map, List.map_append, List.map_cons]
    rfl
  have placed : (track.place message tick).2.untimed = (track.untimed.place message tick).2 := by
    rw [place_track, place_track, arranged, respaced_untimed, renumbered_untimed]
    rfl
  rw [put, put, untimed_rewind, placed]

theorem remove_untimed (number : Nat) (track : Track S) :
    track.untimed.remove number = (track.remove number).map fun (removed, left) => (removed, left.untimed) := by
  have here : track.untimed.events[number]? = (track.events[number]?).map Event.untimed := List.getElem?_map
  rw [remove, remove, here]
  cases track.events[number]? with
  | none => rfl
  | some event =>
    simp only [Option.map_some, Except.map, untimed, ← List.map_take, ← List.map_drop, delayed_untimed,
      ← List.map_append, renumbered_untimed, Event.detach, Event.untimed]

end Track

/-- The entry without the count of the events that it was used for. -/
def Entry.idle (entry : Entry S) : Entry S := { entry with dependents := 0 }

namespace TempoMap

/-- The map without the counts of the events that its entries were used for. -/
def idle (map : TempoMap S) : TempoMap S := { map with entries := map.entries.map Entry.idle }

theorem Ordered.idle_recount {map : TempoMap S} (ordered : map.Ordered) (sources : List Nat) :
    (map.recount sources).idle = map.idle := by
  rw [ordered.recount_eq]
  simp only [idle, mapEntries, List.map_map]
  rfl

theorem recount_idle (sources : List Nat) (map : TempoMap S) : map.idle.recount sources = map.recount sources := by
  simp only [idle, recount, List.map_map]
  rfl

theorem course_idle (map : TempoMap S) : map.idle.course = map.course := by
  simp only [course, idle, List.map_map]
  rfl

variable [Clock S]

theorem register_idle (division : Division) (tick : Nat) (message : Message) (map : TempoMap S) :
    map.idle.register division tick message = (map.register division tick message).idle := by
  rw [register, register]
  split
  · have sets : (map.mapEntries Entry.idle).set tick message.tempo? message.timeSignature? =
        (map.set tick message.tempo? message.timeSignature?).mapEntries Entry.idle :=
      set_mapEntries (fun _ => rfl) (fun _ => rfl) (fun _ _ => rfl) rfl
    have resolves (map : TempoMap S) : (map.mapEntries Entry.idle).resolve division =
        (map.resolve division).mapEntries Entry.idle :=
      resolve_mapEntries Entry.idle (fun _ => rfl) (fun _ _ => rfl) (fun _ => rfl) map
    exact (congrArg (TempoMap.resolve division) sets).trans (resolves _)
  · rfl

end TempoMap

/-- What a file keeps of an event: its delta time and its message. -/
def Event.content (event : Event S) : Nat × Message := (event.delta, event.message)

/-- What a file keeps of a track. -/
def Track.content (track : Track S) : List (Nat × Message) := track.events.map Event.content

namespace Song

/-- Tracks of the same contents are stored alike. -/
theorem map_encode_of_contents {tracks others : List (Track S)}
    (same : others.map Track.content = tracks.map Track.content) : others.map Track.encode = tracks.map Track.encode := by
  have own (track : Track S) : track.encode =
      Track.encode (S := S) ⟨none, track.content.map fun kept => ⟨kept.2, kept.1, 0, none, none, none⟩, 0, Cursor.nowhere⟩ := by
    unfold Track.encode Track.content
    dsimp only
    rw [List.map_map, List.mapM_map]
    rfl
  have factored (tracks : List (Track S)) : tracks.map Track.encode = (tracks.map Track.content).map fun content =>
      Track.encode (S := S) ⟨none, content.map fun kept => ⟨kept.2, kept.1, 0, none, none, none⟩, 0, Cursor.nowhere⟩ := by
    rw [List.map_map]
    simp only [Function.comp_def, ← own]
  rw [factored, same, ← factored]

theorem contents_of_frames {tracks others : List (Track S)} (same : others.map Track.frame = tracks.map Track.frame) :
    others.map Track.content = tracks.map Track.content := by
  have own (tracks : List (Track S)) :
      tracks.map Track.content = (tracks.map Track.frame).map fun frame => frame.2.map Event.content := by
    simp only [List.map_map, Function.comp_def, Track.frame]
    rfl
  rw [own, same, ← own]

theorem mapM_encode (tracks : List (Track S)) : tracks.mapM Track.encode = (tracks.map Track.encode).mapM id := by
  rw [List.mapM_map]
  rfl

theorem mapM_encode_of_contents {tracks others : List (Track S)}
    (same : others.map Track.content = tracks.map Track.content) : others.mapM Track.encode = tracks.mapM Track.encode := by
  rw [mapM_encode, map_encode_of_contents same, ← mapM_encode]

theorem mapM_encode_of_frames {tracks others : List (Track S)} (same : others.map Track.frame = tracks.map Track.frame) :
    others.mapM Track.encode = tracks.mapM Track.encode := mapM_encode_of_contents (contents_of_frames same)

/-- Tracks of the same contents are refused alike, too. -/
theorem encodeBodies_of_contents [Workers] {tracks others : List (Track S)}
    (same : others.map Track.content = tracks.map Track.content) : encodeBodies others = encodeBodies tracks := by
  have own (tracks : List (Track S)) : (tracks.map fun track => track.events.length * 3) =
      (tracks.map Track.content).map fun content => content.length * 3 := by
    simp only [List.map_map, Function.comp_def, Track.content, List.length_map]
  rw [encodeBodies, encodeBodies, map_encode_of_contents same, own, same, ← own]

variable [Clock S]

/-- The times of a timed song are worked out from its tempo map and its division alone. -/
theorem Timed.tracks_eq {song : Song S} (timed : song.Timed) :
    song.tracks = (song.tracks.map Track.untimed).map fun track =>
      { track with events := track.events.map fun event =>
        { event with cached? := some (song.tempoMap.timeOf song.division event.tick) } } := by
  rw [List.map_map]
  refine (map_eq_self fun track here => ?_).symm
  have events : (track.events.map Event.untimed).map (fun event =>
      { event with cached? := some (song.tempoMap.timeOf song.division event.tick) }) = track.events := by
    rw [List.map_map]
    refine map_eq_self fun event member => ?_
    exact congrArg (fun cached? => { event with cached? := cached? })
      (timed.timely event (List.mem_flatMap.mpr ⟨track, here, member⟩)).symm
  exact congrArg (fun events => { track with events := events }) events

omit [Clock S] in
/-- The song without the times in seconds of its events and without the counts of dependents. -/
def untimed (song : Song S) : Song S :=
  { song with tracks := song.tracks.map Track.untimed, tempoMap := song.tempoMap.idle }

/-- Times and the counts of dependents follow from the rest of a timed song. -/
theorem Timed.eq_of_untimed {song other : Song S} (timed : song.Timed) (timedToo : other.Timed)
    (same : song.untimed = other.untimed) : song = other := by
  obtain ⟨headed, untimed, idle, warnings, position⟩ := Song.mk.inj same
  have course : song.tempoMap.course = other.tempoMap.course := by
    rw [← TempoMap.course_idle, idle, TempoMap.course_idle]
  have times (tick : Nat) : song.tempoMap.timeOf song.division tick = other.tempoMap.timeOf other.division tick := by
    rw [division, division, headed]
    exact TempoMap.timeOf_of_course course _ _
  have tracks : song.tracks = other.tracks := by
    rw [timed.tracks_eq, timedToo.tracks_eq, untimed]
    simp only [times]
  have tempoMap : song.tempoMap = other.tempoMap := by
    have own {song : Song S} (timed : song.Timed) :
        song.tempoMap = song.tempoMap.idle.recount (song.events.filterMap Event.source?) :=
      (congrArg Song.tempoMap timed.recount_eq_self).symm.trans (TempoMap.recount_idle _ _).symm
    rw [own timed, own timedToo, idle, events, events, tracks]
  cases song
  cases other
  simp_all

omit [Clock S] in
theorem untimed_recount {song : Song S} (ordered : song.tempoMap.Ordered) (tracks : List (Track S)) :
    untimed (recount { song with tracks := tracks }) = untimed { song with tracks := tracks } := by
  rw [untimed, recount, untimed, ordered.idle_recount]

theorem tracks_untimed_refreshFrom (start : Nat) (song : Song S) :
    (song.refreshFrom start).tracks.map Track.untimed = song.tracks.map Track.untimed := by
  rw [tracks_refreshFrom, List.map_map]
  apply List.map_congr_left
  intro track _
  simp [Track.untimed, Function.comp_def]

theorem untimed_refreshFrom {song : Song S} (ordered : song.tempoMap.Ordered) (start : Nat) :
    (song.refreshFrom start).untimed = song.untimed := by
  have tracks := tracks_untimed_refreshFrom start song
  have tempoMap := ordered.idle_recount ((song.refreshFrom start).events.filterMap Event.source?)
  exact congrArg₂ (fun tracks tempoMap => { song with tracks := tracks, tempoMap := tempoMap }) tracks tempoMap

theorem untimed_put (number : Nat) (message : Message) (tick : Nat) (song : Song S) :
    (song.put number message tick).untimed = song.untimed.put number message tick := by
  have tracks := map_modify (Track.untimed_put message tick) song.tracks number
  have tempoMap := TempoMap.register_idle song.division tick message song.tempoMap
  rw [untimed, put, tracks, ← tempoMap]
  rfl

end Song

end MidiFile
