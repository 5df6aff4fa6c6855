import MidiFile.Proofs.Song.Edit
import MidiFile.Proofs.Song.Read
import MidiFile.Proofs.TempoMap.References
import MidiFile.Proofs.Track.Place
import MidiFile.Proofs.Workspace.Session

/-! # Times that are never stale

A song is timed when its tempo map is in order and settled, every event has the time that the map
gives for its tick, and every entry knows how many events that time came from (`Song.Timed`).
Working times out from a tick on makes a song timed if the events in front of the tick had the
right times already (`timed_refreshFrom`), which is what every edit has to see to: it changes no
entry and no event in front of the tick that it starts from. Working all times out anew also does
away with an entry that was retired (`refreshFrom_shed`). So every song of every session is timed, as
long as fewer references were taken than can be counted, and deriving all of its times anew changes
nothing.
-/

namespace MidiFile

variable {S : Type} [Clock S]

namespace Song

/-- The event has the time that the tempo map of the song gives for its tick. -/
def IsTimely (song : Song S) (event : Event S) : Prop :=
  event.cached? = some (song.tempoMap.timeOf song.division event.tick)

/-- The times of a song are those that its tempo map and its division make. -/
structure Timed (song : Song S) : Prop where
  ordered : song.tempoMap.Ordered
  settled : song.tempoMap.Settled song.division
  timely : ∀ event ∈ song.events, song.IsTimely event
  counted : ∀ entry ∈ song.tempoMap.entries,
    entry.dependents = (song.events.filterMap Event.source?).count entry.id

variable {song : Song S}

omit [Clock S] in
theorem events_map (song : Song S) (change : Event S → Event S) :
    events { song with tracks := song.tracks.map fun track => { track with events := track.events.map change } } =
      song.events.map change := by
  simp only [events, List.flatMap_map, List.map_flatMap]

@[simp] theorem tracks_refreshFrom (start : Nat) (song : Song S) : (song.refreshFrom start).tracks =
    song.tracks.map fun track => { track with events := track.events.map (song.refreshEvent start) } := rfl

@[simp] theorem tick_refreshEvent (song : Song S) (start : Nat) (event : Event S) :
    (song.refreshEvent start event).tick = event.tick := by
  rw [refreshEvent]
  split <;> rfl

@[simp] theorem message_refreshEvent (song : Song S) (start : Nat) (event : Event S) :
    (song.refreshEvent start event).message = event.message := by
  rw [refreshEvent]
  split <;> rfl

theorem events_refreshFrom (start : Nat) (song : Song S) :
    (song.refreshFrom start).events = song.events.map (song.refreshEvent start) :=
  events_map song (song.refreshEvent start)

@[simp] theorem events_rewind (song : Song S) : song.rewind.events = song.events := by
  simp [Song.rewind, events, List.flatMap_map]

/-- Counting anew touches no time. -/
theorem timed_recount (ordered : song.tempoMap.Ordered) (settled : song.tempoMap.Settled song.division)
    (timely : ∀ event ∈ song.events, song.IsTimely event) : song.recount.Timed := by
  have course : song.recount.tempoMap.course = song.tempoMap.course := TempoMap.course_recount ordered _
  refine ⟨ordered.of_course course rfl, settled.of_course course, ?_, ?_⟩
  · intro event member
    have before := timely event member
    rw [IsTimely] at before ⊢
    rw [before, TempoMap.timeOf_of_course course]
    rfl
  · intro entry member
    rw [recount, ordered.recount_eq] at member
    obtain ⟨old, _, rfl⟩ := List.mem_map.mp member
    rfl

theorem isTimely_refreshEvent {start : Nat} {event : Event S} (early : event.tick < start → song.IsTimely event) :
    song.IsTimely (song.refreshEvent start event) := by
  by_cases before : start ≤ event.tick
  · rw [refreshEvent, if_pos before]
    rfl
  · rw [refreshEvent, if_neg before]
    exact early (Nat.lt_of_not_le before)

/-- Times that are right up to a tick and worked out from there on are right. -/
theorem timed_refreshFrom {start : Nat} (ordered : song.tempoMap.Ordered)
    (settled : song.tempoMap.Settled song.division)
    (early : ∀ event ∈ song.events, event.tick < start → song.IsTimely event) : (song.refreshFrom start).Timed := by
  refine timed_recount ordered settled ?_
  intro event member
  rw [events_map song] at member
  obtain ⟨old, oldMember, rfl⟩ := List.mem_map.mp member
  exact isTimely_refreshEvent (early old oldMember)

theorem timed_refresh (ordered : song.tempoMap.Ordered) : song.refresh.Timed :=
  timed_refreshFrom (ordered.resolve _) (TempoMap.settled_resolve _ _) fun _ _ early => absurd early (Nat.not_lt_zero _)

theorem Timed.recount_eq_self (timed : song.Timed) : song.recount = song := by
  have entries : (song.tempoMap.entries.map fun entry =>
      { entry with dependents := (song.events.filterMap Event.source?).count entry.id }) = song.tempoMap.entries :=
    map_eq_self fun entry member => by rw [← timed.counted entry member]
  rw [recount, timed.ordered.recount_eq, TempoMap.mapEntries, entries]

theorem Timed.refreshEvent_eq_self (timed : song.Timed) (start : Nat) {event : Event S} (member : event ∈ song.events) :
    song.refreshEvent start event = event := by
  have timely := timed.timely event member
  rw [IsTimely] at timely
  rw [refreshEvent, ← timely]
  split <;> rfl

/-- Working the times of a track of a timed song out anew changes nothing. -/
theorem Timed.map_refreshEvent (timed : song.Timed) (start : Nat) {track : Track S} (member : track ∈ song.tracks) :
    track.events.map (song.refreshEvent start) = track.events :=
  map_eq_self fun _ inside => timed.refreshEvent_eq_self start (List.mem_flatMap.mpr ⟨track, member, inside⟩)

/-- Deriving the times of a timed song anew changes nothing. -/
theorem Timed.refresh_eq_self (timed : song.Timed) : song.refresh = song := by
  have resolved := TempoMap.resolve_eq_self_iff.mpr timed.settled
  have tracks : (song.tracks.map fun track => { track with events := track.events.map (song.refreshEvent 0) }) =
      song.tracks := map_eq_self fun track member => by rw [timed.map_refreshEvent 0 member]
  rw [refresh, resolved, refreshFrom, tracks]
  exact timed.recount_eq_self

/-! ## Retired entries -/

/-- Times come from entries that are in effect. -/
theorem mem_live_of_source? {map : TempoMap S} {division : Division} {tick id : Nat}
    (source : (map.timeOf division tick).source? = some id) : ∃ entry ∈ map.live, entry.id = id := by
  cases division with
  | timecode rate resolution => cases source
  | metrical ticks =>
    cases found : map.at? tick with
    | none => simp [TempoMap.timeOf, found] at source
    | some entry =>
      simp only [TempoMap.timeOf, found, Option.some.injEq] at source
      exact ⟨entry, (TempoMap.mem_live_of_at? found).1, source⟩

/-- When all times are worked out anew, retired entries have no part in them and leave the map. -/
theorem refreshFrom_shed (ids : (song.tempoMap.entries.map (·.id)).Nodup) :
    song.refreshFrom 0 = refreshFrom 0 { song with tempoMap := song.tempoMap.shed } := by
  have worked (event : Event S) : song.refreshEvent 0 event =
      { event with cached? := some (song.tempoMap.timeOf song.division event.tick) } := by
    rw [refreshEvent, if_pos (Nat.zero_le _)]
  have same : refreshEvent { song with tempoMap := song.tempoMap.shed } 0 = song.refreshEvent 0 := by
    funext event
    rw [worked, refreshEvent, if_pos (Nat.zero_le _)]
    have time := TempoMap.timeOf_shed song.tempoMap song.division event.tick
    exact congrArg (fun time => { event with cached? := some time }) time
  have unused : ∀ entry ∈ song.tempoMap.entries, entry.retired = true →
      entry.id ∉ (song.events.map (song.refreshEvent 0)).filterMap Event.source? := by
    intro entry member gone used
    obtain ⟨other, among, source⟩ := List.mem_filterMap.mp used
    obtain ⟨old, _, rfl⟩ := List.mem_map.mp among
    rw [worked old] at source
    obtain ⟨live, liveMember, id⟩ := mem_live_of_source? source
    obtain ⟨inside, held⟩ := TempoMap.mem_live.mp liveMember
    rw [List.inj_on_of_nodup_map ids inside member id, gone] at held
    cases held
  have events (tempoMap : TempoMap S) := events_map { song with tempoMap := tempoMap } (song.refreshEvent 0)
  rw [refreshFrom, refreshFrom, same, recount, recount, events song.tempoMap, events song.tempoMap.shed]
  simp only [TempoMap.recount_shed unused]
  rfl

/-- A reference that is given back changes its count and nothing else, unless it was the last one: then
    the entry goes, and all times are worked out without it. -/
theorem releaseTempo_cases (ordered : song.tempoMap.Ordered) {handle : Handle} {entry : Entry S} {after : Song S}
    (done : song.releaseTempo handle = some (entry, after)) :
    song.tempoMap.find? handle = some entry ∧
      (1 < entry.references ∧ after = { song with tempoMap := song.tempoMap.put entry.drop } ∨
        entry.references = 1 ∧ after = refreshFrom 0 { song with tempoMap :=
          { song.tempoMap with entries := song.tempoMap.entries.filter (·.id != entry.id) }.resolve song.division }) := by
  obtain ⟨tempoMap, released, rfl⟩ := releaseTempo_ok done
  obtain ⟨found, ⟨more, rfl⟩ | ⟨last, gone, ids, shed⟩⟩ := TempoMap.release_cases ordered released
  · have member := (TempoMap.mem_of_find? found).1
    have unheld := TempoMap.unheld_put_drop ordered member more
    have orderedToo : (song.tempoMap.put entry.drop).Ordered := ordered.of_course (TempoMap.course_of_unheld unheld) rfl
    have ids : (song.tempoMap.put entry.drop).entries.map (·.id) = song.tempoMap.entries.map (·.id) :=
      TempoMap.map_put ordered.ids member rfl rfl
    have stays : ((song.tempoMap.put entry.drop).live? handle).isSome = true := by
      rw [orderedToo.live?_eq, TempoMap.find?_isSome_iff, ids]
      exact TempoMap.find?_isSome_iff.mp (Option.isSome_of_eq_some found)
    exact ⟨found, .inl ⟨more, if_pos stays⟩⟩
  · refine ⟨found, .inr ⟨last, ?_⟩⟩
    rw [gone, if_neg (by simp), refreshFrom_shed ids, shed]

/-- The cursors have no part in the times. -/
theorem Timed.of_events {other : Song S} (timed : song.Timed) (map : other.tempoMap = song.tempoMap)
    (division : other.division = song.division) (events : other.events = song.events) : other.Timed := by
  refine ⟨map ▸ timed.ordered, ?_, ?_, ?_⟩
  · rw [map, division]
    exact timed.settled
  · intro event member
    rw [IsTimely, map, division]
    exact timed.timely event (events ▸ member)
  · intro entry member
    rw [events]
    exact timed.counted entry (map ▸ member)

theorem Timed.copy (timed : song.Timed) (identity : Nat) : (song.copy identity).Timed :=
  ⟨⟨timed.ordered.ticks, timed.ordered.ids, timed.ordered.fresh, timed.ordered.held⟩, timed.settled, timed.timely,
    timed.counted⟩

theorem Timed.rewind (timed : song.Timed) : song.rewind.Timed := timed.of_events rfl rfl (events_rewind song)

omit [Clock S] in
/-- A track may change in all but its events. -/
theorem events_set {number : Nat} {track new : Track S} (here : song.tracks[number]? = some track)
    (same : new.events = track.events) : events { song with tracks := song.tracks.set number new } = song.events := by
  obtain ⟨inside, rfl⟩ := List.getElem?_eq_some_iff.mp here
  simp only [events, List.flatMap_def, List.map_set]
  congr 1
  rw [same, ← List.getElem_map (fun track : Track S => track.events) (h := by simpa using inside), List.set_getElem_self]

theorem Timed.next? {event : Event S} {after : Song S} (timed : song.Timed) (done : song.next? = some (event, after)) :
    after.Timed := by
  obtain ⟨number, track, advanced, _, here, step, rfl⟩ := next?_some done
  obtain ⟨_, _, _, rfl⟩ := Track.advance?_some step
  exact timed.of_events rfl rfl (events_set here rfl)

omit [Clock S] in
theorem mem_events_set {number : Nat} {track : Track S} {event : Event S}
    (member : event ∈ (song.tracks.set number track).flatMap (·.events)) :
    event ∈ track.events ∨ event ∈ song.events := by
  obtain ⟨part, among, inside⟩ := List.mem_flatMap.mp member
  rcases List.mem_or_eq_of_mem_set among with old | rfl
  · exact .inr (List.mem_flatMap.mpr ⟨part, old, inside⟩)
  · exact .inl inside

/-- The song has an event of the same tick and the same time. -/
def Dates (song : Song S) (event : Event S) : Prop :=
  ∃ old ∈ song.events, old.tick = event.tick ∧ old.cached? = event.cached?

section
variable {event : Event S}

omit [Clock S] in
theorem dates_of_mem (member : event ∈ song.events) : song.Dates event := ⟨event, member, rfl, rfl⟩

omit [Clock S] in
/-- In front of an event that was added there is nothing new. -/
theorem dates_of_insert {number tick place : Nat} {message : Message} {track new : Track S}
    (here : song.tracks[number]? = some track) (inserted : track.insert message tick = .ok (place, new))
    (member : event ∈ (song.tracks.set number new.rewind).flatMap (·.events)) (early : event.tick < tick) :
    song.Dates event := by
  obtain ⟨_, _, rfl⟩ := Track.insert_ok inserted
  rcases mem_events_set member with placed | kept
  · rw [Track.events_rewind] at placed
    obtain ⟨old, among, same⟩ := Track.old_of_mem_place message tick track placed early
    exact ⟨old, List.mem_flatMap.mpr ⟨track, List.mem_of_getElem? here, among⟩, same⟩
  · exact dates_of_mem kept

omit [Clock S] in
/-- In front of the events of a track that was added there is nothing new. -/
theorem dates_of_append {start : Nat} {added : Track S} (late : ∀ event ∈ added.events, start ≤ event.tick)
    (member : event ∈ (song.tracks ++ [added.rewind]).flatMap (·.events)) (early : event.tick < start) :
    song.Dates event := by
  simp only [List.flatMap_append, List.mem_append, List.flatMap_cons, List.flatMap_nil, List.append_nil,
    Track.events_rewind] at member
  rcases member with kept | new
  · exact dates_of_mem kept
  · exact absurd early (Nat.not_lt.mpr (late event new))

theorem dates_removeTrack {number : Nat} {removed : Track S} {after : Song S}
    (done : removeTrack number song = .ok removed after) (member : event ∈ after.events) : song.Dates event := by
  obtain ⟨track, _, _, rfl⟩ := removeTrack_ok done
  obtain ⟨part, among, inside⟩ := List.mem_flatMap.mp member
  obtain ⟨place, bound, rfl⟩ := List.mem_mapIdx.mp among
  obtain ⟨old, oldInside, rfl⟩ := List.mem_map.mp inside
  have kept : (song.tracks.eraseIdx number)[place] ∈ song.tracks := List.mem_of_mem_eraseIdx (List.getElem_mem bound)
  exact ⟨old, List.mem_flatMap.mpr ⟨_, kept, oldInside⟩, rfl, rfl⟩

theorem dates_removeEvent {number place : Nat} {removed : Event S} {after : Song S}
    (done : removeEvent number place song = .ok removed after) (member : event ∈ after.events) : song.Dates event := by
  obtain ⟨track, new, here, taken, rfl⟩ := removeEvent_ok done
  rcases mem_events_set member with left | kept
  · rw [Track.events_rewind] at left
    obtain ⟨old, among, _, _, rfl⟩ := Track.exists_of_mem_remove taken left
    exact ⟨old, List.mem_flatMap.mpr ⟨track, List.mem_of_getElem? here, among⟩, rfl, rfl⟩
  · exact dates_of_mem kept

end

/-- What the song dates has the time that its tempo map gives. -/
theorem Timed.dated (timed : song.Timed) {event : Event S} (dates : song.Dates event) : song.IsTimely event := by
  obtain ⟨old, member, sameTick, sameCached⟩ := dates
  rw [IsTimely, ← sameTick, ← sameCached]
  exact timed.timely old member

theorem Timed.addEvent {number tick place : Nat} {message : Message} {after : Song S} (timed : song.Timed)
    (done : addEvent number message tick song = .ok place after) : after.Timed := by
  obtain ⟨old, new, here, _, inserted, rfl⟩ := addEvent_ok done
  refine timed_refreshFrom (timed.ordered.register _ _ _) (timed.settled.register _ _) ?_
  intro event member early
  have before : (song.tempoMap.register song.division tick message).timeOf song.division event.tick = _ :=
    TempoMap.timeOf_register timed.ordered timed.settled message early
  rw [IsTimely]
  change event.cached? = some ((song.tempoMap.register song.division tick message).timeOf song.division event.tick)
  rw [before]
  exact timed.dated (dates_of_insert here inserted member early)

theorem Timed.addTrack {track : Track S} {number : Nat} {after : Song S} (timed : song.Timed)
    (done : addTrack track song = .ok number after) : after.Timed := by
  obtain ⟨placed, retimed, _, rfl⟩ := addTrack_ok done
  have late := Track.head_le_retime retimed
  refine timed_refreshFrom (timed.ordered.registerAll _ _) (timed.settled.registerAll _) ?_
  intro event member early
  have before : (song.tempoMap.registerAll song.division placed.events).timeOf song.division event.tick = _ :=
    TempoMap.timeOf_registerAll timed.ordered timed.settled late early
  rw [IsTimely]
  change event.cached? = some ((song.tempoMap.registerAll song.division placed.events).timeOf song.division event.tick)
  rw [before]
  exact timed.dated (dates_of_append late member early)

theorem Timed.removeTrack {number : Nat} {removed : Track S} {after : Song S} (timed : song.Timed)
    (done : removeTrack number song = .ok removed after) : after.Timed := by
  have dates : ∀ event ∈ after.events, song.Dates event := fun _ => dates_removeTrack done
  obtain ⟨track, _, _, rfl⟩ := removeTrack_ok done
  exact timed_recount timed.ordered timed.settled fun event member => timed.dated (dates event member)

theorem Timed.removeEvent {number place : Nat} {removed : Event S} {after : Song S} (timed : song.Timed)
    (done : removeEvent number place song = .ok removed after) : after.Timed := by
  have dates : ∀ event ∈ after.events, song.Dates event := fun _ => dates_removeEvent done
  obtain ⟨old, new, here, taken, rfl⟩ := removeEvent_ok done
  exact timed_recount timed.ordered timed.settled fun event member => timed.dated (dates event member)

/-- References to entries have no part in the times. -/
theorem Timed.of_unheld (timed : song.Timed) {tempoMap : TempoMap S} (same : tempoMap.unheld = song.tempoMap.unheld)
    (next : tempoMap.nextId = song.tempoMap.nextId) : Timed { song with tempoMap := tempoMap } := by
  have course := TempoMap.course_of_unheld same
  refine ⟨timed.ordered.of_course course next, timed.settled.of_course course, ?_, ?_⟩
  · intro event member
    have before := timed.timely event member
    rw [IsTimely] at before ⊢
    rw [before, ← TempoMap.timeOf_of_course course]
    rfl
  · intro entry member
    have listed : entry.unheld ∈ song.tempoMap.unheld := same ▸ List.mem_map_of_mem member
    obtain ⟨old, oldMember, alike⟩ := List.mem_map.mp listed
    have id : old.unheld.id = entry.unheld.id := congrArg Entry.id alike
    have dependents : old.unheld.dependents = entry.unheld.dependents := congrArg Entry.dependents alike
    change old.id = entry.id at id
    change old.dependents = entry.dependents at dependents
    rw [← id, ← dependents]
    exact timed.counted old oldMember

theorem Timed.holdLastTempo {entry : Entry S} {after : Song S} (timed : song.Timed)
    (room : ∀ entry ∈ song.tempoMap.entries, entry.references < 0xFFFFFFFF)
    (done : song.holdLastTempo = some (entry, after)) : after.Timed := by
  obtain ⟨tempoMap, acquired, rfl⟩ := holdLastTempo_ok done
  obtain ⟨same, next⟩ := TempoMap.unheld_acquire timed.ordered room acquired
  exact timed.of_unheld same next

/-- With the count of the entry in effect at its greatest, one more reference retires that entry, while
    times that were worked out from it stay. So there has to be a bound on the references taken. -/
theorem retired_of_full {entry held : Entry S} {after : Song S}
    (inEffect : song.tempoMap.at? song.endTick = some entry) (full : entry.references = 0xFFFFFFFF)
    (done : song.holdLastTempo = some (held, after)) :
    held ∈ after.tempoMap.entries ∧ held.retired = true ∧ held.id = entry.id ∧ after.events = song.events := by
  obtain ⟨tempoMap, acquired, rfl⟩ := holdLastTempo_ok done
  simp only [TempoMap.acquire, inEffect, Option.map_some, Option.some.injEq, Prod.mk.injEq] at acquired
  obtain ⟨rfl, rfl⟩ := acquired
  refine ⟨List.mem_map.mpr ⟨entry, (TempoMap.mem_of_at? inEffect).1, if_pos rfl⟩, ?_, rfl, rfl⟩
  simp [Entry.retired, Entry.hold, full]

theorem Timed.releaseTempo {handle : Handle} {entry : Entry S} {after : Song S} (timed : song.Timed)
    (done : song.releaseTempo handle = some (entry, after)) : after.Timed := by
  obtain ⟨found, ⟨more, rfl⟩ | ⟨_, rfl⟩⟩ := releaseTempo_cases timed.ordered done
  · exact timed.of_unheld (TempoMap.unheld_put_drop timed.ordered (TempoMap.mem_of_find? found).1 more) rfl
  · exact timed_refreshFrom ((timed.ordered.without entry.id).resolve _) (TempoMap.settled_resolve _ _)
      fun _ _ early => absurd early (Nat.not_lt_zero _)

omit [Clock S] in
theorem events_measured (song : Song S) {bodies : List (List UInt8)} (enough : song.tracks.length ≤ bodies.length) :
    (song.measured bodies).events = song.events := by
  have kept : ∀ (track : Track S) (body : List UInt8), (track.measured body).events = track.events := fun _ _ => rfl
  simp only [measured, events, List.flatMap_def, map_zipWith_left kept enough]

theorem Timed.steady {track : Track S → Prop} {message : Message → Prop} {after : Song S} (timed : song.Timed)
    (step : SteadyStep track message song after) : after.Timed := by
  cases step with
  | formatted done =>
    obtain ⟨_, rfl⟩ := setFormat_ok done
    exact timed.of_events rfl rfl rfl
  | metrical done =>
    obtain ⟨_, _, rfl⟩ := setTicksPerQuarter_ok done
    exact timed_refresh timed.ordered
  | timecode done =>
    obtain ⟨_, rfl⟩ := setTimecode_ok done
    exact timed_refresh timed.ordered
  | trackAdded _ done => exact timed.addTrack done
  | trackRemoved done => exact timed.removeTrack done
  | eventAdded _ done => exact timed.addEvent done
  | eventRemoved done => exact timed.removeEvent done
  | refreshed => exact timed_refresh timed.ordered
  | stored enough => exact Timed.rewind (timed.of_events rfl rfl (events_measured song enough))
  | rewound => exact timed.rewind
  | played done => exact timed.next? done
  | stood position? => exact timed.of_events rfl rfl rfl

open TempoMap (Grown)

section
variable {map : TempoMap S}

omit [Clock S] in
theorem grown_recount (ordered : song.tempoMap.Ordered) (grown : Grown map song.tempoMap) : Grown map song.recount.tempoMap :=
  grown.trans (.of_tally rfl rfl (ordered.tally_recount _))

theorem grown_refreshFrom (start : Nat) (ordered : song.tempoMap.Ordered) (grown : Grown map song.tempoMap) :
    Grown map (song.refreshFrom start).tempoMap :=
  grown.trans (.of_tally rfl rfl (ordered.tally_recount _))

theorem grown_refresh (ordered : song.tempoMap.Ordered) (grown : Grown map song.tempoMap) : Grown map song.refresh.tempoMap :=
  grown_refreshFrom 0 (ordered.resolve song.division) (grown.trans (TempoMap.grown_resolve _ _))

end

section
variable {track : Track S → Prop} {message : Message → Prop} {after : Song S}

theorem SteadyStep.grown (timed : song.Timed) (step : SteadyStep track message song after) :
    Grown song.tempoMap after.tempoMap := by
  have ordered := timed.ordered
  cases step with
  | formatted done =>
    obtain ⟨_, rfl⟩ := setFormat_ok done
    exact .refl _
  | metrical done =>
    obtain ⟨_, _, rfl⟩ := setTicksPerQuarter_ok done
    exact grown_refresh ordered (.refl song.tempoMap)
  | timecode done =>
    obtain ⟨_, rfl⟩ := setTimecode_ok done
    exact grown_refresh ordered (.refl song.tempoMap)
  | trackAdded _ done =>
    obtain ⟨_, _, _, rfl⟩ := addTrack_ok done
    exact grown_refreshFrom _ (ordered.registerAll _ _) (TempoMap.grown_registerAll _ _ _)
  | trackRemoved done =>
    obtain ⟨_, _, _, rfl⟩ := removeTrack_ok done
    exact grown_recount ordered (.refl song.tempoMap)
  | eventAdded _ done =>
    obtain ⟨_, _, _, _, _, rfl⟩ := addEvent_ok done
    exact grown_refreshFrom _ (ordered.register _ _ _) (TempoMap.grown_register _ _ _ _)
  | eventRemoved done =>
    obtain ⟨_, _, _, _, rfl⟩ := removeEvent_ok done
    exact grown_recount ordered (.refl song.tempoMap)
  | refreshed => exact grown_refresh ordered (.refl _)
  | stored enough => exact .refl _
  | rewound => exact .refl _
  | played done =>
    obtain ⟨_, _, _, _, _, _, rfl⟩ := next?_some done
    exact .refl _
  | stood position? => exact .refl _

theorem SteadySteps.grown (timed : song.Timed) (steps : SteadySteps track message song after) :
    Grown song.tempoMap after.tempoMap ∧ after.Timed := by
  induction steps with
  | refl => exact ⟨.refl _, timed⟩
  | tail _ step ih => exact ⟨ih.1.trans (step.grown ih.2), ih.2.steady step⟩

end

/-! ## Sessions -/

theorem timed_ofTracks (identity : Nat) (header : Header) (warnings : List Warning) (tracks : List (Track S)) :
    (ofTracks identity header warnings tracks).Timed := by
  refine Timed.rewind (timed_refreshFrom ?_ ?_ fun _ _ early => absurd early (Nat.not_lt_zero _))
  · exact (TempoMap.ordered_empty identity).registerAll _ _
  · exact (show (TempoMap.empty identity).Settled header.division from trivial).registerAll _

/-- No more references are counted at any entry than were taken, and the one of the map. -/
def HeldAtMost (count : Nat) (song : Song S) : Prop := ∀ entry ∈ song.tempoMap.entries, entry.references ≤ count + 1

omit [Clock S] in
theorem HeldAtMost.grown {count : Nat} {after : Song S} (bound : song.HeldAtMost count) (ordered : after.tempoMap.Ordered)
    (grown : Grown song.tempoMap after.tempoMap) : after.HeldAtMost count := by
  intro entry member
  have counted := ordered.references?_eq member
  rcases grown.references entry.id with same | ⟨_, _, single⟩
  · rw [counted] at same
    obtain ⟨old, found, alike⟩ := Option.map_eq_some_iff.mp same.symm
    exact alike ▸ bound old (List.mem_of_find?_eq_some found)
  · rw [counted, Option.some.injEq] at single
    rw [single]
    exact Nat.le_add_left 1 count

/-- The song is timed if so few references were taken that no count of them started over. -/
def TimedWithin (count : Nat) (song : Song S) : Prop := count < 0xFFFFFFFF → song.Timed ∧ song.HeldAtMost count

theorem TimedWithin.holdLastTempo {count : Nat} {entry : Entry S} {after : Song S} (within : song.TimedWithin count)
    (done : song.holdLastTempo = some (entry, after)) : after.TimedWithin (count + 1) := by
  intro few
  obtain ⟨timed, bound⟩ := within (Nat.lt_of_succ_lt few)
  have room : ∀ entry ∈ song.tempoMap.entries, entry.references < 0xFFFFFFFF :=
    fun entry member => Nat.lt_of_le_of_lt (bound entry member) few
  refine ⟨timed.holdLastTempo room done, ?_⟩
  obtain ⟨tempoMap, acquired, rfl⟩ := holdLastTempo_ok done
  obtain ⟨front, old, back, whole, _, rfl, rfl⟩ := timed.ordered.acquire_split room acquired
  have bound : ∀ entry ∈ front ++ old :: back, entry.references ≤ count + 1 := whole ▸ bound
  intro entry member
  rcases List.mem_append.mp member with early | member
  · exact Nat.le_succ_of_le (bound entry (List.mem_append_left _ early))
  · rcases List.mem_cons.mp member with rfl | late
    · exact Nat.succ_le_succ (bound old (by simp))
    · exact Nat.le_succ_of_le (bound entry (by simp [late]))

theorem TimedWithin.releaseTempo {count : Nat} {handle : Handle} {entry : Entry S} {after : Song S}
    (within : song.TimedWithin count) (done : song.releaseTempo handle = some (entry, after)) :
    after.TimedWithin count := by
  intro few
  obtain ⟨timed, bound⟩ := within few
  refine ⟨timed.releaseTempo done, ?_⟩
  obtain ⟨found, ⟨_, rfl⟩ | ⟨_, rfl⟩⟩ := releaseTempo_cases timed.ordered done
  · intro other member
    obtain ⟨old, inside, rfl⟩ := List.mem_map.mp member
    split
    · exact Nat.le_trans (Nat.sub_le ..) (bound entry (TempoMap.mem_of_find? found).1)
    · exact bound old inside
  · have without := (timed.ordered.without entry.id).resolve song.division
    have kept : HeldAtMost count { song with tempoMap :=
        { song.tempoMap with entries := song.tempoMap.entries.filter (·.id != entry.id) } } :=
      fun other member => bound other (List.mem_filter.mp member).1
    exact kept.grown (timed_refreshFrom without (TempoMap.settled_resolve _ _) fun _ _ early =>
      absurd early (Nat.not_lt_zero _)).ordered (grown_refreshFrom 0 without (TempoMap.grown_resolve _ _))

/-- The tempo entry in effect at a tick: none in front of the first entry, and none where ticks are
    parts of a film frame. -/
def sourceAt? (song : Song S) (tick : Nat) : Option Nat :=
  match song.division with
  | .metrical _ => (song.tempoMap.at? tick).map (·.id)
  | .timecode _ _ => none

theorem timeOf_eq (song : Song S) (tick : Nat) :
    song.tempoMap.timeOf song.division tick = ⟨song.secondsAt tick, song.sourceAt? tick⟩ := by
  unfold secondsAt sourceAt? TempoMap.timeOf
  cases song.division with
  | timecode rate resolution => rfl
  | metrical ticks => cases song.tempoMap.at? tick <;> rfl

section
variable [Workers]

/-- There is room for a reference that is taken if it is among those that can be counted. -/
theorem HeldAtMost.room {count number : Nat} (bound : song.HeldAtMost count) {mode : Mode} {workspace : Workspace S}
    (here : workspace.songs[number]? = some song)
    (few : count + (workspace.booking mode (.change number .holdLastTempo)).acquisitions < 0xFFFFFFFF)
    {result : Entry S × Song S} (done : song.holdLastTempo = some result) :
    ∀ entry ∈ song.tempoMap.entries, entry.references < 0xFFFFFFFF := by
  rw [Workspace.acquisitions_of_held here done] at few
  exact fun entry member => Nat.lt_of_le_of_lt (bound entry member) few

theorem grown_read {mode : Mode} {identity : Nat} {bytes : List UInt8}
    (done : (read mode identity bytes).result = .ok song) : Grown (TempoMap.empty identity) song.tempoMap := by
  obtain ⟨_, _, _, _, _, _, rfl⟩ := read_ok_iff.mp done
  exact grown_refreshFrom 0 ((TempoMap.ordered_empty identity).registerAll _ _) (TempoMap.grown_registerAll _ _ _)

theorem lasting_timed (mode : Mode) : Lasting (S := S) mode TimedWithin (fun _ => True) (fun _ => True) where
  empty _ identity _ :=
    ⟨⟨TempoMap.ordered_empty identity, trivial, by simp [events, empty], by simp [empty, TempoMap.empty]⟩,
      by simp [HeldAtMost, empty, TempoMap.empty]⟩
  read count identity bytes song result _ := by
    have timed : song.Timed := by
      obtain ⟨_, _, _, _, _, _, rfl⟩ := read_ok_iff.mp result
      exact timed_ofTracks _ _ _ _
    have none : HeldAtMost count (Song.empty identity : Song S) := by simp [HeldAtMost, empty, TempoMap.empty]
    exact ⟨timed, none.grown timed.ordered (grown_read result)⟩
  copy _ identity song within few := ⟨(within few).1.copy identity, (within few).2⟩
  later _ song within few := by
    obtain ⟨timed, bound⟩ := within (Nat.lt_of_succ_lt few)
    exact ⟨timed, fun entry member => Nat.le_succ_of_le (bound entry member)⟩
  steady _ song after within step few := by
    obtain ⟨timed, bound⟩ := within few
    exact ⟨timed.steady step, bound.grown (timed.steady step).ordered (step.grown timed)⟩
  held _ _ _ _ within done := within.holdLastTempo done
  released _ _ _ _ _ within done := within.releaseTempo done
  blank := trivial
  tracks _ _ _ _ _ := trivial
  removed _ _ _ _ _ _ _ := trivial
  drafts _ _ _ := trivial
  messages _ _ _ _ _ := trivial

/-- Every song of a session is timed if fewer references were taken than can be counted. -/
theorem session_timed {mode : Mode} {commands : List (Command S)}
    (few : Workspace.acquisitions mode commands < 0xFFFFFFFF) {song : Song S}
    (member : song ∈ (Workspace.session mode commands).songs) : song.Timed :=
  ((Workspace.session_keeps (lasting_timed mode) commands).songs song member few).1

/-- In every song of every session that took fewer references than can be counted, each event has the
    time of its tick and the entry in effect there, and every entry tells what is in effect from it
    on, so that working all of it out anew changes nothing at all. -/
theorem session_times_current (mode : Mode) (commands : List (Command S))
    (few : Workspace.acquisitions mode commands < 0xFFFFFFFF) {song : Song S}
    (member : song ∈ (Workspace.session mode commands).songs) :
    (∀ event ∈ song.events, event.cached? = some ⟨song.secondsAt event.tick, song.sourceAt? event.tick⟩) ∧
      song.tempoMap.resolve song.division = song.tempoMap ∧ song.refresh = song := by
  have timed := session_timed few member
  refine ⟨?_, TempoMap.resolve_eq_self_iff.mpr timed.settled, timed.refresh_eq_self⟩
  intro event inside
  rw [← timeOf_eq]
  exact timed.timely event inside

end

/-- A tempo set in front of an event that was there before, and taken out again behind its entry. -/
private def tempoCommands : List (Command Float) :=
  [.create, .change 0 (.addTrack .new), .change 0 (.addEvent 0 (.new (.bytes [0x90, 60, 64])) (.tick 240)),
    .change 0 (.addEvent 0 (.new (.tempo 400000)) (.tick 120)), .change 0 (.removeEvent 0 0)]

theorem session_times_current_moved_tempo :
    Workspace.acquisitions .strict tempoCommands < 0xFFFFFFFF ∧
      ∃ song ∈ (Workspace.session .strict tempoCommands).songs,
        (song.events.map fun event => (event.tick, event.source?)) = [(240, some 0)] ∧
          ∀ event ∈ song.events, event.cached? = some ⟨song.secondsAt event.tick, song.sourceAt? event.tick⟩ :=
  have few : Workspace.acquisitions .strict tempoCommands < 0xFFFFFFFF := by decide
  ⟨few, _, List.mem_singleton.mpr rfl, rfl,
    (session_times_current .strict tempoCommands few (List.mem_singleton.mpr rfl)).1⟩

end Song

end MidiFile
