import MidiFile.Proofs.Song.Insertion
import MidiFile.Proofs.TempoMap.Commute
import Mathlib.Data.List.Count

/-! # Messages added in either order

Two messages that are added at different ticks, or to different tracks without setting the same in
the tempo map, can be added in either order. Each order moves the end of a track at another moment and
works other times out in between, but apart from times (`Song.put_comm`) both come to the same tracks
and to the same tempo map, up to the numbers of entries that are new. A song whose tempo entries have
other numbers is timed as it was (`Timed.renamed`), so that the two songs are the same throughout.
-/

namespace MidiFile

variable {S : Type}

/-- The event with the entry that its time was worked out from under another number. -/
def Event.renamed (rename : Nat → Nat) (event : Event S) : Event S :=
  { event with cached? := event.cached?.map fun cached => { cached with source? := cached.source?.map rename } }

/-- The track with the tempo entries under other numbers. -/
def Track.renamed (rename : Nat → Nat) (track : Track S) : Track S :=
  { track with events := track.events.map (Event.renamed rename) }

/-- The song with its tempo entries under other numbers. -/
def Song.renamed (rename : Nat → Nat) (song : Song S) : Song S :=
  { song with tracks := song.tracks.map (Track.renamed rename), tempoMap := song.tempoMap.renamed rename }

/-- What stays where it is from some number on, does not get there from below. -/
theorem lt_of_fixed {rename : Equiv.Perm Nat} {bound id : Nat} (fixed : ∀ id, bound ≤ id → rename id = id)
    (below : id < bound) : rename id < bound := by
  by_contra beyond
  have again := fixed (rename id) (Nat.le_of_not_lt beyond)
  have same := rename.injective again
  omega

namespace TempoMap

variable {map : TempoMap S}

theorem at?_renamed (rename : Nat → Nat) (map : TempoMap S) (tick : Nat) :
    (map.renamed rename).at? tick = (map.at? tick).map (Entry.renamed rename) := by
  have live : (map.renamed rename).live = map.live.map (Entry.renamed rename) := by
    rw [TempoMap.live, renamed, mapEntries, List.filter_map]
    rfl
  rw [at?, live, List.filter_map, List.getLast?_map]
  rfl

theorem Ordered.renamed (ordered : map.Ordered) {rename : Equiv.Perm Nat}
    (fixed : ∀ id, map.nextId ≤ id → rename id = id) : (map.renamed rename).Ordered := by
  have ticks : (map.renamed rename).entries.map (·.tick) = map.entries.map (·.tick) := by
    rw [TempoMap.renamed, mapEntries, List.map_map]
    rfl
  have ids : (map.renamed rename).entries.map (·.id) = (map.entries.map (·.id)).map rename := by
    rw [TempoMap.renamed, mapEntries, List.map_map, List.map_map]
    rfl
  refine ⟨ticks ▸ ordered.ticks, ids ▸ ordered.ids.map rename.injective, ?_, List.forall_mem_map.mpr ordered.held⟩
  intro id member
  rw [ids] at member
  obtain ⟨old, given, rfl⟩ := List.mem_map.mp member
  exact lt_of_fixed fixed (ordered.fresh old given)

variable [Clock S]

theorem timeOf_renamed (rename : Nat → Nat) (division : Division) (tick : Nat) (map : TempoMap S) :
    (map.renamed rename).timeOf division tick =
      { map.timeOf division tick with source? := (map.timeOf division tick).source?.map rename } := by
  cases division with
  | timecode rate resolution => rfl
  | metrical ticks =>
    rw [timeOf, timeOf, at?_renamed]
    cases map.at? tick <;> rfl

end TempoMap

namespace Song

section
variable [Clock S] {song : Song S}

omit [Clock S] in
theorem events_renamed (rename : Nat → Nat) (song : Song S) :
    (song.renamed rename).events = song.events.map (Event.renamed rename) := events_map song (Event.renamed rename)

/-- Times are worked out alike under other numbers. -/
theorem Timed.renamed (timed : song.Timed) {rename : Equiv.Perm Nat}
    (fixed : ∀ id, song.tempoMap.nextId ≤ id → rename id = id) : (song.renamed rename).Timed := by
  have sources : (song.renamed rename).events.filterMap Event.source? = (song.events.filterMap Event.source?).map rename := by
    rw [events_renamed, List.filterMap_map, List.map_filterMap]
    refine List.filterMap_congr fun event _ => ?_
    rw [Function.comp_apply, Event.source?, Event.source?, Event.renamed]
    cases event.cached? <;> rfl
  refine ⟨timed.ordered.renamed fixed, ?_, ?_, ?_⟩
  · have settled := TempoMap.resolve_eq_self_iff.mpr timed.settled
    have resolved := TempoMap.resolve_renamed rename song.division song.tempoMap
    rw [settled] at resolved
    exact TempoMap.resolve_eq_self_iff.mp resolved
  · intro event member
    rw [events_renamed] at member
    obtain ⟨old, among, rfl⟩ := List.mem_map.mp member
    have timely := timed.timely old among
    rw [IsTimely] at timely ⊢
    exact (congrArg (Option.map _) timely).trans
      (congrArg some (TempoMap.timeOf_renamed rename song.division old.tick song.tempoMap).symm)
  · intro entry member
    obtain ⟨old, among, rfl⟩ := List.mem_map.mp member
    rw [sources]
    exact (timed.counted old among).trans (List.count_map_of_injective _ _ rename.injective _).symm

omit [Clock S] in
theorem untimed_renamed (rename : Nat → Nat) (song : Song S) :
    (song.renamed rename).untimed = { song.untimed with tempoMap := song.untimed.tempoMap.renamed rename } := by
  have tracks : (song.tracks.map (Track.renamed rename)).map Track.untimed = song.tracks.map Track.untimed := by
    rw [List.map_map]
    refine List.map_congr_left fun track _ => ?_
    rw [Function.comp_apply, Track.untimed, Track.renamed, List.map_map]
    rfl
  have entries : (song.tempoMap.renamed rename).idle = song.tempoMap.idle.renamed rename := by
    simp only [TempoMap.idle, TempoMap.renamed, TempoMap.mapEntries, List.map_map]
    rfl
  rw [untimed, renamed, tracks, entries]
  rfl

end

end Song

/-- Messages of different ticks go into a track in either order. -/
theorem Track.untimed_put_comm {number : Nat} {track : Track S} (regular : Regular 0 0 track.events)
    (knows : track.Knows number) {first second : Message} (notEnd : first.isEnd = false) (notEndToo : second.isEnd = false)
    {tick other : Nat} (apart : tick ≠ other) :
    ((track.put first tick).put second other).untimed = ((track.put second other).put first tick).untimed := by
  have one : Regular 0 0 (track.put first tick).events := regular_put regular (accepts_of_not_end notEnd)
  have two : Regular 0 0 (track.put second other).events := regular_put regular (accepts_of_not_end notEndToo)
  refine untimed_rewind_of_frame (frame_of_timeline
    (regular_place two (accepts_of_not_end notEnd)) (regular_place one (accepts_of_not_end notEndToo))
    ((knows.put second other).place first tick) ((knows.put first tick).place second other) ?_) ?_
  · rw [timeline_place one notEndToo, timeline_place two notEnd, timeline_put, timeline_put, timeline_place regular notEnd,
      timeline_place regular notEndToo]
    exact Timeline.place_comm notEnd notEndToo apart _
  · show (track.put first tick).bodySize = (track.put second other).bodySize
    rw [bodySize_put, bodySize_put]

/-- A message that is to be added to a track at a tick. -/
structure Insertion where
  track : Nat
  message : Message
  tick : Nat

namespace Insertion

/-- The message is not the end of its track, the track is there, and there is room for the tick. -/
structure Fits (song : Song S) (insertion : Insertion) : Prop where
  inside : insertion.track < song.tracks.length
  within : insertion.tick ≤ greatestTick
  notEnd : insertion.message.isEnd = false

/-- The messages are added at different ticks, or to different tracks without both setting the tempo
    or both setting the time signature. -/
def Independent (first second : Insertion) : Prop :=
  first.tick ≠ second.tick ∨ first.track ≠ second.track ∧
    ¬(first.message.tempo?.isSome = true ∧ second.message.tempo?.isSome = true) ∧
    ¬(first.message.timeSignature?.isSome = true ∧ second.message.timeSignature?.isSome = true)

variable [Clock S] {song : Song S} {first second : Insertion}

/-- Add the message. -/
def add (insertion : Insertion) : Edit S Nat := Song.addEvent insertion.track insertion.message insertion.tick

/-- Add messages one after another. The results are the numbers that their events get. -/
def addAll (insertions : List Insertion) : Edit S (List Nat) := insertions.mapM add

/-- The song with the message, before times are worked out. -/
def put (insertion : Insertion) (song : Song S) : Song S := song.put insertion.track insertion.message insertion.tick

theorem exists_add {insertion : Insertion} (timed : song.Timed) (fits : insertion.Fits song) : ∃ place after,
    insertion.add song = .ok place after ∧ after.Timed ∧ after.untimed = insertion.put song.untimed ∧
      after.tracks.length = song.tracks.length := by
  obtain ⟨track, here⟩ : ∃ track, song.tracks[insertion.track]? = some track := ⟨_, List.getElem?_eq_getElem fits.inside⟩
  have added := (Song.addEvent_ok_iff here fits.within).mpr ⟨Track.accepts_of_not_end fits.notEnd, rfl, rfl⟩
  refine ⟨_, _, added, timed.addEvent added, ?_, ?_⟩
  · have ordered : (insertion.put song).tempoMap.Ordered := timed.ordered.register _ _ _
    exact (Song.untimed_refreshFrom ordered _).trans (Song.untimed_put _ _ _ song)
  · simp [Song.put]

/-- Two messages that fit can be added one after the other. -/
theorem exists_addAll (timed : song.Timed) (fits : first.Fits song) (fitsToo : second.Fits song) : ∃ places after,
    addAll [first, second] song = .ok places after ∧ after.Timed ∧
      after.untimed = second.put (first.put song.untimed) := by
  obtain ⟨place, between, added, timedBetween, untimed, length⟩ := exists_add timed fits
  have fitsBetween : second.Fits between := ⟨length ▸ fitsToo.inside, fitsToo.within, fitsToo.notEnd⟩
  obtain ⟨placeToo, after, addedToo, timedAfter, untimedToo, _⟩ := exists_add timedBetween fitsBetween
  refine ⟨[place, placeToo], after, ?_, timedAfter, by rw [untimedToo, untimed]⟩
  simp only [addAll, List.mapM_cons, List.mapM_nil, step_bind_ok_iff]
  exact ⟨place, between, added, [placeToo], after, ⟨placeToo, after, addedToo, [], after, rfl, rfl⟩, rfl⟩

/-- Apart from times, independent messages go into a song in either order. -/
theorem put_comm (sound : song.Sound) (timed : song.Timed) (fits : first.Fits song) (fitsToo : second.Fits song)
    (independent : first.Independent second) :
    ∃ rename : Equiv.Perm Nat,
      (∀ id, id < song.tempoMap.nextId ∨ (second.put (first.put song.untimed)).tempoMap.nextId ≤ id → rename id = id) ∧
      second.put (first.put song.untimed) = { first.put (second.put song.untimed) with
        tempoMap := (first.put (second.put song.untimed)).tempoMap.renamed rename } := by
  have tracks : ((song.tracks.map Track.untimed).modify first.track (Track.put first.message first.tick)).modify
        second.track (Track.put second.message second.tick) =
      ((song.tracks.map Track.untimed).modify second.track (Track.put second.message second.tick)).modify
        first.track (Track.put first.message first.tick) := by
    by_cases apart : first.track = second.track
    · obtain ⟨track, here⟩ : ∃ track, song.tracks[first.track]? = some track :=
        ⟨_, List.getElem?_eq_getElem fits.inside⟩
      have ticks : first.tick ≠ second.tick := independent.resolve_right fun other => other.1 apart
      have regular := (sound.inOrder track (List.mem_of_getElem? here)).regular
      have either := Track.untimed_put_comm regular (sound.knows _ track here) fits.notEnd fitsToo.notEnd ticks
      have there : (song.tracks.map Track.untimed)[first.track]? = some track.untimed := by
        rw [List.getElem?_map, here]
        rfl
      rw [← apart, List.modify_modify_eq, List.modify_modify_eq]
      refine modify_congr there ?_
      rw [Function.comp_apply, Function.comp_apply]
      simpa only [Track.untimed_put] using either
    · exact List.modify_modify_ne _ _ _ apart
  have ordered : song.tempoMap.idle.Ordered := timed.ordered.of_course (TempoMap.course_idle _) rfl
  obtain ⟨rename, fixed, tempoMap⟩ := TempoMap.register_comm ordered song.division (independent.imp id And.right)
  exact ⟨rename, fixed, congrArg₂ (fun tracks tempoMap => ({ song with tracks := tracks, tempoMap := tempoMap } : Song S))
    tracks tempoMap⟩

end Insertion

namespace Song

variable [Clock S]

/-- Whatever was done in a session that took fewer references than can be counted, two messages that are
    independent can be added in either order: the songs that this makes are the same in all, but for the
    numbers of tempo entries that are new. -/
theorem session_insertions_commute [Workers] (mode : Mode) (commands : List (Command S))
    (few : Workspace.acquisitions mode commands < 0xFFFFFFFF) {song : Song S}
    (member : song ∈ (Workspace.session mode commands).songs) {first second : Insertion} (fits : first.Fits song)
    (fitsToo : second.Fits song) (independent : first.Independent second) :
    ∃ places one placesToo other, ∃ rename : Equiv.Perm Nat,
      Insertion.addAll [first, second] song = .ok places one ∧
        Insertion.addAll [second, first] song = .ok placesToo other ∧ one = other.renamed rename ∧
        ∀ id, id < song.tempoMap.nextId ∨ one.tempoMap.nextId ≤ id → rename id = id := by
  have sound := session_sound mode commands member
  have timed := session_timed few member
  obtain ⟨places, one, added, timedOne, untimedOne⟩ := Insertion.exists_addAll timed fits fitsToo
  obtain ⟨placesToo, other, addedToo, timedOther, untimedOther⟩ := Insertion.exists_addAll timed fitsToo fits
  obtain ⟨rename, fixed, same⟩ := Insertion.put_comm sound timed fits fitsToo independent
  rw [← untimedOne] at fixed same
  rw [← untimedOther] at same
  have next : other.tempoMap.nextId = one.tempoMap.nextId := (congrArg (fun song : Song S => song.tempoMap.nextId) same).symm
  have timedRenamed := timedOther.renamed fun id late => fixed id (.inr (Nat.le_trans (Nat.le_of_eq next.symm) late))
  exact ⟨places, one, placesToo, other, rename, added, addedToo,
    timedOne.eq_of_untimed timedRenamed (same.trans (untimed_renamed rename other).symm), fixed⟩

/-- A note on a track of its own. -/
private def soloCommands : List (Command Float) :=
  [.create, .change 0 (.addTrack .new), .change 0 (.addEvent 0 (.new (.bytes [0x90, 60, 64])) (.tick 96))]

private def earlyTempo : Insertion := ⟨0, .metadata 0x51 [3, 0x07, 0xA1, 0x20], 24⟩

private def lateTempo : Insertion := ⟨0, .metadata 0x51 [3, 0x06, 0x1A, 0x80], 48⟩

/-- Two tempos in front of the note, each of which makes a new entry. -/
theorem session_insertions_commute_tempos :
    Workspace.acquisitions .strict soloCommands < 0xFFFFFFFF ∧
      ∃ song ∈ (Workspace.session .strict soloCommands).songs, ∃ one other, ∃ rename : Equiv.Perm Nat,
      Insertion.addAll [lateTempo, earlyTempo] song = .ok [0, 0] one ∧
        Insertion.addAll [earlyTempo, lateTempo] song = .ok [0, 1] other ∧ one = other.renamed rename ∧
        (one.tempoMap.entries.map fun entry => (entry.tick, entry.id)) = [(24, 1), (48, 0)] ∧
        (other.tempoMap.entries.map fun entry => (entry.tick, entry.id)) = [(24, 0), (48, 1)] := by
  obtain ⟨song, one, other, songs, length, done, doneToo, entries, entriesToo⟩ :
      ∃ song one other, (Workspace.session .strict soloCommands).songs = [song] ∧ song.tracks.length = 1 ∧
        Insertion.addAll [lateTempo, earlyTempo] song = .ok [0, 0] one ∧
        Insertion.addAll [earlyTempo, lateTempo] song = .ok [0, 1] other ∧
        (one.tempoMap.entries.map fun entry => (entry.tick, entry.id)) = [(24, 1), (48, 0)] ∧
        (other.tempoMap.entries.map fun entry => (entry.tick, entry.id)) = [(24, 0), (48, 1)] :=
    ⟨_, _, _, rfl, rfl, rfl, rfl, rfl, rfl⟩
  have member : song ∈ (Workspace.session .strict soloCommands).songs := songs ▸ List.mem_singleton_self song
  have inside : 0 < song.tracks.length := by omega
  have fits : lateTempo.Fits song := ⟨inside, by decide, rfl⟩
  have fitsToo : earlyTempo.Fits song := ⟨inside, by decide, rfl⟩
  have few : Workspace.acquisitions .strict soloCommands < 0xFFFFFFFF := by decide
  obtain ⟨_, _, _, _, rename, added, addedToo, same, _⟩ :=
    session_insertions_commute .strict soloCommands few member fits fitsToo (.inl (by decide))
  cases done.symm.trans added
  cases doneToo.symm.trans addedToo
  exact ⟨few, song, member, one, other, rename, done, doneToo, same, entries, entriesToo⟩

end Song

end MidiFile
