import MidiFile.Proofs.Song.Rebuild
import MidiFile.Proofs.Track.Timeline

/-! # Adding a message and taking it out again

What adding a message does to a song is said apart from times in seconds (`Song.put`): one track gets
an event and has its cursor back at the start, and the tempo map takes over what the message sets.
All else follows in a timed song. An added message goes where the timeline of its track says
(`session_inserts_sorted`), and taking it out at once leaves nothing of it but the cursor
(`session_removes_added`), unless it set something in the tempo map.
-/

namespace MidiFile

variable {S : Type}

namespace Track

variable {message : Message} {tick : Nat} {track other : Track S}

@[simp] theorem timeline_rewind (track : Track S) : track.rewind.timeline = track.timeline := by
  rw [timeline, events_rewind, timeline]

@[simp] theorem timeline_put (message : Message) (tick : Nat) (track : Track S) :
    (track.put message tick).timeline = (track.place message tick).2.timeline := timeline_rewind _

/-- What a track in its place is made of, less the times in seconds. -/
theorem Knows.frame_eq {number : Nat} (knows : track.Knows number) : track.frame = (some number,
    (track.events.map Event.core).map fun core => ⟨core.1, core.2.1, core.2.2.1, some number, core.2.2.2, none⟩) := by
  refine Prod.ext knows.itself ?_
  rw [frame, List.map_map]
  apply List.map_congr_left
  intro event member
  rw [Event.untimed, knows.events event member]
  rfl

/-- Tracks in one place that have the same timeline differ in times, sizes and cursors at most. -/
theorem frame_of_timeline {number : Nat} (regular : Regular 0 0 track.events) (regularToo : Regular 0 0 other.events)
    (knows : track.Knows number) (knowsToo : other.Knows number) (same : other.timeline = track.timeline) :
    other.frame = track.frame := by
  rw [knowsToo.frame_eq, knows.frame_eq, cores_of_timeline regular regularToo same]

theorem untimed_rewind_of_frame (frame : other.frame = track.frame) (size : other.bodySize = track.bodySize) :
    other.rewind.untimed = track.rewind.untimed := by
  obtain ⟨number, events⟩ := Prod.mk.inj frame
  rw [untimed_rewind, untimed_rewind, untimed, untimed, number, events, size]
  exact rewind_mk _ _ _ _ _

/-- The end in a timeline is the last event of its track. -/
theorem isEnded_of_mem_ending (regular : Regular 0 0 track.events) {cue : Nat × Message}
    (member : cue ∈ Timeline.ending track.timeline) : track.isEnded = true ∧ track.endTick = cue.1 := by
  obtain ⟨whole, single⟩ := Timeline.parts_of_ends (ends_timeline regular)
  have only : Timeline.ending track.timeline = [cue] := by
    obtain ⟨first, found⟩ := List.length_eq_one_iff.mp (Nat.le_antisymm single (List.length_pos_of_mem member))
    rw [found] at member ⊢
    rw [List.mem_singleton.mp member]
  rw [only] at whole
  obtain ⟨init, last, events, _, cues⟩ := List.map_eq_append_iff.mp whole
  obtain ⟨event, rfl, rfl⟩ := List.map_eq_singleton_iff.mp cues
  have isEnd : event.message.isEnd = true := (Timeline.mem_ending_iff.mp member).2
  exact ⟨isEnded_eq_true_iff.mpr ⟨init, event, events, isEnd⟩, by simp [endTick, last?, events, Event.cue]⟩

/-- A message that is not the end goes between the parts of a timeline. -/
theorem exists_parted_place (regular : Regular 0 0 track.events) (notEnd : message.isEnd = false) (tick : Nat) :
    ∃ front back, Timeline.Parted tick track.timeline front back (Timeline.ending track.timeline) ∧
      (track.place message tick).1 = front.length ∧ (track.place message tick).2.timeline =
        front ++ (tick, message) :: (back ++ (Timeline.ending track.timeline).map (Timeline.raise tick)) := by
  obtain ⟨front, back, parted, counted, placed⟩ :=
    Timeline.exists_parted (ends_timeline regular) (sorted_timeline regular) (tick, message)
  refine ⟨front, back, parted, ?_, ?_⟩
  · rw [number_place regular notEnd, counted]
  · rw [timeline_place regular notEnd, placed]

/-- An end that is accepted goes behind all else. -/
theorem place_end (regular : Regular 0 0 track.events) (accepts : track.Accepts message tick)
    (isEnd : message.isEnd = true) : (track.place message tick).1 = track.timeline.length ∧
      (track.place message tick).2.timeline = track.timeline ++ [(tick, message)] := by
  have upTo : ∀ event ∈ track.events, event.tick ≤ tick := fun event member =>
    Nat.le_trans (le_endTick regular event member) (accepts isEnd).2
  obtain ⟨number, timeline⟩ := timeline_place_end isEnd upTo
  exact ⟨number.trans (List.length_map _).symm, timeline⟩

/-- A message that goes in without the end being moved leaves all else as it was. -/
theorem eraseIdx_timeline_place (regular : Regular 0 0 track.events) (accepts : track.Accepts message tick)
    (notPast : track.isEnded = true → tick ≤ track.endTick) :
    (track.place message tick).2.timeline.eraseIdx (track.place message tick).1 = track.timeline := by
  by_cases isEnd : message.isEnd = true
  · obtain ⟨number, timeline⟩ := place_end regular accepts isEnd
    rw [number, timeline, List.eraseIdx_append_of_length_le (Nat.le_refl _)]
    simp
  · obtain ⟨front, back, parted, number, timeline⟩ := exists_parted_place regular (by simpa using isEnd) tick
    have kept : (Timeline.ending track.timeline).map (Timeline.raise tick) = Timeline.ending track.timeline := by
      refine map_eq_self fun cue member => ?_
      obtain ⟨ended, endTick⟩ := isEnded_of_mem_ending regular member
      exact Prod.ext (Nat.max_eq_left (endTick ▸ notPast ended)) rfl
    rw [number, timeline, kept, List.eraseIdx_append_of_length_le (Nat.le_refl _)]
    simpa using parted.whole.symm

theorem exists_remove {number : Nat} {event : Event S} (here : track.events[number]? = some event) :
    ∃ left, track.remove number = .ok (event.detach, left) ∧ left.bodySize = track.bodySize := by
  rw [remove, here]
  exact ⟨_, rfl, rfl⟩

@[simp] theorem bodySize_rewind (track : Track S) : track.rewind.bodySize = track.bodySize := by
  rw [rewind]
  split <;> rfl

theorem regular_put (regular : Regular 0 0 track.events) (accepts : track.Accepts message tick) :
    Regular 0 0 (track.put message tick).events := by
  rw [put, events_rewind]
  exact regular_place regular accepts

theorem Knows.put {number : Nat} (knows : track.Knows number) (message : Message) (tick : Nat) :
    (track.put message tick).Knows number := (knows.place message tick).rewind

@[simp] theorem bodySize_put (message : Message) (tick : Nat) (track : Track S) :
    (track.put message tick).bodySize = track.bodySize := bodySize_rewind _

/-- Taking out what was just added leaves the track as it was, but for times and the cursor. -/
theorem remove_put {number : Nat} (regular : Regular 0 0 track.events) (knows : track.Knows number)
    (accepts : track.Accepts message tick) (notPast : track.isEnded = true → tick ≤ track.endTick) :
    ∃ left, (track.put message tick).remove (track.place message tick).1 = .ok (Event.ofMessage message, left) ∧
      left.rewind.untimed = track.rewind.untimed := by
  obtain ⟨event, here, cue⟩ := Option.map_eq_some_iff.mp (getElem?_place message tick track)
  have there : (track.put message tick).events[(track.place message tick).1]? = some event := by
    rw [put, events_rewind, here]
  obtain ⟨left, done, size⟩ := exists_remove there
  have detached : event.detach = Event.ofMessage message := congrArg Event.ofMessage (congrArg Prod.snd cue)
  have timeline : left.timeline = track.timeline := by
    rw [timeline_remove done, timeline_put, eraseIdx_timeline_place regular accepts notPast]
  have frame : left.frame = track.frame := frame_of_timeline regular
    (regular_remove (regular_put regular accepts) done) knows ((knows.put message tick).remove done) timeline
  exact ⟨left, detached ▸ done, untimed_rewind_of_frame frame (size.trans (bodySize_put _ _ _))⟩

end Track

/-! ## Songs -/

namespace Song

section
variable [Clock S] {song after : Song S} {number tick place : Nat} {message : Message} {track : Track S}

/-- Taking an event out is no matter of times. -/
theorem removeEvent_of_untimed {other left : Song S} {removed : Event S} (ordered : song.tempoMap.Ordered)
    (orderedToo : other.tempoMap.Ordered) (same : other.untimed = song.untimed)
    (done : removeEvent number place song = .ok removed left) :
    ∃ otherLeft, removeEvent number place other = .ok removed otherLeft ∧ otherLeft.untimed = left.untimed := by
  obtain ⟨old, new, here, taken, rfl⟩ := removeEvent_ok done
  have tracks : other.tracks.map Track.untimed = song.tracks.map Track.untimed := congrArg Song.tracks same
  have listed : (other.tracks.map Track.untimed)[number]? = some old.untimed := by
    rw [tracks, List.getElem?_map, here]
    rfl
  obtain ⟨twin, found, alike⟩ := Option.map_eq_some_iff.mp (List.getElem?_map .. ▸ listed)
  have removes := congrArg (Track.remove place) alike
  rw [Track.remove_untimed, Track.remove_untimed, taken] at removes
  obtain ⟨⟨event, twinNew⟩, twinTaken, pair⟩ := map_ok_iff.mp removes
  obtain ⟨rfl, untimed⟩ := Prod.mk.inj pair
  refine ⟨recount { other with tracks := other.tracks.set number twinNew.rewind }, ?_, ?_⟩
  · simp only [removeEvent, found, twinTaken]
  · have rewound : twinNew.rewind.untimed = new.rewind.untimed := by
      rw [Track.untimed_rewind, Track.untimed_rewind, untimed]
    have changed : (other.tracks.set number twinNew.rewind).map Track.untimed =
        (song.tracks.set number new.rewind).map Track.untimed := by
      rw [List.map_set, List.map_set, tracks, rewound]
    rw [untimed_recount orderedToo, untimed_recount ordered]
    exact congrArg₂ (fun other tracks => { other with tracks := tracks }) same changed

/-- A song without a message that was just added is the song in front of that, but for times and one
    cursor, which is back at the start. -/
theorem removeEvent_put (sound : song.Sound) (ordered : song.tempoMap.Ordered)
    (here : song.tracks[number]? = some track) (accepts : track.Accepts message tick)
    (nothing : message.changesTempo = false) (notPast : track.isEnded = true → tick ≤ track.endTick) :
    ∃ left, removeEvent number (track.place message tick).1 (song.put number message tick) =
        .ok (Event.ofMessage message) left ∧
      left.untimed = untimed { song with tracks := song.tracks.set number track.rewind } := by
  have regular := (sound.inOrder track (List.mem_of_getElem? here)).regular
  obtain ⟨new, taken, rewound⟩ := Track.remove_put regular (sound.knows number track here) accepts notPast
  have found : (song.put number message tick).tracks[number]? = some (track.put message tick) := by simp [put, here]
  refine ⟨recount { song.put number message tick with
    tracks := (song.put number message tick).tracks.set number new.rewind }, by simp only [removeEvent, found, taken], ?_⟩
  have tempoMap : (song.put number message tick).tempoMap = song.tempoMap := TempoMap.register_of_silent _ _ nothing
  have tracks : (song.put number message tick).tracks.set number new.rewind = song.tracks.set number new.rewind := by
    rw [put, ← set_eq_modify here (Track.put message tick), List.set_set]
  have orderedPut : (song.put number message tick).tempoMap.Ordered := ordered.register _ _ _
  rw [untimed_recount orderedPut, untimed, untimed, tempoMap, tracks, List.map_set, List.map_set, rewound]
  rfl

omit [Clock S] in
/-- The timelines of the tracks of a song. -/
def timelines (song : Song S) : List (List (Nat × Message)) := song.tracks.map Track.timeline

omit [Clock S] in
theorem timelines_eq (song : Song S) : song.timelines = (song.tracks.map Track.untimed).map Track.timeline := by
  have own (track : Track S) : track.untimed.timeline = track.timeline := by
    rw [Track.timeline, Track.untimed, List.map_map]
    rfl
  simp [timelines, own]

/-- Adding a message changes the timeline of its track and no other. -/
theorem timelines_put (here : song.tracks[number]? = some track) (message : Message) (tick : Nat) :
    (refreshFrom tick (song.put number message tick)).timelines =
      song.timelines.set number (track.place message tick).2.timeline := by
  rw [timelines_eq, tracks_untimed_refreshFrom, ← timelines_eq, timelines, put, ← set_eq_modify here, List.map_set,
    Track.timeline_put]
  rfl

/-- Whatever was done in a session, a message that is not the end of its track is added behind all that
    come at its tick or before, and the end of the track stays behind it: nothing else in any timeline
    changes than that the end moves up to the tick where it came before it. An end is accepted by a
    track that has none and ends no later, and it is the last of it then. Counting the tick from the
    last event is no different, as long as there is room for the tick. -/
theorem session_inserts_sorted [Workers] (mode : Mode) (commands : List (Command S)) {song : Song S}
    (member : song ∈ (Workspace.session mode commands).songs) {number : Nat} {track : Track S}
    (here : song.tracks[number]? = some track) (message : Message) {tick : Nat} (within : tick ≤ greatestTick) :
    (message.isEnd = false → ∃ front back ending after,
      Timeline.Parted tick track.timeline front back ending ∧
        addEvent number message tick song = .ok front.length after ∧
        after.timelines =
          song.timelines.set number (front ++ (tick, message) :: (back ++ ending.map (Timeline.raise tick)))) ∧
      (message.isEnd = true →
        ((∃ place after, addEvent number message tick song = .ok place after) ↔
          track.isEnded = false ∧ track.endTick ≤ tick) ∧
        ∀ place after, addEvent number message tick song = .ok place after →
          place = track.timeline.length ∧ after.timelines = song.timelines.set number (track.timeline ++ [(tick, message)])) ∧
      ∀ delta, addEventAfter number message delta song =
        if track.endTick + delta ≤ greatestTick then addEvent number message (track.endTick + delta) song
        else .error (.misuse .tickOverflow) song := by
  have regular := ((session_sound mode commands member).inOrder track (List.mem_of_getElem? here)).regular
  refine ⟨?_, ?_, ?_⟩
  · intro notEnd
    obtain ⟨front, back, parted, place, timeline⟩ := Track.exists_parted_place regular notEnd tick
    have added := (addEvent_ok_iff here within).mpr ⟨Track.accepts_of_not_end notEnd, place.symm, rfl⟩
    exact ⟨front, back, _, _, parted, added, by rw [timelines_put here, timeline]⟩
  · intro isEnd
    refine ⟨⟨?_, ?_⟩, ?_⟩
    · rintro ⟨place, after, done⟩
      exact ((addEvent_ok_iff here within).mp done).1 isEnd
    · intro accepts
      exact ⟨_, _, (addEvent_ok_iff here within).mpr ⟨fun _ => accepts, rfl, rfl⟩⟩
    · intro place after done
      obtain ⟨accepts, rfl, rfl⟩ := (addEvent_ok_iff here within).mp done
      obtain ⟨last, timeline⟩ := Track.place_end regular accepts isEnd
      exact ⟨last, by rw [timelines_put here, timeline]⟩
  · intro delta
    have tick : song.tracks[number]?.elim 0 Track.endTick = track.endTick := by rw [here]; rfl
    rw [addEventAfter, tick]
    by_cases room : track.endTick + delta ≤ greatestTick
    · rw [if_pos room]
    · rw [if_neg room]
      simp [addEvent, here, Nat.lt_of_not_le room]

/-- A note, and the end of its track some ticks behind it. -/
private def endedCommands : List (Command Float) :=
  [.create, .change 0 (.addTrack .new), .change 0 (.addEvent 0 (.new (.bytes [0x90, 60, 64])) (.tick 48)),
    .change 0 (.addEvent 0 (.new .endOfTrack) (.tick 96))]

/-- A note behind the end takes the end with it. -/
theorem session_inserts_sorted_behind_end :
    ∃ song ∈ (Workspace.session .strict endedCommands).songs, ∃ track, song.tracks[0]? = some track ∧
      track.timeline = [(48, .voice 0x90 [60, 64]), (96, Message.endOfTrack)] ∧
      ∃ front back ending after, Timeline.Parted 120 track.timeline front back ending ∧
        addEvent 0 (.voice 0x80 [60, 64]) 120 song = .ok front.length after ∧
        after.timelines = [front ++ (120, .voice 0x80 [60, 64]) :: (back ++ ending.map (Timeline.raise 120))] ∧
        after.timelines = [[(48, .voice 0x90 [60, 64]), (120, .voice 0x80 [60, 64]), (120, Message.endOfTrack)]] := by
  obtain ⟨song, track, added, songs, here, timeline, timelines, done, result⟩ :
      ∃ song track added, (Workspace.session .strict endedCommands).songs = [song] ∧ song.tracks[0]? = some track ∧
        track.timeline = [(48, .voice 0x90 [60, 64]), (96, Message.endOfTrack)] ∧
        song.timelines = [[(48, .voice 0x90 [60, 64]), (96, Message.endOfTrack)]] ∧
        addEvent 0 (.voice 0x80 [60, 64]) 120 song = .ok 1 added ∧
        added.timelines = [[(48, .voice 0x90 [60, 64]), (120, .voice 0x80 [60, 64]), (120, Message.endOfTrack)]] :=
    ⟨_, _, _, rfl, rfl, rfl, rfl, rfl, rfl⟩
  have member : song ∈ (Workspace.session .strict endedCommands).songs := songs ▸ List.mem_singleton_self song
  obtain ⟨front, back, ending, after, parted, inserted, changed⟩ :=
    (session_inserts_sorted .strict endedCommands member here (.voice 0x80 [60, 64])
      (show 120 ≤ greatestTick by decide)).1 rfl
  have same : after = added := by
    rw [done] at inserted
    exact (EStateM.Result.ok.inj inserted).2.symm
  refine ⟨song, member, track, here, timeline, front, back, ending, after, parted, inserted, ?_, same ▸ result⟩
  rw [changed, timelines]
  rfl

/-- Whatever was done in a session that took fewer references than can be counted, an event that sets
    nothing in the tempo map and does not move the end of its track can be taken out as soon as it was
    added. It comes out as the message that went in, and the song is what it was, with the cursor of
    that track back at the start. -/
theorem session_removes_added [Workers] (mode : Mode) (commands : List (Command S))
    (few : Workspace.acquisitions mode commands < 0xFFFFFFFF) {song : Song S}
    (member : song ∈ (Workspace.session mode commands).songs) {number : Nat} {track : Track S}
    (here : song.tracks[number]? = some track) {message : Message} (noTempo : message.tempo? = none)
    (noSignature : message.timeSignature? = none) {tick : Nat} (notPast : track.isEnded = true → tick ≤ track.endTick)
    {place : Nat} {after : Song S} (done : addEvent number message tick song = .ok place after) :
    removeEvent number place after =
      .ok (Event.ofMessage message) { song with tracks := song.tracks.set number track.rewind } := by
  have sound := session_sound mode commands member
  have timed := session_timed few member
  have timedAfter := timed.addEvent done
  have nothing : message.changesTempo = false := by simp [Message.changesTempo, noTempo, noSignature]
  obtain ⟨_, _, _, within, _⟩ := addEvent_ok done
  obtain ⟨accepts, rfl, rfl⟩ := (addEvent_ok_iff here within).mp done
  obtain ⟨left, removes, untimed⟩ := removeEvent_put sound timed.ordered here accepts nothing notPast
  have ordered : (song.put number message tick).tempoMap.Ordered := timed.ordered.register _ _ _
  obtain ⟨timedLeft, again, same⟩ :=
    removeEvent_of_untimed ordered timedAfter.ordered (untimed_refreshFrom ordered tick) removes
  rw [again]
  exact congrArg (EStateM.Result.ok _) (Timed.eq_of_untimed (timedAfter.removeEvent again)
    (timed.of_events rfl rfl (events_set here (Track.events_rewind track))) (same.trans untimed))

/-- A second note at the tick of the first one, in front of the end of the track. -/
theorem session_removes_added_note :
    Workspace.acquisitions .strict endedCommands < 0xFFFFFFFF ∧
      ∃ song ∈ (Workspace.session .strict endedCommands).songs, ∃ track after, song.tracks[0]? = some track ∧
      addEvent 0 (.voice 0x80 [60, 64]) 48 song = .ok 1 after ∧
      removeEvent 0 1 after = .ok (Event.ofMessage (.voice 0x80 [60, 64])) { song with tracks := [track.rewind] } := by
  obtain ⟨song, track, after, songs, tracks, endTick, done⟩ :
      ∃ song track after, (Workspace.session .strict endedCommands).songs = [song] ∧ song.tracks = [track] ∧
        track.endTick = 96 ∧ addEvent 0 (.voice 0x80 [60, 64]) 48 song = .ok 1 after := ⟨_, _, _, rfl, rfl, rfl, rfl⟩
  have member : song ∈ (Workspace.session .strict endedCommands).songs := songs ▸ List.mem_singleton_self song
  have here : song.tracks[0]? = some track := by rw [tracks]; rfl
  have few : Workspace.acquisitions .strict endedCommands < 0xFFFFFFFF := by decide
  have removes := session_removes_added .strict endedCommands few member here rfl rfl (fun _ => by omega) done
  rw [tracks] at removes
  exact ⟨few, song, member, track, after, here, done, removes⟩

end

end Song

end MidiFile
