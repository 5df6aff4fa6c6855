import MidiFile.Proofs.Song.Insertion
import MidiFile.Proofs.Song.Structure
import Mathlib.Data.List.InsertIdx

/-! # What an edit leaves alone

Adding a message, taking an event out and taking a track out each change the little that they must
(`Song.WithMessage`, `Song.WithoutEvent`, `Song.WithoutTrack`). An added message makes room in its own
track only, where no event gets another tick but the end that has to stay behind it. A tempo or a time
signature that it sets leaves all times in front of it as they were; a message that sets neither
leaves every time as it was. What is taken out changes no time at all, as the tempo map keeps what
the events of it had set.
-/

namespace MidiFile

variable {S : Type}

namespace Event

/-- The event is the same one on the same track, and at the same tick, unless it is the end of the
    track and had to be moved up to a tick behind it. -/
structure Stays (start : Nat) (old new : Event S) : Prop where
  message : new.message = old.message
  track : new.track? = old.track?
  tick : new.tick = old.tick ∨ old.message.isEnd = true ∧ old.tick < start ∧ new.tick = start

/-- What an added message leaves of another event. Its time in seconds is what it was if it comes in
    front of the message, or if the message sets nothing in the tempo map and the event stayed at its tick. -/
structure Kept (added : Message) (start : Nat) (old new : Event S) : Prop extends Stays start old new where
  early : new.tick < start → new.cached? = old.cached?
  plain : added.tempo? = none → added.timeSignature? = none → new.tick = old.tick → new.cached? = old.cached?

/-- The event without what its neighbours and the tempo map make of it. -/
def bare (event : Event S) : Event S := { event with delta := 0, number? := none, cached? := none }

theorem Stays.refl (start : Nat) (event : Event S) : Stays start event event := ⟨rfl, rfl, .inl rfl⟩

theorem Stays.of_bare {start : Nat} {old between new : Event S} (stays : Stays start old between)
    (same : new.bare = between.bare) : Stays start old new := by
  have message : new.message = between.message := (Event.mk.inj same).1
  have tick : new.tick = between.tick := (Event.mk.inj same).2.2.1
  have track : new.track? = between.track? := (Event.mk.inj same).2.2.2.1
  exact ⟨message.trans stays.message, track.trans stays.track, by rw [tick]; exact stays.tick⟩

end Event

namespace Track

variable {message : Message} {tick number place : Nat} {track left : Track S} {removed : Event S}

/-- Only the end of a track is moved for the room of a message. -/
theorem forall₂_stays_room (message : Message) (tick : Nat) (track : Track S) :
    List.Forall₂ (Event.Stays tick) track.events ((track.room message tick).1 ++ (track.room message tick).2) := by
  rcases room_cases message tick track with ⟨_, room⟩ | ⟨_, init, last, whole, isEnd, room⟩
  · rw [room, List.append_nil]
    exact List.forall₂_same.mpr fun event _ => .refl tick event
  · have moved : Event.Stays tick last { last with tick := max last.tick tick } := by
      refine ⟨rfl, rfl, ?_⟩
      rcases Nat.lt_or_ge last.tick tick with late | early
      · exact .inr ⟨isEnd, late, Nat.max_eq_right (Nat.le_of_lt late)⟩
      · exact .inl (Nat.max_eq_left early)
    rw [room, whole]
    exact List.rel_append (List.forall₂_same.mpr fun event _ => .refl tick event) (.cons moved .nil)

/-- The events of a track with a message in it, but for the message, are those that it had room among. -/
theorem bare_eraseIdx_put (message : Message) (tick : Nat) (track : Track S) :
    ((track.put message tick).events.eraseIdx (track.place message tick).1).map Event.bare =
      ((track.room message tick).1 ++ (track.room message tick).2).map Event.bare := by
  have whole : track.arranged message tick = (track.room message tick).1.takeWhile (·.tick ≤ tick) ++
      track.placed message tick :: ((track.room message tick).1.dropWhile (·.tick ≤ tick) ++ (track.room message tick).2) := rfl
  have placed : (track.put message tick).events.map Event.bare = (track.arranged message tick).map Event.bare := by
    rw [put, events_rewind, place_track, map_renumbered fun _ _ => rfl, map_respaced fun _ _ => rfl]
  have without : (track.arranged message tick).eraseIdx (track.place message tick).1 =
      (track.room message tick).1 ++ (track.room message tick).2 := by
    rw [place_number, whole, List.eraseIdx_append_of_length_le (Nat.le_refl _), Nat.sub_self, List.eraseIdx_cons_zero,
      ← List.append_assoc, List.takeWhile_append_dropWhile]
  rw [← List.eraseIdx_map, placed, List.eraseIdx_map, without]

theorem bare_of_untimed {other : Track S} (same : other.untimed = track.untimed) :
    other.events.map Event.bare = track.events.map Event.bare := by
  have part (track : Track S) : track.events.map Event.bare = track.untimed.events.map Event.bare := by
    rw [untimed, List.map_map]
    rfl
  rw [part, same, ← part]

/-- A track that is given the place that it has stays as it is. -/
theorem Knows.attach_eq_self (knows : track.Knows number) : track.attach (some number) = track := by
  have events : (track.events.map fun event => { event with track? := some number }) = track.events :=
    map_eq_self fun event member => by rw [← knows.events event member]
  rw [attach, events, ← knows.itself]

/-- What is left of a track when an event is taken out of it: the events in front of it are the same, and
    those behind it have other numbers. The next one takes over its delta time. -/
structure WithoutEvent (place : Nat) (gone : Event S) (track left : Track S) : Prop where
  number : left.number? = track.number?
  bodySize : left.bodySize = track.bodySize
  rewound : left.rewind = left
  front : ∀ other < place, left.events[other]? = track.events[other]?
  back : ∀ other ≥ place, left.events[other]? = (track.events[other + 1]?).map fun later =>
    { later with number? := some other, delta := if other = place then later.delta + gone.delta else later.delta }

theorem getElem?_delayed (delta number : Nat) (events : List (Event S)) : (delayed delta events)[number]? =
    (events[number]?).map fun event => { event with delta := if number = 0 then event.delta + delta else event.delta } := by
  cases events with
  | nil => rfl
  | cons event rest => cases number <;> simp [delayed]

theorem withoutEvent_remove (inOrder : InOrder 0 0 track.events) (done : track.remove place = .ok (removed, left)) :
    ∃ gone, track.events[place]? = some gone ∧ removed = gone.detach ∧ track.WithoutEvent place gone left.rewind := by
  obtain ⟨gone, here, rfl, rfl⟩ := remove_ok done
  have inside : place < track.events.length := (List.getElem?_eq_some_iff.mp here).1
  refine ⟨gone, here, rfl, ?_, bodySize_rewind _, ?_, ?_, ?_⟩
  · exact congrArg Prod.fst (frame_rewind _)
  · exact rewind_rewind _
  · intro other before
    have kept : (track.events.take place)[other]? = track.events[other]? := List.getElem?_take_of_lt before
    rw [events_rewind, renumbered, List.getElem?_mapIdx, List.getElem?_append_left (by simp; omega), kept]
    cases there : track.events[other]? with
    | none => rfl
    | some event =>
      have numbered := inOrder.number_eq there
      rw [Option.map_some, ← numbered]
  · intro other behind
    have offset : other - (track.events.take place).length = other - place := by simp; omega
    have there : (track.events.drop (place + 1))[other - place]? = track.events[other + 1]? := by
      rw [List.getElem?_drop]
      congr 1
      omega
    rw [events_rewind, renumbered, List.getElem?_mapIdx, List.getElem?_append_right (by simp; omega), offset,
      getElem?_delayed, there, Option.map_map]
    refine congrFun (congrArg Option.map (funext fun event => ?_)) _
    by_cases next : other = place
    · simp [next]
    · have further : other - place ≠ 0 := by omega
      simp [next, further]

end Track

namespace Song

/-- What adding a message to a track at a tick leaves of a song. -/
structure WithMessage (number place : Nat) (message : Message) (tick : Nat) (song after : Song S) : Prop where
  header : after.header = song.header
  warnings : after.warnings = song.warnings
  position : after.position? = song.position?
  added : ∃ event, after.event? number place = some event ∧ event.cue = (tick, message)
  others : ∀ other, other ≠ number → (after.tracks[other]?).map Track.untimed = (song.tracks[other]?).map Track.untimed
  events : ∀ other old, song.tracks[other]? = some old → ∃ new, after.tracks[other]? = some new ∧
    List.Forall₂ (Event.Kept message tick) old.events (if other = number then new.events.eraseIdx place else new.events)
  tempoMap : message.tempo? = none → message.timeSignature? = none → after.tempoMap.idle = song.tempoMap.idle

/-- What taking an event out of a track leaves of a song. -/
structure WithoutEvent (number place : Nat) (removed : Event S) (song after : Song S) : Prop where
  header : after.header = song.header
  warnings : after.warnings = song.warnings
  position : after.position? = song.position?
  others : ∀ other, other ≠ number → after.tracks[other]? = song.tracks[other]?
  track : ∃ old gone left, song.tracks[number]? = some old ∧ old.events[place]? = some gone ∧ removed = gone.detach ∧
    after.tracks[number]? = some left ∧ old.WithoutEvent place gone left
  tempoMap : after.tempoMap.idle = song.tempoMap.idle

/-- What taking a track out leaves of a song. -/
structure WithoutTrack (number : Nat) (song after : Song S) : Prop where
  header : after.header = song.header
  warnings : after.warnings = song.warnings
  position : after.position? = song.position?
  front : ∀ other < number, after.tracks[other]? = song.tracks[other]?
  back : ∀ other ≥ number, after.tracks[other]? = (song.tracks[other + 1]?).map (Track.attach (some other))
  tempoMap : after.tempoMap.idle = song.tempoMap.idle

section
variable [Clock S] {song after : Song S} {number place tick : Nat} {message : Message}

/-- A message leaves the times in front of it as they are, and all times if it sets nothing. -/
theorem timeOf_addEvent (timed : song.Timed) (done : addEvent number message tick song = .ok place after)
    {other : Nat} (kept : other < tick ∨ message.changesTempo = false) :
    after.tempoMap.timeOf after.division other = song.tempoMap.timeOf song.division other := by
  obtain ⟨_, _, _, _, _, same⟩ := addEvent_ok done
  have counted : after.tempoMap.course = (song.tempoMap.register song.division tick message).course := by
    rw [same]
    exact TempoMap.course_recount (timed.ordered.register _ _ _) _
  have division : after.division = song.division := by rw [same]; rfl
  rw [division, TempoMap.timeOf_of_course counted]
  rcases kept with early | nothing
  · exact TempoMap.timeOf_register timed.ordered timed.settled message early
  · rw [TempoMap.register_of_silent _ _ nothing]

theorem kept_of_stays (timed : song.Timed) (done : addEvent number message tick song = .ok place after)
    {old new : Event S} (among : old ∈ song.events) (amongNew : new ∈ after.events) (stays : Event.Stays tick old new) :
    Event.Kept message tick old new := by
  have cached (kept : new.tick < tick ∨ message.changesTempo = false) (tick : new.tick = old.tick) :
      new.cached? = old.cached? := by
    have before := timed.timely old among
    have behind := (timed.addEvent done).timely new amongNew
    rw [IsTimely] at before behind
    rw [before, behind, timeOf_addEvent timed done kept, tick]
  refine { stays with early := ?_, plain := ?_ }
  · intro early
    exact cached (.inl early) (stays.tick.resolve_right fun moved => by omega)
  · intro noTempo noSignature
    exact cached (.inr (by simp [Message.changesTempo, noTempo, noSignature]))

/-- Events that are, but for times and places, the ones that stay in a track are what is left of them. -/
theorem forall₂_kept (timed : song.Timed) (done : addEvent number message tick song = .ok place after) {old new : Track S}
    (among : old ∈ song.tracks) (amongNew : new ∈ after.tracks) {events between : List (Event S)}
    (part : events.Sublist new.events) (stays : List.Forall₂ (Event.Stays tick) old.events between)
    (same : events.map Event.bare = between.map Event.bare) :
    List.Forall₂ (Event.Kept message tick) old.events events := by
  have staying : List.Forall₂ (Event.Stays tick) old.events events :=
    forall₂_join stays.flip (forall₂_of_map_eq same) fun _ _ _ stays alike => stays.of_bare alike
  have inside : ∀ event ∈ events, event ∈ after.events := fun event member =>
    List.mem_flatMap.mpr ⟨new, amongNew, part.subset member⟩
  have before : ∀ event ∈ old.events, event ∈ song.events := fun event member =>
    List.mem_flatMap.mpr ⟨old, among, member⟩
  refine (forall₂_and_right (forall₂_and_right staying inside).flip before).flip.imp ?_
  rintro event newer ⟨⟨stays, amongNew⟩, among⟩
  exact kept_of_stays timed done among amongNew stays

theorem withMessage_addEvent (timed : song.Timed) (done : addEvent number message tick song = .ok place after) :
    song.WithMessage number place message tick after := by
  obtain ⟨track, _, here, within, _, _⟩ := addEvent_ok done
  obtain ⟨_, rfl, same⟩ := (addEvent_ok_iff here within).mp done
  have tracks : after.tracks.map Track.untimed = (song.tracks.modify number (Track.put message tick)).map Track.untimed :=
    same ▸ tracks_untimed_refreshFrom tick (song.put number message tick)
  have listed (other : Nat) : (after.tracks[other]?).map Track.untimed =
      ((song.tracks.modify number (Track.put message tick))[other]?).map Track.untimed := by
    rw [← List.getElem?_map, tracks, List.getElem?_map]
  refine ⟨same ▸ rfl, same ▸ rfl, same ▸ rfl, ?_, ?_, ?_, ?_⟩
  · have timelines : after.timelines = song.timelines.set number (track.place message tick).2.timeline :=
      same ▸ timelines_put here message tick
    have inside : number < song.timelines.length := by
      rw [Song.timelines, List.length_map]
      exact (List.getElem?_eq_some_iff.mp here).1
    have timeline := congrArg (·[number]?) timelines
    rw [List.getElem?_set_self inside, Song.timelines, List.getElem?_map] at timeline
    obtain ⟨new, found, cues⟩ := Option.map_eq_some_iff.mp timeline
    have cue := congrArg (·[(track.place message tick).1]?) cues
    simp only [Track.timeline, List.getElem?_map] at cue
    obtain ⟨event, there, cue⟩ := Option.map_eq_some_iff.mp (cue.trans (Track.getElem?_place message tick track))
    exact ⟨event, by rw [event?, found, Option.bind_some, there], cue⟩
  · intro other apart
    rw [listed other, List.getElem?_modify_ne _ _ (Ne.symm apart)]
  · intro other old there
    by_cases edited : other = number
    · cases edited
      cases here.symm.trans there
      have found := listed number
      rw [List.getElem?_modify_eq, here] at found
      obtain ⟨new, found, untimed⟩ := Option.map_eq_some_iff.mp found
      refine ⟨new, found, ?_⟩
      rw [if_pos rfl]
      refine forall₂_kept timed done (List.mem_of_getElem? here) (List.mem_of_getElem? found) (List.eraseIdx_sublist ..)
        (Track.forall₂_stays_room message tick track) ?_
      rw [← List.eraseIdx_map, Track.bare_of_untimed untimed, List.eraseIdx_map, Track.bare_eraseIdx_put]
    · have found := listed other
      rw [List.getElem?_modify_ne _ _ (Ne.symm edited), there] at found
      obtain ⟨new, found, untimed⟩ := Option.map_eq_some_iff.mp found
      refine ⟨new, found, ?_⟩
      rw [if_neg edited]
      exact forall₂_kept timed done (List.mem_of_getElem? there) (List.mem_of_getElem? found) (List.Sublist.refl _)
        (List.forall₂_same.mpr fun event _ => Event.Stays.refl tick event) (Track.bare_of_untimed untimed)
  · intro noTempo noSignature
    have nothing : message.changesTempo = false := by simp [Message.changesTempo, noTempo, noSignature]
    have registered : song.tempoMap.register song.division tick message = song.tempoMap :=
      TempoMap.register_of_silent _ _ nothing
    rw [same]
    exact ((timed.ordered.register _ _ _).idle_recount _).trans (congrArg TempoMap.idle registered)

theorem withoutEvent_removeEvent (sound : song.Sound) (ordered : song.tempoMap.Ordered) {removed : Event S}
    (done : removeEvent number place song = .ok removed after) : song.WithoutEvent number place removed after := by
  obtain ⟨old, new, here, taken, rfl⟩ := removeEvent_ok done
  obtain ⟨gone, there, detached, without⟩ :=
    Track.withoutEvent_remove (sound.inOrder old (List.mem_of_getElem? here)) taken
  have inside : number < song.tracks.length := (List.getElem?_eq_some_iff.mp here).1
  refine ⟨rfl, rfl, rfl, ?_, ⟨old, gone, new.rewind, here, there, detached, ?_, without⟩, ordered.idle_recount _⟩
  · intro other apart
    exact List.getElem?_set_ne (Ne.symm apart)
  · exact List.getElem?_set_self inside

theorem withoutTrack_removeTrack (sound : song.Sound) (ordered : song.tempoMap.Ordered) {removed : Track S}
    (done : removeTrack number song = .ok removed after) : song.WithoutTrack number after := by
  obtain ⟨_, _, _, rfl⟩ := removeTrack_ok done
  refine ⟨rfl, rfl, rfl, ?_, ?_, ordered.idle_recount _⟩
  · intro other before
    show ((song.tracks.eraseIdx number).mapIdx _)[other]? = _
    rw [List.getElem?_mapIdx, List.getElem?_eraseIdx_of_lt before]
    cases there : song.tracks[other]? with
    | none => rfl
    | some track => rw [Option.map_some, (sound.knows other track there).attach_eq_self]
  · intro other behind
    show ((song.tracks.eraseIdx number).mapIdx _)[other]? = _
    rw [List.getElem?_mapIdx, List.getElem?_eraseIdx_of_ge behind]

/-- Whatever was done in a session that took fewer references than can be counted, an edit leaves alone
    what it is not about. A message that is added
    to a track leaves the header, the warnings, the last seek and all other tracks as they are, but for
    times behind it; every event in the song is the same one at the same tick, but for an end that has
    to stay behind the message. No time in front of the message changes, and where it sets neither tempo
    nor time signature no time changes at all but that of such an end, and no entry of the tempo map.
    Taking an event or a track out changes no time and no entry, whatever went: in the track of the event
    only the numbers behind it, the next delta time and the cursor are others, and of all tracks only
    those behind the one that went have another number. -/
theorem session_edits_leave [Workers] (mode : Mode) (commands : List (Command S))
    (few : Workspace.acquisitions mode commands < 0xFFFFFFFF) {song : Song S}
    (member : song ∈ (Workspace.session mode commands).songs) :
    (∀ number message (moment : Moment S) place after, Outcome.addMessage number message moment song = .ok place after →
        ∃ tick, (∀ given, moment = .tick given → tick = given) ∧ song.WithMessage number place message tick after) ∧
      (∀ number place removed after, removeEvent number place song = .ok removed after →
        song.WithoutEvent number place removed after) ∧
      ∀ number removed after, removeTrack number song = .ok removed after → song.WithoutTrack number after := by
  have sound := session_sound mode commands member
  have timed := session_timed few member
  refine ⟨?_, fun _ _ _ _ => withoutEvent_removeEvent sound timed.ordered,
    fun _ _ _ => withoutTrack_removeTrack sound timed.ordered⟩
  intro number message moment place after done
  cases moment with
  | after delta => exact ⟨_, nofun, withMessage_addEvent timed done⟩
  | tick tick =>
    refine ⟨tick, ?_, withMessage_addEvent timed done⟩
    rintro _ ⟨⟩
    rfl
  | seconds seconds =>
    obtain ⟨tick, _, done⟩ := addEventAtSeconds_ok done
    exact ⟨tick, nofun, withMessage_addEvent timed done⟩

/-- Two tracks, the second one with a tempo in front of its note, and the first one with an end. -/
private def framedCommands : List (Command Float) :=
  [.create, .change 0 (.setFormat .simultaneous), .change 0 (.addTrack .new), .change 0 (.addTrack .new),
    .change 0 (.addEvent 0 (.new (.bytes [0x90, 60, 64])) (.tick 48)), .change 0 (.addEvent 0 (.new .endOfTrack) (.tick 96)),
    .change 0 (.addEvent 1 (.new (.tempo 400000)) (.tick 24)), .change 0 (.addEvent 1 (.new (.bytes [0x91, 62, 64])) (.tick 72))]

/-- A note that takes the end of its track with it, the tempo taken out, and the first track taken out. -/
theorem session_edits_leave_tracks :
    Workspace.acquisitions .strict framedCommands < 0xFFFFFFFF ∧
      ∃ song ∈ (Workspace.session .strict framedCommands).songs, ∃ after left cut removed gone,
      addEvent 0 (.voice 0x80 [60, 64]) 120 song = .ok 1 after ∧
        song.WithMessage 0 1 (.voice 0x80 [60, 64]) 120 after ∧
        removeEvent 1 0 song = .ok removed left ∧ song.WithoutEvent 1 0 removed left ∧
        removeTrack 0 song = .ok gone cut ∧ song.WithoutTrack 0 cut ∧
        (after.events.map (·.tick), left.events.map (·.tick), cut.events.map (·.tick)) =
          ([48, 120, 120, 24, 72], [48, 96, 72], [24, 72]) := by
  obtain ⟨song, after, left, cut, removed, gone, songs, added, taken, cutOut, ticks⟩ :
      ∃ song after left cut removed gone, (Workspace.session .strict framedCommands).songs = [song] ∧
        addEvent 0 (.voice 0x80 [60, 64]) 120 song = .ok 1 after ∧ removeEvent 1 0 song = .ok removed left ∧
        removeTrack 0 song = .ok gone cut ∧
        (after.events.map (·.tick), left.events.map (·.tick), cut.events.map (·.tick)) =
          ([48, 120, 120, 24, 72], [48, 96, 72], [24, 72]) := ⟨_, _, _, _, _, _, rfl, rfl, rfl, rfl, rfl⟩
  have member : song ∈ (Workspace.session .strict framedCommands).songs := songs ▸ List.mem_singleton_self song
  have few : Workspace.acquisitions .strict framedCommands < 0xFFFFFFFF := by decide
  obtain ⟨adds, takes, cuts⟩ := session_edits_leave .strict framedCommands few member
  obtain ⟨tick, given, frame⟩ := adds 0 (.voice 0x80 [60, 64]) (.tick 120) 1 after added
  cases given 120 rfl
  exact ⟨few, song, member, after, left, cut, removed, gone, added, frame, taken, takes _ _ _ _ taken, cutOut,
    cuts _ _ _ cutOut, ticks⟩

end

end Song

end MidiFile
