import MidiFile.Proofs.Song.Sound

/-! # Where the events of a song are

The events of a sound song say about themselves what is true of them: the number of their track,
their own number in there and their tick, which is the sum of all delta times up to theirs. So their
ticks never go back and never pass the greatest one, and the end of a track is its last event.
Every song of every session is sound (`session_events_placed`).
-/

namespace MidiFile

variable {S : Type}

/-- The tick of an event is the one in front of the first event and all delta times up to its own. -/
theorem Spaced.tick_eq {tick place : Nat} {events : List (Event S)} {event : Event S} (spaced : Spaced tick events)
    (here : events[place]? = some event) : event.tick = tick + Song.total Event.delta (events.take (place + 1)) := by
  induction events generalizing tick place with
  | nil => simp at here
  | cons first rest ih =>
    obtain ⟨atFirst, later⟩ := spaced
    cases place with
    | zero =>
      cases here
      simpa [Song.total] using atFirst
    | succ place =>
      have behind := ih later (by simpa using here)
      rw [behind, atFirst, List.take_succ_cons, Nat.add_assoc]
      rfl

theorem InOrder.number_eq {tick place : Nat} {events : List (Event S)} {event : Event S}
    (inOrder : InOrder tick 0 events) (here : events[place]? = some event) : event.number? = some place := by
  have inside : place < events.length := (List.getElem?_eq_some_iff.mp here).1
  have listed := congrArg (·[place]?) inOrder.numbered
  simpa [here, List.getElem?_range' inside] using listed

/-- Behind the end of a track comes nothing. -/
theorem InOrder.last_of_isEnd {tick number place : Nat} {events : List (Event S)} {event : Event S}
    (inOrder : InOrder tick number events) (here : events[place]? = some event) (isEnd : event.message.isEnd = true) :
    place + 1 = events.length := by
  obtain ⟨inside, rfl⟩ := List.getElem?_eq_some_iff.mp here
  by_cases more : place + 1 < events.length
  · have open_ := List.pairwise_iff_getElem.mp inOrder.ends place (place + 1) inside more (Nat.lt_succ_self place)
    rw [isEnd] at open_
    cases open_
  · omega

/-- A track has one end at most. -/
theorem InOrder.countP_isEnd_le {tick number : Nat} {events : List (Event S)} (inOrder : InOrder tick number events) :
    events.countP (·.message.isEnd) ≤ 1 := by
  rcases List.eq_nil_or_concat' events with none | ⟨init, last, whole⟩
  · simp [none]
  · have ends := inOrder.ends
    rw [whole] at ends ⊢
    have front : init.countP (·.message.isEnd) = 0 := by
      rw [List.countP_eq_zero]
      intro event member
      simp [(List.pairwise_append.mp ends).2.2 event member last (List.mem_singleton_self last)]
    rw [List.countP_append, front, Nat.zero_add]
    exact List.countP_le_length

namespace Song

variable [Clock S]

/-- In every song of every session the tracks and their events know their places, the tick of an
    event is the sum of all delta times of its track up to its own, the ticks of a track never go
    back and never pass the greatest one, a track has no end but its last event, and the
    single-track format has one track at most. -/
theorem session_events_placed [Workers] (mode : Mode) (commands : List (Command S)) {song : Song S}
    (member : song ∈ (Workspace.session mode commands).songs) :
    (∀ (number : Nat) (track : Track S), song.tracks[number]? = some track →
      track.number? = some number ∧
        (∀ (place : Nat) (event : Event S), track.events[place]? = some event →
          event.track? = some number ∧ event.number? = some place ∧
            event.tick = total Event.delta (track.events.take (place + 1)) ∧ event.tick ≤ greatestTick ∧
            (event.message.isEnd = true → place + 1 = track.events.length)) ∧
        (track.events.map (·.tick)).Pairwise (· ≤ ·) ∧ track.events.countP (·.message.isEnd) ≤ 1) ∧
      (song.format = .single → song.tracks.length ≤ 1) := by
  have sound := (Workspace.session_keeps (lasting_sound mode) commands).songs song member
  refine ⟨?_, sound.single⟩
  intro number track here
  have inOrder := sound.inOrder track (List.mem_of_getElem? here)
  have knows := sound.knows number track here
  refine ⟨knows.itself, ?_, (List.pairwise_cons.mp inOrder.spaced.sorted).2, ?_⟩
  · intro place event found
    have inside := List.mem_of_getElem? found
    refine ⟨knows.events event inside, inOrder.number_eq found, ?_, inOrder.within event inside,
      inOrder.last_of_isEnd found⟩
    rw [inOrder.spaced.tick_eq found, Nat.zero_add]
  · exact inOrder.countP_isEnd_le

/-- An end that moves with a note placed behind it, and a note taken out in front of another, in the
    second of two tracks; then the first track goes. -/
private def placedCommands : List (Command Float) :=
  [.create, .change 0 (.addTrack .new), .change 0 (.addTrack .new),
    .change 0 (.addEvent 1 (.new (.bytes [0x90, 60, 64])) (.tick 240)),
    .change 0 (.addEvent 1 (.new .endOfTrack) (.after 0)),
    .change 0 (.addEvent 1 (.new (.bytes [0x80, 60, 64])) (.tick 480)), .change 0 (.removeEvent 1 0),
    .change 0 (.removeTrack 0)]

theorem session_events_placed_moved_end :
    ∃ song ∈ (Workspace.session .strict placedCommands).songs,
      (song.events.map fun event => (event.track?, event.number?, event.delta, event.tick)) =
          [(some 0, some 0, 480, 480), (some 0, some 1, 0, 480)] ∧
        ∀ (number : Nat) (track : Track Float), song.tracks[number]? = some track →
          track.events.countP (·.message.isEnd) ≤ 1 := by
  have member : _ ∈ (Workspace.session .strict placedCommands).songs := List.mem_singleton.mpr rfl
  exact ⟨_, member, rfl, fun number track here =>
    ((session_events_placed .strict placedCommands member).1 number track here).2.2.2⟩

end Song

end MidiFile
