import MidiFile.Proofs.Rows
import MidiFile.Proofs.Song.Edit

/-! # Where the events of a track come from

Every edit of a track hands on the events that it had, with other numbers and times in ticks, and
at most one that is new (`exists_of_mem_place`, `exists_of_mem_remove`, `exists_of_mem_retime`).
A new event goes among the events of its track, or among all but the end of the track when that has
to stay behind it (`Track.room`).
-/

namespace MidiFile.Track

variable {S : Type}

/-- Numbering events changes nothing but their numbers. -/
theorem map_renumbered {β : Type} {part : Event S → β}
    (blind : ∀ event number?, part { event with number? := number? } = part event) (events : List (Event S)) :
    (renumbered events).map part = events.map part := by
  apply List.ext_getElem?
  intro number
  rw [renumbered, List.getElem?_map, List.getElem?_mapIdx, List.getElem?_map, Option.map_map]
  exact congrFun (congrArg Option.map (funext fun event => blind event (some number))) _

theorem exists_of_mem_renumbered {events : List (Event S)} {event : Event S} (member : event ∈ renumbered events) :
    ∃ old ∈ events, ∃ number?, event = { old with number? := number? } := by
  obtain ⟨place, inside, rfl⟩ := List.mem_mapIdx.mp member
  exact ⟨events[place], List.getElem_mem inside, some place, rfl⟩

/-- Deriving delta times changes nothing but them. -/
theorem map_respaced {β : Type} {part : Event S → β}
    (blind : ∀ event delta, part { event with delta := delta } = part event) (events : List (Event S)) :
    (respaced events).map part = events.map part := by
  rw [respaced, map_zipWith_left (fun event before => blind event (event.tick - before)) (by simp)]

theorem exists_of_mem_respaced {events : List (Event S)} {event : Event S} (member : event ∈ respaced events) :
    ∃ old ∈ events, ∃ delta, event = { old with delta := delta } := by
  obtain ⟨old, before, among, rfl⟩ := exists_of_mem_zipWith member
  exact ⟨old, among, old.tick - before, rfl⟩

/-- An event among others, behind those at its tick or before, with an ending behind all. -/
def arrange (event : Event S) (events ending : List (Event S)) : List (Event S) :=
  events.takeWhile (·.tick ≤ event.tick) ++ event :: (events.dropWhile (·.tick ≤ event.tick) ++ ending)

theorem mem_arrange_iff {event other : Event S} {events ending : List (Event S)} :
    other ∈ arrange event events ending ↔ other ∈ events ∨ other = event ∨ other ∈ ending := by
  have whole : other ∈ events ↔
      other ∈ events.takeWhile (·.tick ≤ event.tick) ∨ other ∈ events.dropWhile (·.tick ≤ event.tick) := by
    rw [← List.mem_append, List.takeWhile_append_dropWhile]
  simp only [arrange, List.mem_append, List.mem_cons, whole]
  tauto

/-- The events that a message is placed among, and the end of the track if that stays behind it. -/
def room (message : Message) (tick : Nat) (track : Track S) : List (Event S) × List (Event S) :=
  if message.isEnd then (track.events, []) else track.withoutEnd tick

/-- The event that a message becomes. -/
def placed (message : Message) (tick : Nat) (track : Track S) : Event S :=
  { Event.ofMessage message with tick := tick, track? := track.number? }

theorem place_number (message : Message) (tick : Nat) (track : Track S) :
    (track.place message tick).1 = ((track.room message tick).1.takeWhile (·.tick ≤ tick)).length := rfl

/-- The events with the new one among them, before numbers and delta times are derived. -/
def arranged (message : Message) (tick : Nat) (track : Track S) : List (Event S) :=
  arrange (track.placed message tick) (track.room message tick).1 (track.room message tick).2

theorem place_track (message : Message) (tick : Nat) (track : Track S) :
    (track.place message tick).2 = { track with events := renumbered (respaced (track.arranged message tick)) } := rfl

theorem isEnded_eq_true_iff {track : Track S} :
    track.isEnded = true ↔ ∃ init last, track.events = init ++ [last] ∧ last.message.isEnd = true := by
  unfold isEnded last?
  constructor
  · intro ended
    obtain ⟨last, found, isEnd⟩ := (Option.any_eq_true _ _).mp ended
    obtain ⟨init, whole⟩ := List.getLast?_eq_some_iff.mp found
    exact ⟨init, last, whole, isEnd⟩
  · rintro ⟨init, last, whole, isEnd⟩
    rw [whole, List.getLast?_concat, Option.any_some, isEnd]

/-- Only an end of the track is kept apart, and only where another message is placed. -/
theorem room_cases (message : Message) (tick : Nat) (track : Track S) :
    ((message.isEnd = true ∨ track.isEnded = false) ∧ track.room message tick = (track.events, [])) ∨
      (message.isEnd = false ∧ ∃ init last, track.events = init ++ [last] ∧ last.message.isEnd = true ∧
        track.room message tick = (init, [{ last with tick := max last.tick tick }])) := by
  unfold room withoutEnd
  by_cases isEnd : message.isEnd = true
  · exact .inl ⟨.inl isEnd, by simp [isEnd]⟩
  · by_cases ended : track.isEnded = true
    · obtain ⟨init, last, whole, lastEnd⟩ := isEnded_eq_true_iff.mp ended
      exact .inr ⟨by simpa using isEnd, init, last, whole, lastEnd, by simp [isEnd, ended, last?, whole]⟩
    · exact .inl ⟨.inr (by simpa using ended), by simp [isEnd, ended]⟩

/-- What an event is after a new one was placed: the new one or one that was there before. The end of
    the track may have been moved up to the tick of the new event. -/
theorem exists_of_mem_place {message : Message} {tick : Nat} {track : Track S} {event : Event S}
    (member : event ∈ (track.place message tick).2.events) :
    ∃ old delta tick' number?, event = { old with delta := delta, tick := tick', number? := number? } ∧
      (old = track.placed message tick ∧ tick' = tick ∨
        old ∈ track.events ∧ (tick' = old.tick ∨ tick' = max old.tick tick)) := by
  rw [place_track] at member
  obtain ⟨_, spaced, number?, rfl⟩ := exists_of_mem_renumbered member
  obtain ⟨source, among, delta, rfl⟩ := exists_of_mem_respaced spaced
  rcases mem_arrange_iff.mp among with old | rfl | ending
  · refine ⟨source, delta, source.tick, number?, rfl, .inr ⟨?_, .inl rfl⟩⟩
    rcases room_cases message tick track with ⟨_, room⟩ | ⟨_, init, last, whole, _, room⟩
    · rw [room] at old
      exact old
    · rw [room] at old
      rw [whole]
      exact List.mem_append_left _ old
  · exact ⟨track.placed message tick, delta, tick, number?, rfl, .inl ⟨rfl, rfl⟩⟩
  · rcases room_cases message tick track with ⟨_, room⟩ | ⟨_, init, last, whole, _, room⟩
    · rw [room] at ending
      cases ending
    · rw [room] at ending
      obtain rfl := List.mem_singleton.mp ending
      refine ⟨last, delta, max last.tick tick, number?, rfl, .inr ⟨?_, .inr rfl⟩⟩
      rw [whole]
      exact List.mem_append_right _ (List.mem_singleton_self last)

/-- In front of the tick of a new event there are only events that were there before. -/
theorem old_of_mem_place (message : Message) (tick : Nat) (track : Track S) {event : Event S}
    (member : event ∈ (track.place message tick).2.events) (early : event.tick < tick) :
    ∃ old ∈ track.events, old.tick = event.tick ∧ old.cached? = event.cached? := by
  obtain ⟨old, _, _, _, rfl, ⟨_, rfl⟩ | ⟨among, rfl | rfl⟩⟩ := exists_of_mem_place member
  · exact absurd early (Nat.lt_irrefl _)
  · exact ⟨old, among, rfl, rfl⟩
  · exact absurd early (Nat.not_lt.mpr (Nat.le_max_right _ _))

/-- The new event is at the place that is given for it. -/
theorem getElem?_place (message : Message) (tick : Nat) (track : Track S) :
    ((track.place message tick).2.events[(track.place message tick).1]?).map (fun event => (event.tick, event.message)) =
      some (tick, message) := by
  have whole : track.arranged message tick = (track.room message tick).1.takeWhile (·.tick ≤ tick) ++
      track.placed message tick :: ((track.room message tick).1.dropWhile (·.tick ≤ tick) ++ (track.room message tick).2) := rfl
  rw [← List.getElem?_map, place_track, place_number]
  dsimp only
  rw [map_renumbered fun _ _ => rfl, map_respaced fun _ _ => rfl, whole, List.map_append, List.map_cons]
  simp [placed]

/-- Only delta times tell that an event comes later. -/
theorem map_delayed {β : Type} {part : Event S → β}
    (blind : ∀ event delta, part { event with delta := delta } = part event) (delta : Nat) (events : List (Event S)) :
    (delayed delta events).map part = events.map part := by
  cases events with
  | nil => rfl
  | cons event rest => rw [delayed, List.map_cons, List.map_cons, blind]

theorem exists_of_mem_delayed {delta : Nat} {events : List (Event S)} {event : Event S} (member : event ∈ delayed delta events) :
    ∃ old ∈ events, ∃ delta', event = { old with delta := delta' } := by
  cases events with
  | nil => cases member
  | cons first rest =>
    rcases List.mem_cons.mp member with rfl | later
    · exact ⟨first, List.mem_cons_self, first.delta + delta, rfl⟩
    · exact ⟨event, List.mem_cons_of_mem _ later, event.delta, rfl⟩

/-- Taking an event out leaves all others with the ticks that they had. -/
theorem exists_of_mem_remove {number : Nat} {removed event : Event S} {track after : Track S}
    (done : track.remove number = .ok (removed, after)) (member : event ∈ after.events) :
    ∃ old ∈ track.events, ∃ delta number?, event = { old with delta := delta, number? := number? } := by
  obtain ⟨gone, _, _, rfl⟩ := remove_ok done
  obtain ⟨between, among, number?, rfl⟩ := exists_of_mem_renumbered member
  rcases List.mem_append.mp among with front | back
  · exact ⟨between, List.mem_of_mem_take front, between.delta, number?, rfl⟩
  · obtain ⟨old, behind, delta, rfl⟩ := exists_of_mem_delayed back
    exact ⟨old, List.mem_of_mem_drop behind, delta, number?, rfl⟩

theorem summedTicks_cons (event : Event S) (rest : List (Event S)) :
    summedTicks (event :: rest) = event.delta :: (summedTicks rest).map (event.delta + ·) := by
  have shifted : ∀ (deltas : List Nat) (start : Nat), (deltas.scanl (· + ·) start) = (deltas.scanl (· + ·) 0).map (start + ·) := by
    intro deltas
    induction deltas with
    | nil => simp
    | cons delta deltas ih =>
      intro start
      rw [List.scanl_cons, List.scanl_cons, ih (start + delta), ih (0 + delta)]
      simp [Nat.add_assoc]
  simp only [summedTicks, List.map_cons, List.scanl_cons, List.tail_cons, Nat.zero_add]
  rw [shifted]
  cases rest <;> simp [List.scanl_cons]

@[simp] theorem length_summedTicks (events : List (Event S)) : (summedTicks events).length = events.length := by
  simp [summedTicks]

/-- The events at the ticks that their delta times add up to. -/
def summed (events : List (Event S)) : List (Event S) :=
  List.zipWith (fun event tick => { event with tick := tick }) events (summedTicks events)

theorem map_summed {β : Type} {part : Event S → β} (blind : ∀ event tick, part { event with tick := tick } = part event)
    (events : List (Event S)) : (summed events).map part = events.map part :=
  map_zipWith_left blind (Nat.le_of_eq (length_summedTicks events).symm)

theorem ticks_summed (events : List (Event S)) : (summed events).map (·.tick) = summedTicks events := by
  have own : ∀ (event : Event S) (tick : Nat), ({ event with tick := tick } : Event S).tick = id tick := fun _ _ => rfl
  exact (map_zipWith_right own (Nat.le_of_eq (length_summedTicks events))).trans (List.map_id _)

theorem events_retime {track after : Track S} (done : track.retime = .ok after) :
    after.events = renumbered (summed track.events) := by
  obtain ⟨_, rfl⟩ := retime_ok done
  rfl

theorem ticks_retime {track after : Track S} (done : track.retime = .ok after) :
    after.events.map (·.tick) = summedTicks track.events := by
  rw [events_retime done, map_renumbered fun _ _ => rfl, ticks_summed]

theorem exists_of_mem_retime {track after : Track S} {event : Event S} (done : track.retime = .ok after)
    (member : event ∈ after.events) :
    ∃ old ∈ track.events, ∃ tick number?, event = { old with tick := tick, number? := number? } := by
  rw [events_retime done] at member
  obtain ⟨_, among, number?, rfl⟩ := exists_of_mem_renumbered member
  obtain ⟨old, tick, oldMember, rfl⟩ := exists_of_mem_zipWith among
  exact ⟨old, oldMember, tick, number?, rfl⟩

/-- The ticks do not go back. -/
theorem head_le_summedTicks {events : List (Event S)} {first tick : Nat} (head : (summedTicks events).head? = some first)
    (member : tick ∈ summedTicks events) : first ≤ tick := by
  cases events with
  | nil => simp [summedTicks] at head
  | cons event rest =>
    rw [summedTicks_cons] at head member
    cases head
    rcases List.mem_cons.mp member with rfl | later
    · exact Nat.le_refl _
    · obtain ⟨other, _, rfl⟩ := List.mem_map.mp later
      exact Nat.le_add_right _ _

/-- No event of a track whose ticks were derived comes before the first. -/
theorem head_le_retime {track after : Track S} (done : track.retime = .ok after) :
    ∀ event ∈ after.events, after.events.head?.elim 0 (·.tick) ≤ event.tick := by
  intro event member
  have ticks := ticks_retime done
  cases head : after.events.head? with
  | none => exact Nat.zero_le _
  | some first =>
    have listed : event.tick ∈ summedTicks track.events := ticks ▸ List.mem_map_of_mem member
    have headTick : (summedTicks track.events).head? = some first.tick := by rw [← ticks, List.head?_map, head]; rfl
    exact head_le_summedTicks headTick listed

end MidiFile.Track
