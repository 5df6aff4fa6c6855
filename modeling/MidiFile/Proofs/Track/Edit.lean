import MidiFile.Proofs.Track.Body
import MidiFile.Proofs.Track.Place
import Mathlib.Data.List.TakeWhile

/-! # Edits keep events in order

Placing a message, taking an event out and deriving ticks from delta times anew all leave events
that are in order: the delta times follow the ticks or the ticks the delta times, and only the last
event is the end of the track, which moves where something is placed behind it.
-/

namespace MidiFile

variable {S : Type}

theorem Spaced.of_map {tick : Nat} {events others : List (Event S)} (spaced : Spaced tick events)
    (same : others.map (fun event => (event.delta, event.tick)) = events.map fun event => (event.delta, event.tick)) :
    Spaced tick others := by
  induction events generalizing tick others with
  | nil => rw [List.map_eq_nil_iff.mp same]; trivial
  | cons event rest ih =>
    obtain ⟨other, others, rfl, alike, later⟩ := List.map_eq_cons_iff.mp same
    obtain ⟨delta, place⟩ := Prod.mk.inj alike
    exact ⟨by rw [place, delta]; exact spaced.1, place ▸ ih spaced.2 later⟩

/-- The ticks do not go back. -/
theorem Spaced.sorted {tick : Nat} {events : List (Event S)} (spaced : Spaced tick events) :
    (tick :: events.map (·.tick)).Pairwise (· ≤ ·) := by
  induction events generalizing tick with
  | nil => simp
  | cons event rest ih =>
    have later := ih spaced.2
    have first : tick ≤ event.tick := by rw [spaced.1]; exact Nat.le_add_right _ _
    refine List.pairwise_cons.mpr ⟨List.forall_mem_cons.mpr ⟨first, ?_⟩, later⟩
    intro other member
    exact Nat.le_trans first ((List.pairwise_cons.mp later).1 other member)

theorem Spaced.front {tick : Nat} {front back : List (Event S)} (spaced : Spaced tick (front ++ back)) : Spaced tick front := by
  induction front generalizing tick with
  | nil => trivial
  | cons event rest ih => exact ⟨spaced.1, ih spaced.2⟩

theorem Spaced.last {tick : Nat} {events : List (Event S)} {event : Event S} (spaced : Spaced tick (events ++ [event])) :
    event.tick = events.getLast?.elim tick (·.tick) + event.delta := by
  induction events generalizing tick with
  | nil => exact spaced.1
  | cons first rest ih =>
    rw [ih spaced.2, List.getLast?_cons]
    cases rest.getLast? <;> rfl

/-- The first of some events that are in order are in order themselves. -/
theorem InOrder.front {tick number : Nat} {front back : List (Event S)} (inOrder : InOrder tick number (front ++ back)) :
    InOrder tick number front := by
  refine ⟨inOrder.spaced.front, fun event member => inOrder.within event (List.mem_append_left _ member), ?_,
    (List.pairwise_append.mp inOrder.ends).1, fun event member => inOrder.wellFormed event (List.mem_append_left _ member)⟩
  have numbered := congrArg (List.take front.length) inOrder.numbered
  rwa [List.map_append, List.take_left' (List.length_map _), List.length_append, ← List.range'_append_1, List.map_append,
    List.take_left' (by simp)] at numbered

/-- The message of an event, its times in ticks and its number. -/
def Event.core (event : Event S) : Message × Nat × Nat × Option Nat :=
  (event.message, event.delta, event.tick, event.number?)

/-- Which messages come in front of others is a matter of the messages. -/
theorem ends_of_messages {events others : List (Event S)} (ends : events.Pairwise fun earlier _ => earlier.message.isEnd = false)
    (same : others.map (·.message) = events.map (·.message)) :
    others.Pairwise fun earlier _ => earlier.message.isEnd = false := by
  have messages : (events.map (·.message)).Pairwise fun earlier _ => earlier.isEnd = false := List.pairwise_map.mpr ends
  rw [← same] at messages
  exact List.pairwise_map.mp messages

section
variable {tick number : Nat} {events others : List (Event S)}

theorem Regular.of_core (regular : Regular tick number events) (same : others.map Event.core = events.map Event.core) :
    Regular tick number others := by
  have alike {β : Type} (part : Message × Nat × Nat × Option Nat → β) :
      others.map (part ∘ Event.core) = events.map (part ∘ Event.core) := by
    rw [← List.map_map, same, List.map_map]
  have length : others.length = events.length := by simpa using congrArg List.length same
  refine ⟨regular.spaced.of_map (alike fun core => (core.2.1, core.2.2.1)), ?_, ends_of_messages regular.ends (alike Prod.fst)⟩
  rw [length, ← regular.numbered]
  exact alike fun core => core.2.2.2

/-- Order is no matter of tracks and seconds. -/
theorem InOrder.of_core (inOrder : InOrder tick number events) (same : others.map Event.core = events.map Event.core) :
    InOrder tick number others := by
  refine inOrder_iff.mpr ⟨inOrder.regular.of_core same, ?_⟩
  intro other member
  have listed : other.core ∈ events.map Event.core := same ▸ List.mem_map_of_mem member
  obtain ⟨event, among, alike⟩ := List.mem_map.mp listed
  have message : event.message = other.message := congrArg Prod.fst alike
  have place : event.tick = other.tick := congrArg (·.2.2.1) alike
  exact ⟨place ▸ inOrder.within event among, message ▸ inOrder.wellFormed event among⟩

end

theorem numbered_renumbered (events : List (Event S)) :
    (Track.renumbered events).map (·.number?) = (List.range' 0 (Track.renumbered events).length).map some := by
  apply List.ext_getElem?
  intro place
  rw [List.getElem?_map, List.getElem?_map, Track.renumbered, List.getElem?_mapIdx]
  by_cases inside : place < events.length
  · rw [List.getElem?_eq_getElem inside, List.getElem?_range' (by simpa using inside)]
    simp
  · have beyond : events[place]? = none := List.getElem?_eq_none (Nat.le_of_not_lt inside)
    have behind : (List.range' 0 (List.mapIdx (fun number event =>
        ({ event with number? := some number } : Event S)) events).length)[place]? = none :=
      List.getElem?_eq_none (by simpa using inside)
    rw [beyond, behind]
    rfl

/-- Events at ticks that their delta times add up to follow one another once they are numbered. -/
theorem regular_renumbered {events : List (Event S)} (spaced : Spaced 0 events)
    (ends : events.Pairwise fun earlier _ => earlier.message.isEnd = false) : Regular 0 0 (Track.renumbered events) :=
  ⟨spaced.of_map (Track.map_renumbered (fun _ _ => rfl) events), numbered_renumbered events,
    ends_of_messages ends (Track.map_renumbered (fun _ _ => rfl) events)⟩

/-- Delta times that were derived from ticks that do not go back add up to these. -/
theorem spaced_respaced {events : List (Event S)} (sorted : (0 :: events.map (·.tick)).Pairwise (· ≤ ·)) :
    Spaced 0 (Track.respaced events) := by
  have general : ∀ tick, (tick :: events.map (·.tick)).Pairwise (· ≤ ·) →
      Spaced tick (List.zipWith (fun event before => ({ event with delta := event.tick - before } : Event S)) events
        (tick :: events.map (·.tick))) := by
    clear sorted
    induction events with
    | nil => exact fun _ _ => trivial
    | cons event rest ih =>
      intro tick sorted
      obtain ⟨first, later⟩ := List.pairwise_cons.mp sorted
      have ahead : tick ≤ event.tick := first event.tick List.mem_cons_self
      exact ⟨(Nat.add_sub_of_le ahead).symm, ih event.tick later⟩
  exact general 0 sorted

theorem early_of_mem_takeWhile {tick : Nat} {events : List (Event S)} {event : Event S}
    (member : event ∈ events.takeWhile (·.tick ≤ tick)) : event ∈ events ∧ event.tick ≤ tick :=
  ⟨(List.takeWhile_sublist _).subset member, by simpa using List.mem_takeWhile_imp member⟩

/-- Behind the events that come at a tick or before it are only later ones. -/
theorem late_of_mem_dropWhile {tick : Nat} {events : List (Event S)}
    (sorted : events.Pairwise fun earlier later => earlier.tick ≤ later.tick) {event : Event S}
    (member : event ∈ events.dropWhile (·.tick ≤ tick)) : event ∈ events ∧ tick ≤ event.tick := by
  have late := not_of_mem_dropWhile (sorted.imp fun before later => ?_) member
  · rw [decide_eq_false_iff_not] at late
    exact ⟨(List.dropWhile_sublist _).subset member, Nat.le_of_not_le late⟩
  · rw [decide_eq_true_eq] at later ⊢
    exact Nat.le_trans before later

theorem pairwise_of_length_le_one {related : Event S → Event S → Prop} {events : List (Event S)}
    (single : events.length ≤ 1) : events.Pairwise related := by
  match events, single with
  | [], _ => exact .nil
  | [event], _ => exact List.pairwise_singleton _ _

section
variable {event : Event S} {events ending : List (Event S)}

/-- Where an event goes, the ticks still do not go back. -/
theorem sorted_arrange (sorted : events.Pairwise fun earlier later => earlier.tick ≤ later.tick) (single : ending.length ≤ 1)
    (behind : ∀ other ∈ ending, event.tick ≤ other.tick ∧ ∀ earlier ∈ events, earlier.tick ≤ other.tick) :
    (Track.arrange event events ending).Pairwise fun earlier later => earlier.tick ≤ later.tick := by
  refine List.pairwise_append.mpr ⟨sorted.sublist (List.takeWhile_sublist _), List.pairwise_cons.mpr ⟨?_,
    List.pairwise_append.mpr ⟨sorted.sublist (List.dropWhile_sublist _), pairwise_of_length_le_one single, ?_⟩⟩, ?_⟩
  · intro other member
    rcases List.mem_append.mp member with back | last
    · exact (late_of_mem_dropWhile sorted back).2
    · exact (behind other last).1
  · intro earlier back other last
    exact (behind other last).2 earlier (late_of_mem_dropWhile sorted back).1
  · intro earlier front other member
    have upTo := (early_of_mem_takeWhile front).2
    simp only [List.mem_cons, List.mem_append] at member
    rcases member with rfl | back | last
    · exact upTo
    · exact Nat.le_trans upTo (late_of_mem_dropWhile sorted back).2
    · exact Nat.le_trans upTo (behind other last).1

/-- Where an event goes, only the last is still the end of the track. -/
theorem ends_arrange (open_ : ∀ other ∈ events, other.message.isEnd = false) (single : ending.length ≤ 1)
    (last : event.message.isEnd = true → ending = [] ∧ ∀ other ∈ events, other.tick ≤ event.tick) :
    (Track.arrange event events ending).Pairwise fun earlier _ => earlier.message.isEnd = false := by
  have front : ∀ other ∈ events.takeWhile (·.tick ≤ event.tick), other.message.isEnd = false := by
    intro other member
    exact open_ other (early_of_mem_takeWhile member).1
  have back : ∀ other ∈ events.dropWhile (·.tick ≤ event.tick), other.message.isEnd = false := by
    intro other member
    exact open_ other ((List.dropWhile_sublist _).subset member)
  refine List.pairwise_append.mpr ⟨?_, List.pairwise_cons.mpr ⟨?_, List.pairwise_append.mpr ⟨?_,
    pairwise_of_length_le_one single, ?_⟩⟩, ?_⟩
  · exact List.pairwise_of_forall_mem_list fun earlier member _ _ => front earlier member
  · intro other member
    by_cases isEnd : event.message.isEnd = true
    · obtain ⟨none, upTo⟩ := last isEnd
      have nothing : events.dropWhile (·.tick ≤ event.tick) = [] :=
        List.dropWhile_eq_nil_iff.mpr fun other among => by simpa using upTo other among
      rw [nothing, none] at member
      cases member
    · simpa using isEnd
  · exact List.pairwise_of_forall_mem_list fun earlier member _ _ => back earlier member
  · intro earlier member _ _
    exact back earlier member
  · intro earlier member _ _
    exact front earlier member

/-- An event among others that do not go back, with the end of the track behind all of them if there
    is one, follows them as soon as numbers and delta times are derived. -/
theorem regular_arrange (sorted : events.Pairwise fun earlier later => earlier.tick ≤ later.tick)
    (open_ : ∀ other ∈ events, other.message.isEnd = false) (single : ending.length ≤ 1)
    (behind : ∀ other ∈ ending, event.tick ≤ other.tick ∧ ∀ earlier ∈ events, earlier.tick ≤ other.tick)
    (last : event.message.isEnd = true → ending = [] ∧ ∀ other ∈ events, other.tick ≤ event.tick) :
    Regular 0 0 (Track.renumbered (Track.respaced (Track.arrange event events ending))) := by
  have ticks := List.pairwise_map.mpr (sorted_arrange sorted single behind)
  refine regular_renumbered (spaced_respaced (List.pairwise_cons.mpr ⟨fun _ _ => Nat.zero_le _, ticks⟩)) ?_
  exact ends_of_messages (ends_arrange open_ single last) (Track.map_respaced (fun _ _ => rfl) _)

end

theorem Ended.of_messages {events others : List (Event S)} (ended : Ended events)
    (same : others.map (·.message) = events.map (·.message)) : Ended others := by
  obtain ⟨ending, last, isEnd⟩ := ended
  have found : (others.map (·.message)).getLast? = some ending.message := by rw [same, List.getLast?_map, last]; rfl
  rw [List.getLast?_map, Option.map_eq_some_iff] at found
  obtain ⟨other, otherLast, alike⟩ := found
  exact ⟨other, otherLast, alike ▸ isEnd⟩

namespace Track

theorem isEnded_eq_true_iff_ended {track : Track S} : track.isEnded = true ↔ Ended track.events := by
  simp [isEnded, last?, Ended, Option.any_eq_true]

/-- In a track without an end no event is one. -/
theorem open_of_not_ended {track : Track S} (regular : Regular 0 0 track.events) (open_ : track.isEnded = false) :
    ∀ event ∈ track.events, event.message.isEnd = false := by
  intro event member
  rcases List.eq_nil_or_concat' track.events with none | ⟨init, last, whole⟩
  · rw [none] at member
    cases member
  · rw [whole] at member
    have ends := regular.ends
    rw [whole] at ends
    rcases List.mem_append.mp member with front | here
    · exact (List.pairwise_append.mp ends).2.2 event front last (List.mem_singleton_self last)
    · rw [List.mem_singleton.mp here]
      simpa [isEnded, last?, whole] using open_

theorem sorted_events {track : Track S} (regular : Regular 0 0 track.events) :
    track.events.Pairwise fun earlier later => earlier.tick ≤ later.tick :=
  List.pairwise_map.mp (List.pairwise_cons.mp regular.spaced.sorted).2

theorem le_endTick {track : Track S} (regular : Regular 0 0 track.events) :
    ∀ event ∈ track.events, event.tick ≤ track.endTick := by
  intro event member
  rcases List.eq_nil_or_concat' track.events with none | ⟨init, last, whole⟩
  · rw [none] at member
    cases member
  · have sorted := sorted_events regular
    rw [whole] at member sorted
    have endTick : track.endTick = last.tick := by simp [endTick, last?, whole]
    rw [endTick]
    rcases List.mem_append.mp member with front | here
    · exact (List.pairwise_append.mp sorted).2.2 event front last (List.mem_singleton_self last)
    · rw [List.mem_singleton.mp here]

theorem endTick_le {track : Track S} (inOrder : InOrder 0 0 track.events) : track.endTick ≤ greatestTick := by
  rw [endTick]
  cases last : track.last? with
  | none => exact Nat.zero_le _
  | some event => exact inOrder.within event (List.mem_of_getLast? last)

/-- A message that may be placed leaves events that follow one another. -/
theorem regular_place {message : Message} {tick : Nat} {track : Track S} (regular : Regular 0 0 track.events)
    (last : message.isEnd = true → track.isEnded = false ∧ track.endTick ≤ tick) :
    Regular 0 0 (track.place message tick).2.events := by
  have sorted := sorted_events regular
  rw [place_track]
  rcases room_cases message tick track with ⟨alone, room⟩ | ⟨notEnd, init, ending, whole, isEnd, room⟩
  · have open_ : track.isEnded = false := alone.elim (fun isEnd => (last isEnd).1) id
    rw [arranged, room]
    refine regular_arrange sorted (open_of_not_ended regular open_) (by simp) (by simp) ?_
    intro isEnd
    exact ⟨rfl, fun other member => Nat.le_trans (le_endTick regular other member) (last isEnd).2⟩
  · have ends := regular.ends
    rw [whole] at sorted ends
    obtain ⟨sortedInit, _, upTo⟩ := List.pairwise_append.mp sorted
    obtain ⟨_, _, openInit⟩ := List.pairwise_append.mp ends
    have here : ending ∈ [ending] := List.mem_singleton_self ending
    rw [arranged, room]
    refine regular_arrange sortedInit (fun other member => openInit other member ending here) (by simp) ?_ ?_
    · intro other member
      rw [List.mem_singleton.mp member]
      refine ⟨Nat.le_max_right _ _, ?_⟩
      intro earlier among
      exact Nat.le_trans (upTo earlier among ending here) (Nat.le_max_left _ _)
    · intro isEnd
      exact absurd isEnd (by simpa [placed] using notEnd)

/-- A message that may be placed leaves the events in order. -/
theorem inOrder_place {message : Message} {tick : Nat} {track : Track S} (inOrder : InOrder 0 0 track.events)
    (within : tick ≤ greatestTick) (wellFormed : message.WellFormed)
    (last : message.isEnd = true → track.isEnded = false ∧ track.endTick ≤ tick) :
    InOrder 0 0 (track.place message tick).2.events := by
  refine inOrder_iff.mpr ⟨regular_place inOrder.regular last, ?_⟩
  intro event member
  obtain ⟨old, _, tick', _, rfl, ⟨rfl, rfl⟩ | ⟨among, moved⟩⟩ := exists_of_mem_place member
  · exact ⟨within, wellFormed⟩
  · have oldWithin := inOrder.within old among
    refine ⟨?_, inOrder.wellFormed old among⟩
    show tick' ≤ greatestTick
    omega

theorem inOrder_insert {message : Message} {tick place : Nat} {track after : Track S} (inOrder : InOrder 0 0 track.events)
    (within : tick ≤ greatestTick) (wellFormed : message.WellFormed)
    (done : track.insert message tick = .ok (place, after)) : InOrder 0 0 after.events := by
  obtain ⟨last, _, rfl⟩ := insert_ok done
  exact inOrder_place inOrder within wellFormed last

/-! ## Placing behind all others -/

theorem arranged_behind {message : Message} {tick : Nat} {track : Track S}
    (room : track.room message tick = (track.events, [])) (upTo : ∀ other ∈ track.events, other.tick ≤ tick) :
    track.arranged message tick = track.events ++ [track.placed message tick] := by
  have all : ∀ other ∈ track.events, decide (other.tick ≤ tick) = true := fun other member => decide_eq_true (upTo other member)
  rw [arranged, room, arrange]
  show track.events.takeWhile (·.tick ≤ tick) ++ _ :: (track.events.dropWhile (·.tick ≤ tick) ++ []) = _
  rw [List.takeWhile_eq_self_iff.mpr all, List.dropWhile_eq_nil_iff.mpr all]
  rfl

/-- The track with an end at the tick of its last event, if it has none. -/
def close (track : Track S) : Track S := if track.isEnded then track else track.put Message.endOfTrack track.endTick

/-- A track that was closed ends. -/
theorem inOrder_close {track : Track S} (inOrder : InOrder 0 0 track.events) :
    InOrder 0 0 track.close.events ∧ Ended track.close.events := by
  rw [close]
  cases ended : track.isEnded with
  | true => exact ⟨inOrder, isEnded_eq_true_iff_ended.mp ended⟩
  | false =>
    simp only [Bool.false_eq_true, if_false, put, events_rewind]
    refine ⟨inOrder_place inOrder (endTick_le inOrder) ⟨[], rfl⟩ fun _ => ⟨ended, Nat.le_refl _⟩, ?_⟩
    have arranged : track.arranged Message.endOfTrack track.endTick =
        track.events ++ [track.placed Message.endOfTrack track.endTick] := arranged_behind rfl (le_endTick inOrder.regular)
    have ended : Ended (track.arranged Message.endOfTrack track.endTick) := by
      rw [arranged]
      exact ⟨_, List.getLast?_concat .., rfl⟩
    rw [place_track]
    apply ended.of_messages
    rw [map_renumbered fun _ _ => rfl, map_respaced fun _ _ => rfl]

theorem renumbered_concat {events : List (Event S)} (numbered : events.map (·.number?) = (List.range' 0 events.length).map some)
    (event : Event S) : renumbered (events ++ [event]) = events ++ [{ event with number? := some events.length }] := by
  have kept : renumbered events = events := by
    apply List.ext_getElem List.length_mapIdx
    intro place inside here
    have found := congrArg (·[place]?) numbered
    simp only [List.getElem?_map, List.getElem?_eq_getElem here, List.getElem?_range' here, Option.map_some, Nat.one_mul,
      Nat.zero_add, Option.some.injEq] at found
    simp only [List.getElem_mapIdx, ← found]
  rw [renumbered, List.mapIdx_concat]
  exact congrArg (· ++ _) kept

/-- Where the ticks follow the delta times already, deriving these anew gives them back. -/
theorem respaced_concat {events : List (Event S)} {event : Event S} (spaced : Spaced 0 (events ++ [event])) (delta : Nat) :
    respaced (events ++ [{ event with delta := delta }]) = events ++ [event] := by
  have general : ∀ tick, Spaced tick (events ++ [event]) →
      List.zipWith (fun event before => ({ event with delta := event.tick - before } : Event S))
        (events ++ [{ event with delta := delta }])
        (tick :: (events ++ [({ event with delta := delta } : Event S)]).map (·.tick)) = events ++ [event] := by
    clear spaced
    induction events with
    | nil =>
      rintro tick ⟨at_, _⟩
      have gap : event.tick - tick = event.delta := by omega
      simp [gap]
    | cons first rest ih =>
      rintro tick ⟨at_, later⟩
      have gap : first.tick - tick = first.delta := by omega
      rw [List.cons_append, List.cons_append, List.map_cons, List.zipWith_cons_cons, ih first.tick later, gap]
  exact general 0 spaced

section
variable {track : Track S} {event : Event S}

theorem isEnded_of_behind (inOrder : InOrder 0 0 (track.events ++ [event])) : track.isEnded = false := by
  rw [isEnded]
  cases last : track.last? with
  | none => rfl
  | some ending =>
    exact (List.pairwise_append.mp inOrder.ends).2.2 ending (List.mem_of_getLast? last) event (List.mem_singleton_self event)

theorem endTick_le_of_behind (inOrder : InOrder 0 0 (track.events ++ [event])) : track.endTick ≤ event.tick := by
  rw [inOrder.spaced.last]
  exact Nat.le_add_right _ _

/-- The message of an event that is in order behind all others becomes that event. -/
theorem place_behind (inOrder : InOrder 0 0 (track.events ++ [event])) :
    track.place event.message event.tick = (track.events.length,
      { track with events := track.events ++ [{ event with track? := track.number?, cached? := none }] }) := by
  have late := endTick_le_of_behind inOrder
  have upTo : ∀ other ∈ track.events, other.tick ≤ event.tick := by
    intro other member
    exact Nat.le_trans (le_endTick inOrder.front.regular other member) late
  have room : track.room event.message event.tick = (track.events, []) := by
    rw [Track.room, withoutEnd, isEnded_of_behind inOrder]
    split <;> rfl
  have number : (track.place event.message event.tick).1 = track.events.length := by
    rw [place_number, room, List.takeWhile_eq_self_iff.mpr fun other member => decide_eq_true (upTo other member)]
  -- What is still to be derived is the delta time and the number of the new event.
  have spaced : Spaced 0 (track.events ++ [{ event with track? := track.number?, number? := none, cached? := none }]) := by
    apply inOrder.spaced.of_map
    rw [List.map_append, List.map_append]
    rfl
  have last : event.number? = some track.events.length := by
    have numbered := congrArg List.getLast? inOrder.numbered
    simpa [List.range'_concat] using numbered
  have numbered := renumbered_concat inOrder.front.numbered
    { event with track? := track.number?, number? := none, cached? := none }
  rw [← last] at numbered
  refine Prod.ext number ?_
  rw [place_track, arranged_behind room upTo]
  exact congrArg (fun events => { track with events := events })
    ((congrArg renumbered (respaced_concat spaced 0)).trans numbered)

theorem insert_behind (inOrder : InOrder 0 0 (track.events ++ [event])) :
    track.insert event.message event.tick = .ok (track.events.length,
      { track with events := track.events ++ [{ event with track? := track.number?, cached? := none }] }) := by
  have notEarly : ¬ (event.message.isEnd && event.tick < track.endTick) = true := by
    simp [endTick_le_of_behind inOrder]
  rw [insert, isEnded_of_behind inOrder, Bool.and_false, if_neg Bool.false_ne_true, if_neg notEarly, place_behind inOrder]

end

theorem spaced_delayed {tick : Nat} {front back : List (Event S)} {event : Event S}
    (spaced : Spaced tick (front ++ event :: back)) : Spaced tick (front ++ delayed event.delta back) := by
  induction front generalizing tick with
  | nil =>
    cases back with
    | nil => trivial
    | cons next rest =>
      obtain ⟨here, there, later⟩ := spaced
      refine ⟨?_, later⟩
      show next.tick = tick + (next.delta + event.delta)
      omega
  | cons first rest ih => exact ⟨spaced.1, ih spaced.2⟩

theorem regular_remove {number : Nat} {removed : Event S} {track after : Track S} (regular : Regular 0 0 track.events)
    (done : track.remove number = .ok (removed, after)) : Regular 0 0 after.events := by
  obtain ⟨event, found, _, rfl⟩ := remove_ok done
  obtain ⟨inside, rfl⟩ := List.getElem?_eq_some_iff.mp found
  have whole : track.events = track.events.take number ++ track.events[number] :: track.events.drop (number + 1) := by
    rw [← List.drop_eq_getElem_cons inside, List.take_append_drop]
  have ends := regular.ends
  rw [whole] at ends
  have kept : (track.events.take number ++ delayed track.events[number].delta (track.events.drop (number + 1))).map (·.message) =
      (track.events.take number ++ track.events.drop (number + 1)).map (·.message) := by
    rw [List.map_append, List.map_append, map_delayed fun _ _ => rfl]
  have endsLeft := ends_of_messages (ends.sublist (List.Sublist.append_left (List.sublist_cons_self _ _) _)) kept
  exact regular_renumbered (spaced_delayed (whole ▸ regular.spaced)) endsLeft

theorem inOrder_remove {number : Nat} {removed : Event S} {track after : Track S} (inOrder : InOrder 0 0 track.events)
    (done : track.remove number = .ok (removed, after)) : InOrder 0 0 after.events := by
  refine inOrder_iff.mpr ⟨regular_remove inOrder.regular done, ?_⟩
  intro event member
  obtain ⟨old, among, _, _, rfl⟩ := exists_of_mem_remove done member
  exact ⟨inOrder.within old among, inOrder.wellFormed old among⟩

/-- Ticks that are derived from the delta times are those that they add up to. -/
theorem spaced_summed (events : List (Event S)) : Spaced 0 (summed events) := by
  have general : ∀ start, Spaced start (List.zipWith (fun event tick => ({ event with tick := tick } : Event S)) events
      ((summedTicks events).map (start + ·))) := by
    induction events with
    | nil => exact fun _ => trivial
    | cons event rest ih =>
      intro start
      have shifted : (summedTicks (event :: rest)).map (start + ·) =
          (start + event.delta) :: (summedTicks rest).map (start + event.delta + ·) := by
        rw [summedTicks_cons, List.map_cons, List.map_map]
        simp only [Function.comp_def, Nat.add_assoc]
      rw [shifted]
      exact ⟨rfl, ih (start + event.delta)⟩
  simpa [summed] using general 0

theorem inOrder_retime {track after : Track S} (inOrder : InOrder 0 0 track.events) (done : track.retime = .ok after) :
    InOrder 0 0 after.events := by
  have regular : Regular 0 0 after.events := by
    rw [events_retime done]
    exact regular_renumbered (spaced_summed track.events)
      (ends_of_messages inOrder.ends (map_summed (fun _ _ => rfl) track.events))
  refine inOrder_iff.mpr ⟨regular, ?_⟩
  intro event member
  have listed : event.tick ∈ summedTicks track.events := ticks_retime done ▸ List.mem_map_of_mem member
  obtain ⟨old, among, _, _, rfl⟩ := exists_of_mem_retime done member
  exact ⟨(retime_ok done).1 _ listed, inOrder.wellFormed old among⟩

/-- The track and its events know that they are the track of the given number. -/
structure Knows (number : Nat) (track : Track S) : Prop where
  itself : track.number? = some number
  events : ∀ event ∈ track.events, event.track? = some number

theorem inOrder_attach {track : Track S} (inOrder : InOrder 0 0 track.events) (number? : Option Nat) :
    InOrder 0 0 (track.attach number?).events := by
  apply inOrder.of_core
  simp only [attach, List.map_map]
  rfl

theorem knows_attach (number : Nat) (track : Track S) : (track.attach (some number)).Knows number := by
  refine ⟨rfl, ?_⟩
  intro event member
  obtain ⟨old, _, rfl⟩ := List.mem_map.mp member
  rfl

theorem Knows.rewind {number : Nat} {track : Track S} (knows : track.Knows number) : track.rewind.Knows number := by
  refine ⟨?_, by simpa using knows.events⟩
  rw [Track.rewind]
  split <;> exact knows.itself

theorem Knows.retime {number : Nat} {track after : Track S} (knows : track.Knows number) (done : track.retime = .ok after) :
    after.Knows number := by
  constructor
  · obtain ⟨_, rfl⟩ := retime_ok done
    exact knows.itself
  · intro event member
    obtain ⟨old, among, _, _, rfl⟩ := exists_of_mem_retime done member
    exact knows.events old among

theorem Knows.place {number : Nat} {track : Track S} (knows : track.Knows number) (message : Message) (tick : Nat) :
    (track.place message tick).2.Knows number := by
  refine ⟨knows.itself, ?_⟩
  intro event member
  obtain ⟨old, _, _, _, rfl, ⟨rfl, _⟩ | ⟨among, _⟩⟩ := exists_of_mem_place member
  · exact knows.itself
  · exact knows.events old among

theorem Knows.remove {number place : Nat} {removed : Event S} {track after : Track S} (knows : track.Knows number)
    (done : track.remove place = .ok (removed, after)) : after.Knows number := by
  constructor
  · obtain ⟨_, _, _, rfl⟩ := remove_ok done
    exact knows.itself
  · intro event member
    obtain ⟨old, among, _, _, rfl⟩ := exists_of_mem_remove done member
    exact knows.events old among

end Track

end MidiFile
