import MidiFile.Proofs.Track.Edit

/-! # Timelines

The timeline of a track is the row of its messages, each with its tick (`Track.timeline`). Where
events follow one another, all else that their order says follows from it (`cores_of_timeline`): the
delta times are the gaps between the ticks, and the numbers count up. So it is enough to say of an
edit what it does to the timeline. A message goes behind all that come at its tick or before
(`timeline_place`, `Parted`), where the end of the track stays behind it; taking an event out drops
its cue and no other (`timeline_remove`).
-/

namespace MidiFile

variable {S : Type}

/-- When an event happens, and what. -/
def Event.cue (event : Event S) : Nat × Message := (event.tick, event.message)

/-- The messages of a track with their ticks, in order. -/
def Track.timeline (track : Track S) : List (Nat × Message) := track.events.map Event.cue

namespace Timeline

/-- The cues of a row but for the end of the track. -/
def opened (row : List (Nat × Message)) : List (Nat × Message) := row.filter (!·.2.isEnd)

/-- The end of the track. -/
def ending (row : List (Nat × Message)) : List (Nat × Message) := row.filter (·.2.isEnd)

/-- A cue no earlier than a tick. -/
def raise (tick : Nat) (cue : Nat × Message) : Nat × Message := (max cue.1 tick, cue.2)

/-- A cue in its place in a row, with the end of the track behind it. -/
def place (cue : Nat × Message) (row : List (Nat × Message)) : List (Nat × Message) :=
  insertBy Prod.fst cue (opened row) ++ (ending row).map (raise cue.1)

variable {cue first second : Nat × Message} {row : List (Nat × Message)}

theorem mem_opened_iff : cue ∈ opened row ↔ cue ∈ row ∧ cue.2.isEnd = false := by simp [opened]

theorem mem_ending_iff : cue ∈ ending row ↔ cue ∈ row ∧ cue.2.isEnd = true := by simp [ending]

/-- A row in which every end stands behind all that is none. -/
theorem parts_append {front back : List (Nat × Message)} (open_ : ∀ cue ∈ front, cue.2.isEnd = false)
    (ends : ∀ cue ∈ back, cue.2.isEnd = true) : opened (front ++ back) = front ∧ ending (front ++ back) = back := by
  have openedFront : front.filter (!·.2.isEnd) = front := List.filter_eq_self.mpr (by simpa using open_)
  have openedBack : back.filter (!·.2.isEnd) = [] := List.filter_eq_nil_iff.mpr (by simpa using ends)
  have endingFront : front.filter (·.2.isEnd) = [] := List.filter_eq_nil_iff.mpr (by simpa using open_)
  have endingBack : back.filter (·.2.isEnd) = back := List.filter_eq_self.mpr (by simpa using ends)
  rw [opened, ending, List.filter_append, List.filter_append, openedFront, openedBack, endingFront, endingBack]
  simp

theorem parts_place (notEnd : cue.2.isEnd = false) (row : List (Nat × Message)) :
    opened (place cue row) = insertBy Prod.fst cue (opened row) ∧ ending (place cue row) = (ending row).map (raise cue.1) := by
  apply parts_append
  · intro other member
    rcases mem_insertBy.mp member with rfl | old
    · exact notEnd
    · exact (mem_opened_iff.mp old).2
  · intro other member
    obtain ⟨old, among, rfl⟩ := List.mem_map.mp member
    exact (mem_ending_iff.mp among).2

theorem raise_raise (earlier later : Nat) (cue : Nat × Message) :
    raise later (raise earlier cue) = raise (max earlier later) cue := by
  rw [raise, raise, raise, Nat.max_assoc]

/-- Cues of different ticks are placed in either way round. -/
theorem place_comm (notEnd : first.2.isEnd = false) (notEndToo : second.2.isEnd = false) (apart : first.1 ≠ second.1)
    (row : List (Nat × Message)) : place second (place first row) = place first (place second row) := by
  have raised : ((ending row).map (raise first.1)).map (raise second.1) =
      ((ending row).map (raise second.1)).map (raise first.1) := by
    rw [List.map_map, List.map_map]
    refine List.map_congr_left fun cue _ => ?_
    rw [Function.comp_apply, Function.comp_apply, raise_raise, raise_raise, Nat.max_comm]
  calc place second (place first row)
    _ = insertBy Prod.fst second (insertBy Prod.fst first (opened row)) ++
        ((ending row).map (raise first.1)).map (raise second.1) := by
      conv => lhs; rw [place, (parts_place notEnd row).1, (parts_place notEnd row).2]
    _ = insertBy Prod.fst first (insertBy Prod.fst second (opened row)) ++
        ((ending row).map (raise second.1)).map (raise first.1) := by
      rw [insertBy_comm apart.symm, raised]
    _ = place first (place second row) := by
      conv => rhs; rw [place, (parts_place notEndToo row).1, (parts_place notEndToo row).2]

/-- A row in parts for a new cue at a tick: what comes at the tick or before it, what comes behind it,
    and the end of the track if there is one. -/
structure Parted (tick : Nat) (row front back ending : List (Nat × Message)) : Prop where
  whole : row = front ++ back ++ ending
  upTo : ∀ cue ∈ front, cue.1 ≤ tick
  behind : ∀ cue ∈ back, tick < cue.1
  opened : ∀ cue ∈ front ++ back, cue.2.isEnd = false
  ends : ∀ cue ∈ ending, cue.2.isEnd = true
  single : ending.length ≤ 1

/-- Only the last cue of a row may be the end, so that there is at most one. -/
theorem parts_of_ends (ends : row.Pairwise fun earlier _ => earlier.2.isEnd = false) :
    row = opened row ++ ending row ∧ (ending row).length ≤ 1 := by
  induction row with
  | nil => exact ⟨rfl, Nat.zero_le _⟩
  | cons first rest ih =>
    obtain ⟨before, later⟩ := List.pairwise_cons.mp ends
    obtain ⟨whole, single⟩ := ih later
    by_cases isEnd : first.2.isEnd = true
    · have last : rest = [] := by
        refine List.eq_nil_iff_forall_not_mem.mpr fun next among => ?_
        rw [before next among] at isEnd
        cases isEnd
      subst last
      simp [opened, ending, isEnd]
    · have openedCons : opened (first :: rest) = first :: opened rest := List.filter_cons_of_pos (by simpa using isEnd)
      have endingCons : ending (first :: rest) = ending rest := List.filter_cons_of_neg isEnd
      rw [openedCons, endingCons, List.cons_append, ← whole]
      exact ⟨rfl, single⟩

/-- Placing a cue parts the row that it goes into. -/
theorem exists_parted (ends : row.Pairwise fun earlier _ => earlier.2.isEnd = false)
    (sorted : row.Pairwise fun earlier later => earlier.1 ≤ later.1) (cue : Nat × Message) :
    ∃ front back, Parted cue.1 row front back (ending row) ∧ front = (opened row).takeWhile (·.1 ≤ cue.1) ∧
      place cue row = front ++ cue :: (back ++ (ending row).map (raise cue.1)) := by
  obtain ⟨whole, single⟩ := parts_of_ends ends
  refine ⟨(opened row).takeWhile (·.1 ≤ cue.1), (opened row).dropWhile (·.1 ≤ cue.1), ⟨?_, ?_, ?_, ?_, ?_, single⟩, rfl, ?_⟩
  · rwa [List.takeWhile_append_dropWhile]
  · intro other member
    simpa using List.mem_takeWhile_imp member
  · intro other member
    have late := not_of_mem_dropWhile ((sorted.sublist List.filter_sublist).imp fun before later => ?_) member
    · simpa using late
    · rw [decide_eq_true_eq] at later ⊢
      exact Nat.le_trans before later
  · rw [List.takeWhile_append_dropWhile]
    exact fun other member => (mem_opened_iff.mp member).2
  · exact fun other member => (mem_ending_iff.mp member).2
  · rw [place, insertBy_eq, List.append_assoc, List.cons_append]

end Timeline

section
variable {tick number : Nat} {events others : List (Event S)}

/-- Where events follow one another, delta times and numbers follow from the timeline. -/
theorem cores_of_timeline (regular : Regular tick number events) (regularToo : Regular tick number others)
    (same : others.map Event.cue = events.map Event.cue) : others.map Event.core = events.map Event.core := by
  induction events generalizing tick number others with
  | nil => rw [List.map_eq_nil_iff.mp same]
  | cons event rest ih =>
    obtain ⟨other, others, rfl, alike, later⟩ := List.map_eq_cons_iff.mp same
    obtain ⟨place, message⟩ := Prod.mk.inj alike
    obtain ⟨⟨at_, numbered, _⟩, regular⟩ := regular_cons_iff.mp regular
    obtain ⟨⟨atToo, numberedToo, _⟩, regularToo⟩ := regular_cons_iff.mp regularToo
    have delta : other.delta = event.delta := by omega
    have core : other.core = event.core := by
      simp only [Event.core, message, delta, place, numbered, numberedToo]
    rw [List.map_cons, List.map_cons, core, ih regular (place ▸ regularToo) later]

end

namespace Track

variable {message : Message} {tick number : Nat} {track after : Track S} {removed : Event S}

theorem ends_timeline (regular : Regular 0 0 track.events) :
    track.timeline.Pairwise fun earlier _ => earlier.2.isEnd = false :=
  List.pairwise_map.mpr regular.ends

theorem sorted_timeline (regular : Regular 0 0 track.events) :
    track.timeline.Pairwise fun earlier later => earlier.1 ≤ later.1 :=
  List.pairwise_map.mpr (sorted_events regular)

/-- Among which cues a message goes that is not the end, and what stays behind it. -/
theorem timeline_room (regular : Regular 0 0 track.events) (notEnd : message.isEnd = false) (tick : Nat) :
    (track.room message tick).1.map Event.cue = Timeline.opened track.timeline ∧
      (track.room message tick).2.map Event.cue = (Timeline.ending track.timeline).map (Timeline.raise tick) := by
  rcases room_cases message tick track with ⟨alone, room⟩ | ⟨_, init, last, whole, isEnd, room⟩
  · have open_ := open_of_not_ended regular (alone.resolve_left (by simp [notEnd]))
    have opened : ∀ cue ∈ track.timeline, cue.2.isEnd = false := List.forall_mem_map.mpr open_
    obtain ⟨front, back⟩ := Timeline.parts_append opened (List.forall_mem_nil _)
    rw [List.append_nil] at front back
    rw [room, front, back]
    exact ⟨rfl, rfl⟩
  · have ends := ends_timeline regular
    have timeline : track.timeline = init.map Event.cue ++ [last.cue] := by simp [timeline, whole]
    rw [timeline] at ends
    have opened : ∀ cue ∈ init.map Event.cue, cue.2.isEnd = false := fun cue member =>
      (List.pairwise_append.mp ends).2.2 cue member last.cue (List.mem_singleton_self _)
    have ending : ∀ cue ∈ [last.cue], cue.2.isEnd = true := List.forall_mem_singleton.mpr isEnd
    obtain ⟨front, back⟩ := Timeline.parts_append opened ending
    rw [room, timeline, front, back]
    exact ⟨rfl, rfl⟩

theorem timeline_arranged (message : Message) (tick : Nat) (track : Track S) :
    (track.place message tick).2.timeline = (track.arranged message tick).map Event.cue := by
  rw [place_track, timeline, map_renumbered fun _ _ => rfl, map_respaced fun _ _ => rfl]

/-- A message that is not the end of the track goes behind all that come at its tick or before, and
    the end stays behind it. -/
theorem timeline_place (regular : Regular 0 0 track.events) (notEnd : message.isEnd = false) (tick : Nat) :
    (track.place message tick).2.timeline = Timeline.place (tick, message) track.timeline := by
  obtain ⟨opened, ending⟩ := timeline_room regular notEnd tick
  have ticks : ∀ event : Event S, event.cue.1 = event.tick := fun _ => rfl
  have cue : (track.placed message tick).cue = (tick, message) := rfl
  rw [timeline_arranged, arranged, Timeline.place, ← opened, ← ending, ← cue, ← map_insertBy ticks, insertBy_eq]
  simp [arrange]

/-- The place of a message is the count of those that come at its tick or before. -/
theorem number_place (regular : Regular 0 0 track.events) (notEnd : message.isEnd = false) (tick : Nat) :
    (track.place message tick).1 = ((Timeline.opened track.timeline).takeWhile (·.1 ≤ tick)).length := by
  obtain ⟨opened, _⟩ := timeline_room regular notEnd tick
  rw [place_number, ← opened, List.takeWhile_map, List.length_map]
  rfl

/-- The end of the track goes behind all else. -/
theorem timeline_place_end (isEnd : message.isEnd = true) (upTo : ∀ event ∈ track.events, event.tick ≤ tick) :
    (track.place message tick).1 = track.events.length ∧
      (track.place message tick).2.timeline = track.timeline ++ [(tick, message)] := by
  have room : track.room message tick = (track.events, []) := if_pos isEnd
  constructor
  · rw [place_number, room, List.takeWhile_eq_self_iff.mpr fun event member => decide_eq_true (upTo event member)]
  · rw [timeline_arranged, arranged_behind room upTo, List.map_append]
    rfl

/-- What is taken out leaves all else as it was. -/
theorem timeline_remove (done : track.remove number = .ok (removed, after)) :
    after.timeline = track.timeline.eraseIdx number := by
  obtain ⟨event, _, _, rfl⟩ := remove_ok done
  rw [timeline, map_renumbered fun _ _ => rfl, List.map_append, map_delayed fun _ _ => rfl, List.map_take, List.map_drop,
    ← List.eraseIdx_eq_take_drop_succ]
  rfl

end Track

end MidiFile
