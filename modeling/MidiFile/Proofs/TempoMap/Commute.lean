import MidiFile.Proofs.TempoMap.Registration
import Mathlib.Logic.Equiv.Basic

/-! # Settings made in either order

Two settings at different ticks go into different entries, and one of a tempo and one of a time
signature go into different parts of the same entry, so that it does not matter which of them is made
first (`register_comm`). Only the numbers of entries tell: where both settings make a new entry, the
first one gets the lower number, and the maps are the same up to an exchange of the two numbers
(`TempoMap.renamed`).
-/

namespace MidiFile

variable {S : Type}

namespace Entry

/-- The entry under another number. -/
def renamed (rename : Nat → Nat) (entry : Entry S) : Entry S := { entry with id := rename entry.id }

/-- The entry with nothing worked out, if it is in effect. -/
def bare [Clock S] (entry : Entry S) : Entry S :=
  if entry.retired then entry else { entry with seconds := Clock.zero, tempo := defaultTempo, signature := .common }

theorem bare_retired [Clock S] {entry : Entry S} (gone : entry.retired = true) : entry.bare = entry := if_pos gone

theorem bare_held [Clock S] {entry : Entry S} (held : entry.retired = false) :
    entry.bare = { entry with seconds := Clock.zero, tempo := defaultTempo, signature := .common } :=
  if_neg (Bool.eq_false_iff.mp held)

@[simp] theorem retired_bare [Clock S] (entry : Entry S) : entry.bare.retired = entry.retired := by
  rw [bare]
  split <;> rfl

@[simp] theorem tick_bare [Clock S] (entry : Entry S) : entry.bare.tick = entry.tick := by
  rw [bare]
  split <;> rfl

theorem bare_follow [Clock S] (division : Division) (before : Pace S) {entry : Entry S} (held : entry.retired = false) :
    (entry.follow division before).bare = entry.bare := by
  have followed : (entry.follow division before).retired = false := held
  rw [bare_held followed, bare_held held]
  rfl

theorem follow_bare [Clock S] (division : Division) (before : Pace S) {entry : Entry S} (held : entry.retired = false) :
    entry.bare.follow division before = entry.follow division before := by
  rw [bare_held held]
  rfl

/-- The entry behind a setting at a tick, which may be another tick. -/
def setAt (tick : Nat) (tempo? : Option Nat) (signature? : Option TimeSignature) (entry : Entry S) : Entry S :=
  if entry.beginsAt tick then entry.set tempo? signature? else entry

@[simp] theorem tick_setAt (tick : Nat) (tempo? : Option Nat) (signature? : Option TimeSignature) (entry : Entry S) :
    (entry.setAt tick tempo? signature?).tick = entry.tick := by
  rw [setAt]
  split <;> rfl

@[simp] theorem retired_setAt (tick : Nat) (tempo? : Option Nat) (signature? : Option TimeSignature) (entry : Entry S) :
    (entry.setAt tick tempo? signature?).retired = entry.retired := by
  rw [setAt]
  split <;> rfl

@[simp] theorem beginsAt_setAt (tick other : Nat) (tempo? : Option Nat) (signature? : Option TimeSignature)
    (entry : Entry S) : (entry.setAt tick tempo? signature?).beginsAt other = entry.beginsAt other := by
  rw [beginsAt, tick_setAt, retired_setAt, beginsAt]

@[simp] theorem beginsAt_set (tick : Nat) (tempo? : Option Nat) (signature? : Option TimeSignature) (entry : Entry S) :
    (entry.set tempo? signature?).beginsAt tick = entry.beginsAt tick := rfl

theorem tick_of_beginsAt {tick : Nat} {entry : Entry S} (begins : entry.beginsAt tick = true) : entry.tick = tick := by
  rw [beginsAt, Bool.and_eq_true, beq_iff_eq] at begins
  exact begins.1

theorem held_of_beginsAt {tick : Nat} {entry : Entry S} (begins : entry.beginsAt tick = true) : entry.retired = false := by
  rw [beginsAt, Bool.and_eq_true, Bool.not_eq_true'] at begins
  exact begins.2

theorem beginsAt_blank [Clock S] {id tick other : Nat} :
    (blank id tick : Entry S).beginsAt other = true ↔ other = tick := by
  rw [beginsAt, Bool.and_eq_true, beq_iff_eq]
  exact ⟨fun both => both.1.symm, fun same => ⟨same.symm, rfl⟩⟩

theorem set_set (entry : Entry S) (tempo? tempo?' : Option Nat) (signature? signature?' : Option TimeSignature) :
    (entry.set tempo? signature?).set tempo?' signature?' = entry.set (tempo?'.or tempo?) (signature?'.or signature?) := by
  simp only [set, Option.or_assoc]

end Entry

namespace TempoMap

/-- The map with its entries under other numbers. -/
def renamed (rename : Nat → Nat) (map : TempoMap S) : TempoMap S := map.mapEntries (Entry.renamed rename)

/-- Something is set at the tick. -/
def Has (tick : Nat) (map : TempoMap S) : Prop := ∃ entry ∈ map.entries, entry.beginsAt tick = true

theorem mapEntries_eq_self {map : TempoMap S} {change : Entry S → Entry S}
    (kept : ∀ entry ∈ map.entries, change entry = entry) : map.mapEntries change = map := by
  rw [mapEntries, map_eq_self kept]

section
variable [Clock S] {map : TempoMap S} {tick other : Nat} {tempo? tempo?' : Option Nat}
  {signature? signature?' : Option TimeSignature}

theorem set_of_has (has : map.Has tick) :
    map.set tick tempo? signature? = map.mapEntries (Entry.setAt tick tempo? signature?) := by
  rw [set, if_pos (List.any_eq_true.mpr has)]
  rfl

theorem set_of_not_has (new : ¬map.Has tick) : map.set tick tempo? signature? = { map with
    nextId := map.nextId + 1
    entries := insertBy Entry.tick ((Entry.blank map.nextId tick).set tempo? signature?) map.entries } := by
  rw [set, if_neg fun present => new (List.any_eq_true.mp present), insertBy_eq]
  rfl

theorem has_set_iff : (map.set tick tempo? signature?).Has other ↔ map.Has other ∨ other = tick := by
  by_cases has : map.Has tick
  · have kept : (map.set tick tempo? signature?).Has other ↔ map.Has other := by
      simp [set_of_has has, Has, mapEntries]
    rw [kept]
    constructor
    · exact .inl
    · rintro (before | rfl)
      · exact before
      · exact has
  · rw [set_of_not_has has]
    simp only [Has, mem_insertBy, exists_eq_or_imp, Entry.beginsAt_set, Entry.beginsAt_blank]
    exact Or.comm

/-! ## Two settings -/

/-- Two settings at one tick are one setting, in which the later goes first. -/
theorem set_set : (map.set tick tempo? signature?).set tick tempo?' signature?' =
    map.set tick (tempo?'.or tempo?) (signature?'.or signature?) := by
  have again : (map.set tick tempo? signature?).Has tick := has_set_iff.mpr (.inr rfl)
  rw [set_of_has again]
  by_cases has : map.Has tick
  · have both (entry : Entry S) : (entry.setAt tick tempo? signature?).setAt tick tempo?' signature?' =
        entry.setAt tick (tempo?'.or tempo?) (signature?'.or signature?) := by
      by_cases here : entry.beginsAt tick = true
      · simp only [Entry.setAt, if_pos here]
        exact (if_pos here).trans (Entry.set_set entry _ _ _ _)
      · simp only [Entry.setAt, if_neg here]
    rw [set_of_has has, set_of_has has, mapEntries, mapEntries, mapEntries, List.map_map]
    simp only [Function.comp_def, both]
  · -- The second setting goes into the entry that the first one made.
    have kept : map.mapEntries (Entry.setAt tick tempo?' signature?') = map :=
      mapEntries_eq_self fun entry member => if_neg fun here => has ⟨entry, member, here⟩
    have entries : map.entries.map (Entry.setAt tick tempo?' signature?') = map.entries := congrArg TempoMap.entries kept
    have made : ((Entry.blank map.nextId tick).set tempo? signature?).setAt tick tempo?' signature?' =
        (Entry.blank (S := S) map.nextId tick).set (tempo?'.or tempo?) (signature?'.or signature?) :=
      (if_pos ((Entry.beginsAt_set _ _ _ _).trans (Entry.beginsAt_blank.mpr rfl))).trans (Entry.set_set _ _ _ _ _)
    rw [set_of_not_has has, set_of_not_has has, mapEntries,
      map_insertBy (Entry.tick_setAt tick tempo?' signature?'), made, entries]

/-- Two settings at different ticks can be made in either order, where one of them finds an entry. -/
theorem set_comm_of_has (has : map.Has tick) (apart : tick ≠ other) :
    (map.set tick tempo? signature?).set other tempo?' signature?' =
      (map.set other tempo?' signature?').set tick tempo? signature? := by
  have away (entry : Entry S) (there : entry.beginsAt other = true) : entry.setAt tick tempo? signature? = entry :=
    if_neg fun here => apart ((Entry.tick_of_beginsAt here).symm.trans (Entry.tick_of_beginsAt there))
  rw [set_of_has has, set_of_has (has_set_iff.mpr (.inl has))]
  refine set_mapEntries (Entry.tick_setAt tick tempo? signature?) (Entry.retired_setAt tick tempo? signature?) ?_
    (away _ (Entry.beginsAt_blank.mpr rfl))
  intro entry there
  have later : (entry.set tempo?' signature?').beginsAt other = true := there
  rw [away entry there, away _ later]

/-- Two settings that both make a new entry differ in the numbers that these get. -/
theorem set_comm_of_not_has (ordered : map.Ordered) (new : ¬map.Has tick) (newToo : ¬map.Has other) (apart : tick ≠ other) :
    (map.set tick tempo? signature?).set other tempo?' signature?' =
      ((map.set other tempo?' signature?').set tick tempo? signature?).renamed
        (Equiv.swap map.nextId (map.nextId + 1)) := by
  have stillNew : ¬(map.set tick tempo? signature?).Has other := fun has =>
    (has_set_iff.mp has).elim newToo fun same => apart same.symm
  have stillNewToo : ¬(map.set other tempo?' signature?').Has tick := fun has => (has_set_iff.mp has).elim new apart
  have old : map.entries.map (Entry.renamed (Equiv.swap map.nextId (map.nextId + 1))) = map.entries := by
    refine map_eq_self fun entry member => ?_
    have given := ordered.fresh entry.id (List.mem_map_of_mem member)
    have fixed : Equiv.swap map.nextId (map.nextId + 1) entry.id = entry.id :=
      Equiv.swap_apply_of_ne_of_ne (by omega) (by omega)
    rw [Entry.renamed, fixed]
  have keys (entry : Entry S) :
      (entry.renamed (Equiv.swap map.nextId (map.nextId + 1))).tick = entry.tick := rfl
  have second : ((Entry.blank (S := S) (map.nextId + 1) tick).set tempo? signature?).renamed
      (Equiv.swap map.nextId (map.nextId + 1)) = (Entry.blank map.nextId tick).set tempo? signature? := by
    simp [Entry.renamed, Entry.set, Entry.blank]
  have first : ((Entry.blank (S := S) map.nextId other).set tempo?' signature?').renamed
      (Equiv.swap map.nextId (map.nextId + 1)) = (Entry.blank (map.nextId + 1) other).set tempo?' signature?' := by
    simp [Entry.renamed, Entry.set, Entry.blank]
  rw [set_of_not_has stillNew, set_of_not_has stillNewToo, set_of_not_has new, set_of_not_has newToo, renamed, mapEntries,
    map_insertBy keys, map_insertBy keys, old, first, second, insertBy_comm]
  exact apart.symm

variable {division : Division}

/-- What was worked out in front of a setting has no part in what is worked out behind it. -/
theorem resolve_set_resolve (division : Division) (tick : Nat) (tempo? : Option Nat) (signature? : Option TimeSignature)
    (map : TempoMap S) : ((map.resolve division).set tick tempo? signature?).resolve division =
      (map.set tick tempo? signature?).resolve division := by
  have resolve_bare (map : TempoMap S) : (map.mapEntries Entry.bare).resolve division = map.resolve division := by
    have general : ∀ (before : Pace S) (entries : List (Entry S)),
        followAll division before (entries.map Entry.bare) = followAll division before entries := by
      intro before entries
      induction entries generalizing before with
      | nil => rfl
      | cons entry rest ih =>
        have bare := entry.retired_bare
        rw [List.map_cons]
        cases gone : entry.retired with
        | true => rw [followAll_retired (bare.trans gone), followAll_retired gone, ih, Entry.bare_retired gone]
        | false => rw [followAll_held (bare.trans gone), followAll_held gone, ih, Entry.follow_bare _ _ gone]
    rw [resolve, resolve, mapEntries, general]
  have bare_resolve : (map.resolve division).mapEntries Entry.bare = map.mapEntries Entry.bare := by
    have general : ∀ (before : Pace S) (entries : List (Entry S)),
        (followAll division before entries).map Entry.bare = entries.map Entry.bare := by
      intro before entries
      induction entries generalizing before with
      | nil => rfl
      | cons entry rest ih =>
        cases gone : entry.retired with
        | true => rw [followAll_retired gone, List.map_cons, List.map_cons, ih]
        | false => rw [followAll_held gone, List.map_cons, List.map_cons, ih, Entry.bare_follow _ _ gone]
    rw [mapEntries, mapEntries, resolve, general]
  have set_bare (map : TempoMap S) : (map.mapEntries Entry.bare).set tick tempo? signature? =
      (map.set tick tempo? signature?).mapEntries Entry.bare := by
    refine set_mapEntries Entry.tick_bare Entry.retired_bare ?_ rfl
    intro entry begins
    have held := Entry.held_of_beginsAt begins
    have later : (entry.set tempo? signature?).retired = false := held
    rw [Entry.bare_held held, Entry.bare_held later]
    rfl
  calc ((map.resolve division).set tick tempo? signature?).resolve division
    _ = (((map.resolve division).mapEntries Entry.bare).set tick tempo? signature?).resolve division := by
      rw [set_bare, resolve_bare]
    _ = ((map.mapEntries Entry.bare).set tick tempo? signature?).resolve division := by rw [bare_resolve]
    _ = (map.set tick tempo? signature?).resolve division := by rw [set_bare, resolve_bare]

theorem resolve_renamed (rename : Nat → Nat) (division : Division) (map : TempoMap S) :
    (map.renamed rename).resolve division = (map.resolve division).renamed rename :=
  resolve_mapEntries (Entry.renamed rename) (fun _ => rfl) (fun _ _ => rfl) (fun _ => rfl) map

omit [Clock S] in
@[simp] theorem renamed_refl (map : TempoMap S) : map.renamed (Equiv.refl Nat) = map := mapEntries_eq_self fun _ _ => rfl

/-- Settings that are independent can be made in either order, but for the numbers of entries that are
    new. -/
theorem set_comm (ordered : map.Ordered) (independent : tick ≠ other ∨
      ¬(tempo?.isSome = true ∧ tempo?'.isSome = true) ∧ ¬(signature?.isSome = true ∧ signature?'.isSome = true)) :
    ∃ rename : Equiv.Perm Nat,
      (∀ id, id < map.nextId ∨ ((map.set tick tempo? signature?).set other tempo?' signature?').nextId ≤ id → rename id = id) ∧
      (map.set tick tempo? signature?).set other tempo?' signature?' =
        ((map.set other tempo?' signature?').set tick tempo? signature?).renamed rename := by
  by_cases apart : tick = other
  · subst apart
    obtain ⟨oneTempo, oneSignature⟩ := independent.resolve_left (not_not.mpr rfl)
    have tempo : tempo?'.or tempo? = tempo?.or tempo?' := by
      cases tempo? <;> cases tempo?' <;> simp_all
    have signature : signature?'.or signature? = signature?.or signature?' := by
      cases signature? <;> cases signature?' <;> simp_all
    exact ⟨Equiv.refl Nat, fun _ _ => rfl, by rw [set_set, set_set, tempo, signature, renamed_refl]⟩
  · by_cases has : map.Has tick
    · exact ⟨Equiv.refl Nat, fun _ _ => rfl, by rw [renamed_refl, set_comm_of_has has apart]⟩
    · by_cases hasToo : map.Has other
      · exact ⟨Equiv.refl Nat, fun _ _ => rfl, by rw [renamed_refl, set_comm_of_has hasToo (Ne.symm apart)]⟩
      · refine ⟨Equiv.swap map.nextId (map.nextId + 1), ?_, set_comm_of_not_has ordered has hasToo apart⟩
        have stillNew : ¬(map.set tick tempo? signature?).Has other := fun found =>
          (has_set_iff.mp found).elim hasToo fun same => apart same.symm
        rw [set_of_not_has stillNew, set_of_not_has has]
        rintro id (old | later)
        · exact Equiv.swap_apply_of_ne_of_ne (by omega) (by omega)
        · have late : map.nextId + 1 + 1 ≤ id := later
          exact Equiv.swap_apply_of_ne_of_ne (by omega) (by omega)

/-- Messages are registered in either order, where they do not set the same at the same tick. -/
theorem register_comm (ordered : map.Ordered) (division : Division) {first second : Message}
    (independent : tick ≠ other ∨ ¬(first.tempo?.isSome = true ∧ second.tempo?.isSome = true) ∧
      ¬(first.timeSignature?.isSome = true ∧ second.timeSignature?.isSome = true)) :
    ∃ rename : Equiv.Perm Nat,
      (∀ id, id < map.nextId ∨ ((map.register division tick first).register division other second).nextId ≤ id →
        rename id = id) ∧
      (map.register division tick first).register division other second =
        ((map.register division other second).register division tick first).renamed rename := by
  by_cases changes : first.changesTempo = true
  · by_cases changesToo : second.changesTempo = true
    · obtain ⟨rename, fixed, same⟩ := set_comm ordered independent
      refine ⟨rename, ?_, ?_⟩
      · simp only [register, if_pos changes, if_pos changesToo, resolve_set_resolve]
        exact fixed
      · simp only [register, if_pos changes, if_pos changesToo, resolve_set_resolve]
        rw [same, resolve_renamed]
    · exact ⟨Equiv.refl Nat, fun _ _ => rfl, by simp only [register, if_neg changesToo, renamed_refl]⟩
  · exact ⟨Equiv.refl Nat, fun _ _ => rfl, by simp only [register, if_neg changes, renamed_refl]⟩

end

end TempoMap

end MidiFile
