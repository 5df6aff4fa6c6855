import MidiFile.Proofs.TempoMap.Registration

/-! # References to the entries of a tempo map

How many refer to an entry is asked for by its number (`TempoMap.references?`). Registration gives
each new entry a new number with one reference to it, the one of the map, and touches no other
(`TempoMap.Grown`). A reference that is taken or given back changes the count of one number and
nothing else (`acquire_split`, `release_split`); with the last one the number is gone
(`TempoMap.Counted`). Working out times and counting dependents have no part in this.
-/

namespace MidiFile

variable {S : Type}

/-- The number of an entry, its tick and how many refer to it. -/
def Entry.shared (entry : Entry S) : Nat × Nat × Nat := (entry.id, entry.tick, entry.references)

namespace TempoMap

/-- How many refer to the entry of a number, while it is in the map. -/
def references? (map : TempoMap S) (id : Nat) : Option Nat :=
  (map.entries.find? (·.id == id)).map (·.references)

/-- The numbers and the ticks of the entries and how many refer to each. -/
def tally (map : TempoMap S) : List (Nat × Nat × Nat) := map.entries.map Entry.shared

theorem references?_of_tally {map other : TempoMap S} (same : other.tally = map.tally) (id : Nat) :
    other.references? id = map.references? id := by
  have part (map : TempoMap S) : map.references? id = (map.tally.find? (·.1 == id)).map (·.2.2) := by
    rw [tally, List.find?_map, Option.map_map]
    rfl
  rw [part, same, ← part]

theorem Ordered.tally_recount {map : TempoMap S} (ordered : map.Ordered) (sources : List Nat) :
    (map.recount sources).tally = map.tally := by
  rw [ordered.recount_eq]
  simp only [tally, mapEntries, List.map_map]
  rfl

theorem tally_resolve [Clock S] (division : Division) (map : TempoMap S) : (map.resolve division).tally = map.tally :=
  map_followAll (fun _ _ => rfl) _ _

theorem references?_eq_none_iff {map : TempoMap S} {id : Nat} :
    map.references? id = none ↔ ∀ entry ∈ map.entries, entry.id ≠ id := by
  simp [references?]

theorem Ordered.find?_id {map : TempoMap S} (ordered : map.Ordered) {entry : Entry S} (member : entry ∈ map.entries) :
    map.entries.find? (·.id == entry.id) = some entry := by
  cases found : map.entries.find? (·.id == entry.id) with
  | none => simpa using List.find?_eq_none.mp found entry member
  | some other =>
    have same : other.id = entry.id := by simpa using List.find?_some found
    rw [ordered.eq_of_id (List.mem_of_find?_eq_some found) member same]

theorem Ordered.references?_eq {map : TempoMap S} (ordered : map.Ordered) {entry : Entry S}
    (member : entry ∈ map.entries) : map.references? entry.id = some entry.references := by
  rw [references?, ordered.find?_id member, Option.map_some]

theorem mem_ids_iff {map : TempoMap S} {id : Nat} :
    id ∈ map.entries.map (·.id) ↔ (map.references? id).isSome = true := by
  simp [references?, List.find?_isSome]

/-- A handle names an entry of the map that it was made for, and no other. -/
theorem Ordered.find?_eq_some_iff {map : TempoMap S} (ordered : map.Ordered) {handle : Handle} {entry : Entry S} :
    map.find? handle = some entry ↔ entry ∈ map.entries ∧ handle = map.handle entry := by
  constructor
  · intro found
    obtain ⟨member, same⟩ := mem_of_find? found
    refine ⟨member, ?_⟩
    by_cases own : handle.map = map.identity
    · rw [TempoMap.handle, ← own, same]
    · rw [find?, if_neg own] at found
      cases found
  · rintro ⟨member, rfl⟩
    exact (if_pos rfl).trans (ordered.find?_id member)

theorem find?_eq_none_iff {map : TempoMap S} {handle : Handle} :
    map.find? handle = none ↔ handle.map ≠ map.identity ∨ map.references? handle.entry = none := by
  rw [find?, references?]
  split
  · simp [*]
  · simp [*]

/-- The map has more entries, each with a new number and one reference to it, and all references
    that there were. -/
structure Grown (map after : TempoMap S) : Prop where
  identity : after.identity = map.identity
  next : map.nextId ≤ after.nextId
  references : ∀ id, after.references? id = map.references? id ∨
    map.nextId ≤ id ∧ id < after.nextId ∧ after.references? id = some 1

theorem Grown.of_tally {map after : TempoMap S} (identity : after.identity = map.identity)
    (next : after.nextId = map.nextId) (same : after.tally = map.tally) : Grown map after :=
  ⟨identity, Nat.le_of_eq next.symm, fun id => .inl (references?_of_tally same id)⟩

theorem Grown.refl (map : TempoMap S) : Grown map map := .of_tally rfl rfl rfl

theorem Grown.trans {map between after : TempoMap S} (first : Grown map between) (second : Grown between after) :
    Grown map after := by
  refine ⟨second.identity.trans first.identity, Nat.le_trans first.next second.next, ?_⟩
  intro id
  rcases second.references id with same | ⟨fresh, issued, single⟩
  · rw [same]
    exact (first.references id).imp_right fun ⟨fresh, issued, single⟩ =>
      ⟨fresh, Nat.lt_of_lt_of_le issued second.next, single⟩
  · exact .inr ⟨Nat.le_trans first.next fresh, issued, single⟩

/-- An entry that is put in between counts for its own number only. -/
theorem references?_insert {map : TempoMap S} {front back : List (Entry S)} (whole : map.entries = front ++ back)
    (entry : Entry S) (next id : Nat) :
    references? { map with nextId := next, entries := front ++ entry :: back } id = map.references? id ∨
      entry.id = id ∧
        references? { map with nextId := next, entries := front ++ entry :: back } id = some entry.references := by
  simp only [references?, whole, List.find?_append]
  cases early : front.find? (·.id == id) with
  | some other => exact .inl rfl
  | none =>
    by_cases own : entry.id = id
    · exact .inr ⟨own, by simp [own]⟩
    · exact .inl (by simp [own])

section
variable [Clock S]

theorem grown_resolve (division : Division) (map : TempoMap S) : Grown map (map.resolve division) :=
  .of_tally rfl rfl (tally_resolve division map)

theorem grown_set (tick : Nat) (tempo? : Option Nat) (signature? : Option TimeSignature) (map : TempoMap S) :
    Grown map (map.set tick tempo? signature?) := by
  by_cases present : map.entries.any (·.beginsAt tick) = true
  · rw [set, if_pos present]
    refine .of_tally rfl rfl ?_
    simp only [tally, List.map_map]
    apply List.map_congr_left
    intro entry _
    by_cases here : entry.beginsAt tick = true
    · simp only [Function.comp_apply, if_pos here, Entry.set, Entry.shared]
    · simp only [Function.comp_apply, if_neg here]
  · rw [set, if_neg present]
    refine ⟨rfl, Nat.le_succ _, ?_⟩
    intro id
    have whole : map.entries = map.entries.takeWhile (·.tick ≤ tick) ++ map.entries.dropWhile (·.tick ≤ tick) :=
      List.takeWhile_append_dropWhile.symm
    refine (references?_insert whole _ _ id).imp_right ?_
    rintro ⟨rfl, single⟩
    exact ⟨Nat.le_refl _, Nat.lt_succ_self _, single⟩

theorem grown_register (division : Division) (tick : Nat) (message : Message) (map : TempoMap S) :
    Grown map (map.register division tick message) := by
  by_cases changes : message.changesTempo = true
  · rw [register, if_pos changes]
    exact (grown_set _ _ _ map).trans (grown_resolve division _)
  · rw [register, if_neg changes]
    exact .refl map

theorem grown_registerAll (division : Division) (events : List (Event S)) (map : TempoMap S) :
    Grown map (map.registerAll division events) := by
  induction events generalizing map with
  | nil => exact .refl map
  | cons event rest ih => exact (grown_register division event.tick event.message map).trans (ih _)

end

/-- One number has another count of references, or is gone, and all others have what they had. -/
structure Counted (id : Nat) (count? : Option Nat) (map after : TempoMap S) : Prop where
  identity : after.identity = map.identity
  next : after.nextId = map.nextId
  references : ∀ other, after.references? other = if other = id then count? else map.references? other

theorem Counted.of_tally {id : Nat} {count? : Option Nat} {map between after : TempoMap S}
    (counted : Counted id count? map between) (identity : after.identity = between.identity)
    (next : after.nextId = between.nextId) (same : after.tally = between.tally) : Counted id count? map after :=
  ⟨identity.trans counted.identity, next.trans counted.next,
    fun other => (references?_of_tally same other).trans (counted.references other)⟩

/-- No other entry has the number of an entry of an ordered map. -/
theorem Ordered.apart {map : TempoMap S} (ordered : map.Ordered) {front back : List (Entry S)} {entry : Entry S}
    (whole : map.entries = front ++ entry :: back) :
    (∀ other ∈ front, other.id ≠ entry.id) ∧ ∀ other ∈ back, other.id ≠ entry.id := by
  have ids := ordered.ids
  rw [whole, List.map_append, List.map_cons] at ids
  obtain ⟨_, later, across⟩ := List.pairwise_append.mp ids
  refine ⟨?_, ?_⟩
  · intro other early
    exact across _ (List.mem_map_of_mem early) _ List.mem_cons_self
  · intro other late
    exact Ne.symm ((List.pairwise_cons.mp later).1 _ (List.mem_map_of_mem late))

theorem Ordered.counted_replace {map : TempoMap S} (ordered : map.Ordered) {front back : List (Entry S)}
    {entry : Entry S} (whole : map.entries = front ++ entry :: back) (count : Nat) :
    Counted entry.id (some count) map { map with entries := front ++ { entry with references := count } :: back } := by
  refine ⟨rfl, rfl, ?_⟩
  intro id
  by_cases own : id = entry.id
  · have early : front.find? (·.id == entry.id) = none := by simpa using (ordered.apart whole).1
    simp [references?, own, early]
  · simp [references?, whole, own, Ne.symm own]

theorem Ordered.counted_remove {map : TempoMap S} (ordered : map.Ordered) {front back : List (Entry S)}
    {entry : Entry S} (whole : map.entries = front ++ entry :: back) :
    Counted entry.id none map { map with entries := front ++ back } := by
  refine ⟨rfl, rfl, ?_⟩
  intro id
  obtain ⟨early, late⟩ := ordered.apart whole
  by_cases own : id = entry.id
  · rw [if_pos own, references?_eq_none_iff, own]
    exact List.forall_mem_append.mpr ⟨early, late⟩
  · simp [references?, whole, own, Ne.symm own]

/-- One entry is replaced, given where it is. -/
theorem Ordered.put_eq {map : TempoMap S} (ordered : map.Ordered) {front back : List (Entry S)} {entry held : Entry S}
    (whole : map.entries = front ++ entry :: back) (id : held.id = entry.id) :
    map.put held = { map with entries := front ++ held :: back } := by
  have kept (part : List (Entry S)) (apart : ∀ other ∈ part, other.id ≠ entry.id) :
      (part.map fun other => if other.id = held.id then held else other) = part :=
    map_eq_self fun other member => if_neg (id ▸ apart other member)
  obtain ⟨early, late⟩ := ordered.apart whole
  rw [put, whole, List.map_append, List.map_cons, if_pos id.symm, kept front early, kept back late]

theorem Ordered.put_drop {map : TempoMap S} (ordered : map.Ordered) {front back : List (Entry S)} {entry : Entry S}
    (whole : map.entries = front ++ entry :: back) :
    map.put entry.drop = { map with entries := front ++ { entry with references := entry.references - 1 } :: back } :=
  ordered.put_eq whole rfl

theorem Ordered.filter_eq {map : TempoMap S} (ordered : map.Ordered) {front back : List (Entry S)} {entry : Entry S}
    (whole : map.entries = front ++ entry :: back) : map.entries.filter (·.id != entry.id) = front ++ back := by
  obtain ⟨early, late⟩ := ordered.apart whole
  rw [whole, List.filter_append, List.filter_cons_of_neg (by simp)]
  congr 1
  · simpa [List.filter_eq_self] using early
  · simpa [List.filter_eq_self] using late

/-- A reference is taken to the entry in effect at the tick, and nothing else changes. -/
theorem Ordered.acquire_split {map after : TempoMap S} (ordered : map.Ordered)
    (room : ∀ entry ∈ map.entries, entry.references < 0xFFFFFFFF) {tick : Nat} {held : Entry S}
    (done : map.acquire tick = some (held, after)) :
    ∃ front entry back, map.entries = front ++ entry :: back ∧ map.at? tick = some entry ∧
      held = { entry with references := entry.references + 1 } ∧
      after = { map with entries := front ++ held :: back } := by
  simp only [acquire, Option.map_eq_some_iff, Prod.mk.injEq] at done
  obtain ⟨entry, found, rfl, rfl⟩ := done
  have member := (mem_of_at? found).1
  obtain ⟨front, back, whole⟩ := List.append_of_mem member
  refine ⟨front, entry, back, whole, found, ?_, ordered.put_eq whole rfl⟩
  rw [← Entry.references_hold (room entry member)]
  rfl

theorem Ordered.counted_acquire {map after : TempoMap S} (ordered : map.Ordered)
    (room : ∀ entry ∈ map.entries, entry.references < 0xFFFFFFFF) {tick : Nat} {held : Entry S}
    (done : map.acquire tick = some (held, after)) :
    ∃ count, map.references? held.id = some count ∧ Counted held.id (some (count + 1)) map after := by
  obtain ⟨front, entry, back, whole, found, rfl, rfl⟩ := ordered.acquire_split room done
  exact ⟨entry.references, ordered.references?_eq (mem_of_at? found).1, ordered.counted_replace whole _⟩

/-- A map that comes from another knows no number that was given out in that one and was gone. -/
structure Succeeds (map after : TempoMap S) : Prop where
  identity : after.identity = map.identity
  next : map.nextId ≤ after.nextId
  gone : ∀ id < map.nextId, map.references? id = none → after.references? id = none

theorem Succeeds.refl (map : TempoMap S) : Succeeds map map := ⟨rfl, Nat.le_refl _, fun _ _ gone => gone⟩

theorem Succeeds.trans {map between after : TempoMap S} (first : Succeeds map between)
    (second : Succeeds between after) : Succeeds map after := by
  refine ⟨second.identity.trans first.identity, Nat.le_trans first.next second.next, ?_⟩
  intro id issued gone
  exact second.gone id (Nat.lt_of_lt_of_le issued first.next) (first.gone id issued gone)

theorem Grown.succeeds {map after : TempoMap S} (grown : Grown map after) : Succeeds map after := by
  refine ⟨grown.identity, grown.next, ?_⟩
  intro id issued gone
  rcases grown.references id with same | ⟨fresh, _⟩
  · rw [same, gone]
  · exact absurd issued (Nat.not_lt.mpr fresh)

theorem Counted.succeeds {id count : Nat} {count? : Option Nat} {map after : TempoMap S}
    (counted : Counted id count? map after) (before : map.references? id = some count) : Succeeds map after := by
  refine ⟨counted.identity, Nat.le_of_eq counted.next.symm, ?_⟩
  intro other _ gone
  have apart : other ≠ id := by
    rintro rfl
    rw [before] at gone
    cases gone
  rw [counted.references, if_neg apart, gone]

end TempoMap

end MidiFile
