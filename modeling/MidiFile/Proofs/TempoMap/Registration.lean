import MidiFile.Proofs.Rows
import MidiFile.Proofs.TempoMap.Order

/-! # What changes a tempo map

A tempo or a time signature goes into the entry of its tick, which is a new one if there was none
(`entries_set`). Everything that changes a map keeps it in order and settled, and each change
leaves the times in front of the tick that it is about as they were. A reference that is taken or
given back changes no time, unless it is the last one and the entry goes with it.
-/

namespace MidiFile

variable {S : Type}

/-- A list is cut where a condition that holds up to some place fails for the first time. -/
theorem takeWhile_of_split {α : Type} {p : α → Bool} {front back : List α} (upTo : ∀ x ∈ front, p x = true)
    (behind : ∀ x ∈ back, p x = false) :
    (front ++ back).takeWhile p = front ∧ (front ++ back).dropWhile p = back := by
  rw [List.takeWhile_append_of_pos upTo, List.dropWhile_append_of_pos upTo]
  cases back with
  | nil => simp
  | cons x rest => simp [behind x List.mem_cons_self]

/-- The entries in front of a tick, the one at the tick if there is one, and those behind it. -/
structure SplitAt (tick : Nat) (entries front : List (Entry S)) (here? : Option (Entry S)) (back : List (Entry S)) :
    Prop where
  whole : entries = front ++ (here?.toList ++ back)
  earlier : ∀ entry ∈ front, entry.tick < tick
  here : ∀ entry ∈ here?, entry.tick = tick
  later : ∀ entry ∈ back, tick < entry.tick

theorem exists_splitAt {entries : List (Entry S)} (ordered : (entries.map (·.tick)).Pairwise (· < ·)) (tick : Nat) :
    ∃ front here? back, SplitAt tick entries front here? back := by
  induction entries with
  | nil => exact ⟨[], none, [], rfl, by simp, by simp, by simp⟩
  | cons entry rest ih =>
    obtain ⟨first, others⟩ := List.pairwise_cons.mp ordered
    have behind : ∀ other ∈ rest, entry.tick < other.tick := fun other member => first _ (List.mem_map_of_mem member)
    rcases Nat.lt_trichotomy entry.tick tick with early | same | late
    · obtain ⟨front, here?, back, split⟩ := ih others
      refine ⟨entry :: front, here?, back, by rw [split.whole, List.cons_append], ?_, split.here, split.later⟩
      exact List.forall_mem_cons.mpr ⟨early, split.earlier⟩
    · refine ⟨[], some entry, rest, rfl, by simp, by simpa using same, ?_⟩
      exact fun other member => same ▸ behind other member
    · refine ⟨[], none, entry :: rest, rfl, by simp, by simp, ?_⟩
      exact List.forall_mem_cons.mpr ⟨late, fun other member => Nat.lt_trans late (behind other member)⟩

namespace TempoMap

variable [Clock S] {map : TempoMap S} {tick : Nat} {front back : List (Entry S)} {here? : Option (Entry S)}

/-- What is set goes into the one entry of the tick; all others stay. -/
theorem entries_set (ordered : map.Ordered) (split : SplitAt tick map.entries front here? back) (tempo? : Option Nat)
    (signature? : Option TimeSignature) :
    (map.set tick tempo? signature?).entries =
      front ++ (here?.getD (Entry.blank map.nextId tick)).set tempo? signature? :: back := by
  have early : ∀ entry ∈ front, entry.tick ≠ tick := fun entry member => Nat.ne_of_lt (split.earlier entry member)
  have late : ∀ entry ∈ back, entry.tick ≠ tick := fun entry member => Nat.ne_of_gt (split.later entry member)
  cases here? with
  | some entry =>
    have same : entry.tick = tick := split.here entry rfl
    have member : entry ∈ map.entries := by simp [split.whole]
    have begins : entry.beginsAt tick = true := by rw [ordered.beginsAt_eq member, beq_iff_eq, same]
    have present : map.entries.any (·.beginsAt tick) = true := List.any_eq_true.mpr ⟨entry, member, begins⟩
    have kept : ∀ part : List (Entry S), (∀ entry ∈ part, entry.tick ≠ tick) →
        part.map (fun entry => if entry.beginsAt tick then entry.set tempo? signature? else entry) = part := by
      intro part apart
      exact map_eq_self fun entry member => if_neg (by simp [Entry.beginsAt, apart entry member])
    rw [set, if_pos present]
    simp only [split.whole, Option.toList_some, List.singleton_append, List.map_append, List.map_cons, if_pos begins,
      kept front early, kept back late, Option.getD_some]
  | none =>
    have whole : map.entries = front ++ back := by rw [split.whole, Option.toList_none, List.nil_append]
    have absent : ¬map.entries.any (·.beginsAt tick) = true := by
      rw [List.any_eq_true]
      rintro ⟨entry, member, same⟩
      rw [ordered.beginsAt_eq member, beq_iff_eq] at same
      rw [whole] at member
      exact (List.mem_append.mp member).elim (early entry · same) (late entry · same)
    obtain ⟨before, after⟩ := takeWhile_of_split (p := fun entry : Entry S => entry.tick ≤ tick)
      (fun entry member => by simpa using Nat.le_of_lt (split.earlier entry member))
      (fun entry member => by simpa using split.later entry member)
    rw [set, if_neg absent]
    simp only [whole, before, after, Option.getD_none]

theorem nextId_set (ordered : map.Ordered) (split : SplitAt tick map.entries front here? back) (tempo? : Option Nat)
    (signature? : Option TimeSignature) :
    (map.set tick tempo? signature?).nextId = if here?.isSome then map.nextId else map.nextId + 1 := by
  have present : map.entries.any (·.beginsAt tick) = here?.isSome := by
    rw [Bool.eq_iff_iff, List.any_eq_true]
    constructor
    · rintro ⟨entry, member, same⟩
      rw [ordered.beginsAt_eq member, beq_iff_eq] at same
      rw [split.whole] at member
      rcases List.mem_append.mp member with early | member
      · exact absurd same (Nat.ne_of_lt (split.earlier entry early))
      · rcases List.mem_append.mp member with here | late
        · rw [Option.mem_toList] at here
          rw [here, Option.isSome_some]
        · exact absurd same (Nat.ne_of_gt (split.later entry late))
    · intro some
      obtain ⟨entry, found⟩ := Option.isSome_iff_exists.mp some
      have member : entry ∈ map.entries := by simp [split.whole, found]
      exact ⟨entry, member, by rw [ordered.beginsAt_eq member, beq_iff_eq, split.here entry found]⟩
  rw [set]
  rw [present]
  split <;> rfl

omit [Clock S] in
/-- An entry with the next number is told apart from all others. -/
theorem ids_insert (whole : map.entries = front ++ back) (ids : (map.entries.map (·.id)).Nodup)
    (fresh : ∀ id ∈ map.entries.map (·.id), id < map.nextId) {entry : Entry S} (new : entry.id = map.nextId) :
    ((front ++ entry :: back).map (·.id)).Nodup ∧ ∀ id ∈ (front ++ entry :: back).map (·.id), id < map.nextId + 1 := by
  rw [whole, List.map_append] at ids fresh
  rw [List.map_append, List.map_cons, new]
  refine ⟨List.nodup_middle.mpr (List.nodup_cons.mpr ⟨fun given => Nat.lt_irrefl _ (fresh _ given), ids⟩), ?_⟩
  intro id member
  rcases List.mem_append.mp member with early | member
  · exact Nat.lt_succ_of_lt (fresh id (List.mem_append_left _ early))
  · rcases List.mem_cons.mp member with rfl | late
    · exact Nat.lt_succ_self _
    · exact Nat.lt_succ_of_lt (fresh id (List.mem_append_right _ late))

omit [Clock S] in
/-- An entry that stands in order with all others leaves the ticks in order. -/
theorem ticks_insert {order : Nat → Nat → Prop} (whole : map.entries = front ++ back)
    (ticks : (map.entries.map (·.tick)).Pairwise order) {entry : Entry S}
    (earlier : ∀ other ∈ front, order other.tick entry.tick) (later : ∀ other ∈ back, order entry.tick other.tick) :
    ((front ++ entry :: back).map (·.tick)).Pairwise order := by
  rw [whole, List.pairwise_map] at ticks
  obtain ⟨frontOrdered, backOrdered, across⟩ := List.pairwise_append.mp ticks
  rw [List.pairwise_map]
  refine List.pairwise_append.mpr ⟨frontOrdered, List.pairwise_cons.mpr ⟨later, backOrdered⟩, ?_⟩
  intro early earlyMember late lateMember
  rcases List.mem_cons.mp lateMember with rfl | lateMember
  · exact earlier early earlyMember
  · exact across early earlyMember late lateMember

theorem Ordered.set (ordered : map.Ordered) (tick : Nat) (tempo? : Option Nat) (signature? : Option TimeSignature) :
    (map.set tick tempo? signature?).Ordered := by
  obtain ⟨front, here?, back, split⟩ := exists_splitAt ordered.ticks tick
  have entries := entries_set ordered split tempo? signature?
  have next := nextId_set ordered split tempo? signature?
  cases here? with
  | some entry =>
    -- The entry keeps its tick and its number.
    have tickSame : (entry.set tempo? signature?).tick = entry.tick := rfl
    have idSame : (entry.set tempo? signature?).id = entry.id := rfl
    have heldSame : (entry.set tempo? signature?).retired = entry.retired := rfl
    refine ordered.of_keys ?_ ?_ (by simpa using next) ?_
    · rw [entries, split.whole]
      simp [tickSame]
    · rw [entries, split.whole]
      simp [idSame]
    · rw [entries, split.whole]
      simp [heldSame]
  | none =>
    have whole : map.entries = front ++ back := by rw [split.whole, Option.toList_none, List.nil_append]
    rw [Option.getD_none] at entries
    have next : (map.set tick tempo? signature?).nextId = map.nextId + 1 := by simpa using next
    have new : ((Entry.blank (S := S) map.nextId tick).set tempo? signature?).id = map.nextId := rfl
    obtain ⟨apart, issued⟩ := ids_insert whole ordered.ids ordered.fresh new
    refine ⟨?_, entries ▸ apart, by rw [entries, next]; exact issued, ?_⟩
    · rw [entries]
      exact ticks_insert whole ordered.ticks split.earlier split.later
    · have held := ordered.held
      rw [whole] at held
      intro entry member
      rw [entries] at member
      rcases List.mem_append.mp member with early | member
      · exact held entry (List.mem_append_left _ early)
      · rcases List.mem_cons.mp member with rfl | late
        · rfl
        · exact held entry (List.mem_append_right _ late)

omit [Clock S] in
/-- The map with each entry changed. -/
def mapEntries (change : Entry S → Entry S) (map : TempoMap S) : TempoMap S := { map with entries := map.entries.map change }

/-- What setting does not look at may be changed before or after. -/
theorem set_mapEntries {change : Entry S → Entry S} {tempo? : Option Nat} {signature? : Option TimeSignature}
    (ticks : ∀ entry, (change entry).tick = entry.tick) (retired : ∀ entry, (change entry).retired = entry.retired)
    (sets : ∀ entry, entry.beginsAt tick = true → (change entry).set tempo? signature? = change (entry.set tempo? signature?))
    (blank : change (Entry.blank map.nextId tick) = Entry.blank map.nextId tick) :
    (map.mapEntries change).set tick tempo? signature? = (map.set tick tempo? signature?).mapEntries change := by
  have begins (entry : Entry S) : (change entry).beginsAt tick = entry.beginsAt tick := by
    rw [Entry.beginsAt, ticks, retired, Entry.beginsAt]
  have present : (map.mapEntries change).entries.any (·.beginsAt tick) = map.entries.any (·.beginsAt tick) := by
    simp only [mapEntries, List.any_map, Function.comp_def, begins]
  rw [TempoMap.set, TempoMap.set, present]
  split
  · simp only [mapEntries, List.map_map, TempoMap.mk.injEq, true_and]
    refine List.map_congr_left fun entry _ => ?_
    by_cases here : entry.beginsAt tick = true
    · simp [here, begins, sets entry here]
    · simp [here, begins]
  · have early : (fun entry : Entry S => decide (entry.tick ≤ tick)) ∘ change = fun entry => decide (entry.tick ≤ tick) := by
      funext entry
      simp [ticks]
    simp only [mapEntries, List.takeWhile_map, List.dropWhile_map, List.map_append, List.map_cons, early]
    rw [← sets _ (by simp [Entry.beginsAt, Entry.blank, Entry.retired]), blank]

/-- What has no part in the pace may be changed before or after times are worked out. -/
theorem resolve_mapEntries (change : Entry S → Entry S) {division : Division}
    (retired : ∀ entry, (change entry).retired = entry.retired)
    (follows : ∀ before entry, (change entry).follow division before = change (entry.follow division before))
    (paces : ∀ entry, (change entry).pace = entry.pace) (map : TempoMap S) :
    (map.mapEntries change).resolve division = (map.resolve division).mapEntries change := by
  have general : ∀ (before : Pace S) (entries : List (Entry S)),
      followAll division before (entries.map change) = (followAll division before entries).map change := by
    intro before entries
    induction entries generalizing before with
    | nil => rfl
    | cons entry rest ih =>
      cases gone : entry.retired with
      | true => simp only [List.map_cons, followAll_retired ((retired entry).trans gone), followAll_retired gone, ih]
      | false =>
        simp only [List.map_cons, followAll_held ((retired entry).trans gone), followAll_held gone, follows, paces, ih]
  rw [TempoMap.resolve, TempoMap.resolve, mapEntries, mapEntries, general]

/-! ## Registering -/

/-- A message that sets nothing leaves the map as it is. -/
theorem register_of_silent (division : Division) (tick : Nat) {message : Message} (silent : message.changesTempo = false) :
    map.register division tick message = map := by
  rw [register, silent, if_neg Bool.false_ne_true]

theorem Ordered.register (ordered : map.Ordered) (division : Division) (tick : Nat) (message : Message) :
    (map.register division tick message).Ordered := by
  by_cases changes : message.changesTempo = true
  · rw [TempoMap.register, if_pos changes]
    exact (ordered.set tick message.tempo? message.timeSignature?).resolve division
  · rw [TempoMap.register, if_neg changes]
    exact ordered

theorem Settled.register {division : Division} (settled : map.Settled division) (tick : Nat) (message : Message) :
    (map.register division tick message).Settled division := by
  by_cases changes : message.changesTempo = true
  · rw [TempoMap.register, if_pos changes]
    exact settled_resolve division _
  · rw [TempoMap.register, if_neg changes]
    exact settled

/-- What is set at a tick changes no time in front of it. -/
theorem timeOf_register {division : Division} (ordered : map.Ordered) (settled : map.Settled division)
    (message : Message) {earlier tick : Nat} (early : earlier < tick) :
    (map.register division tick message).timeOf division earlier = map.timeOf division earlier := by
  by_cases changes : message.changesTempo = true
  · rw [TempoMap.register, if_pos changes]
    obtain ⟨front, here?, back, split⟩ := exists_splitAt ordered.ticks tick
    have behind : ∀ entry ∈ here?.toList ++ back, earlier < entry.tick := by
      intro entry member
      rcases List.mem_append.mp member with here | late
      · rw [split.here entry (Option.mem_toList.mp here)]
        exact early
      · exact Nat.lt_trans early (split.later entry late)
    have settledFront : SettledFrom division .start front := by
      rw [Settled, split.whole] at settled
      exact settled.front
    obtain ⟨between, followed⟩ := followAll_append settledFront
      ((here?.getD (Entry.blank map.nextId tick)).set message.tempo? message.timeSignature? :: back)
    have whole : ((map.set tick message.tempo? message.timeSignature?).resolve division).entries = _ :=
      (congrArg (followAll division .start) (entries_set ordered split _ _)).trans followed
    have orderedToo := (ordered.set tick message.tempo? message.timeSignature?).resolve division
    refine timeOf_of_front (ordered.live_eq.trans split.whole) behind (orderedToo.live_eq.trans whole) ?_ division
    -- The new entry is at the tick itself, and resolving moves none.
    have moved : ∀ entries : List (Entry S), (∀ entry ∈ entries, earlier < entry.tick) →
        ∀ entry ∈ followAll division between entries, earlier < entry.tick := by
      intro entries late entry member
      have kept : (followAll division between entries).map (·.tick) = entries.map (·.tick) :=
        map_followAll (fun _ _ => rfl) between entries
      have listed : entry.tick ∈ entries.map (·.tick) := kept ▸ List.mem_map_of_mem member
      obtain ⟨other, otherMember, same⟩ := List.mem_map.mp listed
      exact same ▸ late other otherMember
    refine moved _ (List.forall_mem_cons.mpr ⟨?_, fun entry late => Nat.lt_trans early (split.later entry late)⟩)
    cases here? with
    | none => exact early
    | some entry => exact (split.here entry rfl).symm ▸ early
  · rw [TempoMap.register, if_neg changes]

theorem Ordered.registerAll (ordered : map.Ordered) (division : Division) (events : List (Event S)) :
    (map.registerAll division events).Ordered := by
  induction events generalizing map with
  | nil => exact ordered
  | cons event rest ih => exact ih (ordered.register division event.tick event.message)

theorem Settled.registerAll {division : Division} (settled : map.Settled division) (events : List (Event S)) :
    (map.registerAll division events).Settled division := by
  induction events generalizing map with
  | nil => exact settled
  | cons event rest ih => exact ih (settled.register event.tick event.message)

/-- Events from some tick on change no time in front of it. -/
theorem timeOf_registerAll {division : Division} (ordered : map.Ordered) (settled : map.Settled division)
    {events : List (Event S)} {start earlier : Nat} (late : ∀ event ∈ events, start ≤ event.tick)
    (early : earlier < start) :
    (map.registerAll division events).timeOf division earlier = map.timeOf division earlier := by
  induction events generalizing map with
  | nil => rfl
  | cons event rest ih =>
    obtain ⟨first, others⟩ := List.forall_mem_cons.mp late
    have step := timeOf_register ordered settled event.message (Nat.lt_of_lt_of_le early first)
    exact (ih (ordered.register _ _ _) (settled.register _ _) others).trans step

omit [Clock S] in
/-- Counting the events anew takes no entry out of a map in order. -/
theorem Ordered.recount_eq (ordered : map.Ordered) (sources : List Nat) :
    map.recount sources = map.mapEntries fun entry => { entry with dependents := sources.count entry.id } := by
  simp only [recount, mapEntries, TempoMap.mk.injEq, true_and]
  rw [List.filter_eq_self]
  refine List.forall_mem_map.mpr fun entry member => ?_
  have held : ({ entry with dependents := sources.count entry.id } : Entry S).retired = false := ordered.held entry member
  rw [held, Bool.false_and, Bool.not_false]

omit [Clock S] in
theorem course_recount (ordered : map.Ordered) (sources : List Nat) : (map.recount sources).course = map.course := by
  rw [ordered.recount_eq]
  simp only [course, mapEntries, List.map_map]
  rfl

omit [Clock S] in
theorem Ordered.recount (ordered : map.Ordered) (sources : List Nat) : (map.recount sources).Ordered :=
  ordered.of_course (course_recount ordered sources) rfl

omit [Clock S] in
/-- One entry of an ordered map is replaced, and what does not differ in the new one stays as it was. -/
theorem map_put {β : Type} {part : Entry S → β} (ids : (map.entries.map (·.id)).Nodup) {entry held : Entry S}
    (member : entry ∈ map.entries) (id : held.id = entry.id) (same : part held = part entry) :
    (map.put held).entries.map part = map.entries.map part := by
  rw [put, List.map_map]
  apply List.map_congr_left
  intro other otherMember
  by_cases sameId : other.id = held.id
  · rw [Function.comp_apply, if_pos sameId, same, List.inj_on_of_nodup_map ids otherMember member (sameId.trans id)]
  · rw [Function.comp_apply, if_neg sameId]

omit [Clock S] in
/-- A reference that is taken is no part of anything else, while there is room for one more. -/
theorem unheld_acquire (ordered : map.Ordered) (room : ∀ entry ∈ map.entries, entry.references < 0xFFFFFFFF)
    {held : Entry S} {after : TempoMap S} (done : map.acquire tick = some (held, after)) :
    after.unheld = map.unheld ∧ after.nextId = map.nextId := by
  simp only [acquire, Option.map_eq_some_iff, Prod.mk.injEq] at done
  obtain ⟨entry, found, rfl, rfl⟩ := done
  have member := (mem_of_at? found).1
  refine ⟨map_put ordered.ids member rfl ?_, rfl⟩
  have some := Entry.retired_eq_false_iff.mp (ordered.held entry member)
  have count : min entry.hold.references 1 = min entry.references 1 := by
    rw [Entry.references_hold (room entry member)]
    omega
  rw [Entry.unheld, Entry.unheld, count]
  rfl

omit [Clock S] in
/-- A reference that is given back is no part of anything else, while there is one left. -/
theorem unheld_put_drop (ordered : map.Ordered) {entry : Entry S} (member : entry ∈ map.entries)
    (more : 1 < entry.references) : (map.put entry.drop).unheld = map.unheld := by
  refine map_put ordered.ids member rfl ?_
  have count : min entry.drop.references 1 = min entry.references 1 := by
    rw [Entry.references_drop]
    omega
  rw [Entry.unheld, Entry.unheld, count]
  rfl

omit [Clock S] in
theorem mem_of_find? {handle : Handle} {entry : Entry S} (found : map.find? handle = some entry) :
    entry ∈ map.entries ∧ entry.id = handle.entry := by
  rw [find?] at found
  split at found
  · exact ⟨List.mem_of_find?_eq_some found, by simpa using List.find?_some found⟩
  · simp at found

omit [Clock S] in
theorem find?_isSome_iff {handle : Handle} :
    (map.find? handle).isSome = true ↔ handle.map = map.identity ∧ handle.entry ∈ map.entries.map (·.id) := by
  rw [find?]
  split
  · simp [*, List.find?_isSome]
  · simp [*]

omit [Clock S] in
theorem Ordered.without (ordered : map.Ordered) (id : Nat) :
    ({ map with entries := map.entries.filter (·.id != id) } : TempoMap S).Ordered := by
  have kept : (map.entries.filter (·.id != id)).Sublist map.entries := List.filter_sublist
  exact ⟨ordered.ticks.sublist (kept.map _), ordered.ids.sublist (kept.map _),
    fun other member => ordered.fresh other ((kept.map _).subset member),
    fun other member => ordered.held other (kept.subset member)⟩

/-! ## Retired entries -/

/-- The map without the entries that are retired. -/
def shed (map : TempoMap S) : TempoMap S := { map with entries := map.live }

omit [Clock S] in
theorem live_shed (map : TempoMap S) : map.shed.live = map.live := by
  rw [shed, live, live, List.filter_filter]
  simp only [Bool.and_self]

/-- Retired entries have no part in what is in effect. -/
theorem timeOf_shed (map : TempoMap S) (division : Division) (tick : Nat) :
    map.shed.timeOf division tick = map.timeOf division tick := by
  have found : map.shed.at? tick = map.at? tick := by rw [at?, at?, live_shed]
  unfold timeOf
  rw [found]

/-- Nor have they in what follows from the others. -/
theorem shed_resolve (division : Division) (map : TempoMap S) : (map.resolve division).shed = map.shed.resolve division := by
  have general : ∀ (before : Pace S) (entries : List (Entry S)),
      (followAll division before entries).filter (fun entry => !entry.retired) =
        followAll division before (entries.filter fun entry => !entry.retired) := by
    intro before entries
    induction entries generalizing before with
    | nil => rfl
    | cons entry rest ih =>
      cases gone : entry.retired with
      | true => simp [followAll_retired gone, gone, ih]
      | false => simp [followAll_held gone, gone, ih]
  simp only [shed, live, resolve, general]

omit [Clock S] in
/-- A retired entry that no event depends on leaves the map when the events are counted anew. -/
theorem recount_shed {sources : List Nat} (unused : ∀ entry ∈ map.entries, entry.retired = true → entry.id ∉ sources) :
    map.recount sources = map.shed.recount sources := by
  simp only [recount, shed, live, TempoMap.mk.injEq, true_and, List.filter_map, List.filter_filter]
  congr 1
  refine List.filter_congr fun entry member => ?_
  have counted : ({ entry with dependents := sources.count entry.id } : Entry S).retired = entry.retired := rfl
  rw [Function.comp_apply, counted]
  cases gone : entry.retired with
  | false => rfl
  | true =>
    have none : sources.count entry.id = 0 := List.count_eq_zero.mpr (unused entry member gone)
    simp [none]

omit [Clock S] in
/-- An entry that is retired is as good as gone. -/
theorem shed_put (ordered : map.Ordered) {left : Entry S} (gone : left.retired = true) :
    (map.put left).shed = { map with entries := map.entries.filter (·.id != left.id) } := by
  simp only [shed, live, put, List.filter_map, TempoMap.mk.injEq, true_and]
  have kept : map.entries.filter ((fun entry => !entry.retired) ∘ fun other => if other.id = left.id then left else other) =
      map.entries.filter (·.id != left.id) := by
    refine List.filter_congr fun other member => ?_
    by_cases same : other.id = left.id
    · simp [same, gone]
    · simp [same, ordered.held other member]
  rw [kept]
  refine map_eq_self fun other member => if_neg ?_
  simpa using (List.mem_filter.mp member).2

omit [Clock S] in
theorem Ordered.shed_eq (ordered : map.Ordered) : map.shed = map := by rw [shed, ordered.live_eq]

theorem ids_resolve (division : Division) (map : TempoMap S) :
    (map.resolve division).entries.map (·.id) = map.entries.map (·.id) := map_followAll (fun _ _ => rfl) _ _

omit [Clock S] in
theorem live?_eq_none {handle : Handle} (gone : handle.entry ∉ map.live.map (·.id)) : map.live? handle = none := by
  rw [live?]
  split
  · rw [List.find?_eq_none]
    intro entry member same
    rw [beq_iff_eq] at same
    exact gone (same ▸ List.mem_map_of_mem member)
  · rfl

/-- A reference that is given back is no part of anything else, unless it was the last one. Then the
    entry is retired, and what is left in effect is worked out without it. -/
theorem release_cases {division : Division} (ordered : map.Ordered) {handle : Handle} {entry : Entry S}
    {after : TempoMap S} (done : map.release division handle = some (entry, after)) :
    map.find? handle = some entry ∧
      (1 < entry.references ∧ after = map.put entry.drop ∨
        entry.references = 1 ∧ after.live? handle = none ∧ (after.entries.map (·.id)).Nodup ∧
          after.shed = { map with entries := map.entries.filter (·.id != entry.id) }.resolve division) := by
  simp only [release, Option.map_eq_some_iff, ordered.live?_eq] at done
  obtain ⟨found, here, done⟩ := done
  obtain ⟨member, named⟩ := mem_of_find? here
  have some := Entry.retired_eq_false_iff.mp (ordered.held found member)
  have without := (ordered.without found.id).resolve division
  have absent : handle.entry ∉
      (({ map with entries := map.entries.filter (·.id != found.id) } : TempoMap S).resolve division).entries.map (·.id) := by
    rw [ids_resolve, ← named]
    simp
  cases gone : found.drop.retired with
  | false =>
    have more : 0 < found.references - 1 := Entry.retired_eq_false_iff.mp gone
    simp only [gone, Bool.not_false, if_true, Prod.mk.injEq] at done
    obtain ⟨rfl, rfl⟩ := done
    refine ⟨here, .inl ⟨?_, rfl⟩⟩
    omega
  | true =>
    have none : found.references - 1 = 0 := Entry.retired_iff.mp gone
    have last : found.references = 1 := by omega
    simp only [gone, Bool.not_true, Bool.false_eq_true, if_false] at done
    split at done
    · -- No time depends on the entry: it is gone at once.
      obtain ⟨rfl, rfl⟩ := Prod.mk.injEq .. ▸ done
      refine ⟨here, .inr ⟨last, live?_eq_none ?_, without.ids, without.shed_eq⟩⟩
      rwa [without.live_eq]
    · obtain ⟨rfl, rfl⟩ := Prod.mk.injEq .. ▸ done
      have shed : ((map.put found.drop).resolve division).shed = _ :=
        (shed_resolve division _).trans (congrArg (·.resolve division) (shed_put ordered gone))
      refine ⟨here, .inr ⟨last, live?_eq_none ?_, ?_, shed⟩⟩
      · have live : ((map.put found.drop).resolve division).live = _ := congrArg TempoMap.entries shed
        rwa [live]
      · have ids : (map.put found.drop).entries.map (·.id) = map.entries.map (·.id) := map_put ordered.ids member rfl rfl
        rw [ids_resolve, ids]
        exact ordered.ids

end TempoMap

end MidiFile
