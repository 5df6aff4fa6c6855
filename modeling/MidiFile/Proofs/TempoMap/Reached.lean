import MidiFile.Proofs.TempoMap.Monotone
import MidiFile.Proofs.TempoMap.Registration

/-!
The tempo maps that songs can get to have (`TempoMap.Reached`). A count of references that starts
over leaves an entry behind that is passed over although it is referred to, and then another one may
begin at its tick. Two things hold of a map all the same: the entries never go back in their ticks
and are told apart by their numbers (`TempoMap.Rising`), and each of them has a tempo that three
bytes can say and seconds that can be counted on from (`Entry.Sane`).
-/

namespace MidiFile

open Clock

variable {S : Type} [Clock S]

/-- The tempo is one that three bytes can say, and the seconds are not negative. -/
structure Pace.Sane (pace : Pace S) : Prop where
  tempo : pace.tempo ≤ 0xFFFFFF
  seconds [LawfulClock S] : Amount pace.seconds

structure Entry.Sane (entry : Entry S) : Prop where
  tick : entry.tick ≤ greatestTick
  own : ∀ tempo, entry.ownTempo? = some tempo → tempo ≤ 0xFFFFFF
  pace : entry.pace.Sane

theorem Pace.sane_start : (Pace.start : Pace S).Sane := ⟨show defaultTempo ≤ 0xFFFFFF by decide, amount_zero⟩

theorem Pace.Sane.lawful [LawfulClock S] {pace : Pace S} (sane : pace.Sane) : pace.Lawful :=
  ⟨sane.seconds, Nat.le_trans sane.tempo (by decide)⟩

theorem Entry.sane_blank (id : Nat) {tick : Nat} (within : tick ≤ greatestTick) : (Entry.blank id tick : Entry S).Sane :=
  ⟨within, nofun, show defaultTempo ≤ 0xFFFFFF by decide, amount_zero⟩

theorem Entry.Sane.set {entry : Entry S} (sane : entry.Sane) {tempo? : Option Nat}
    (fits : ∀ tempo, tempo? = some tempo → tempo ≤ 0xFFFFFF) (signature? : Option TimeSignature) :
    (entry.set tempo? signature?).Sane := by
  refine ⟨sane.tick, fun tempo sets => ?_, sane.pace⟩
  rcases Option.or_eq_some_iff.mp sets with new | ⟨_, old⟩
  · exact fits tempo new
  · exact sane.own tempo old

section
variable {division : Division} {before : Pace S}

theorem Entry.Sane.follow {entry : Entry S} (sane : entry.Sane) (valid : division.Valid) (begun : before.Sane) :
    (entry.follow division before).Sane := by
  refine ⟨sane.tick, sane.own, ?_, Division.amount_secondsFrom valid begun.lawful sane.tick⟩
  show entry.ownTempo?.getD before.tempo ≤ 0xFFFFFF
  cases own : entry.ownTempo? with
  | none => exact begun.tempo
  | some tempo => exact sane.own tempo own

theorem sane_followAll (valid : division.Valid) (begun : before.Sane) {entries : List (Entry S)}
    (sane : ∀ entry ∈ entries, entry.Sane) : ∀ entry ∈ followAll division before entries, entry.Sane := by
  induction entries generalizing before with
  | nil => exact List.forall_mem_nil _
  | cons entry rest ih =>
    obtain ⟨first, others⟩ := List.forall_mem_cons.mp sane
    cases gone : entry.retired with
    | true => exact followAll_retired gone rest ▸ List.forall_mem_cons.mpr ⟨first, ih begun others⟩
    | false =>
      have followed := first.follow valid begun
      exact followAll_held gone rest ▸ List.forall_mem_cons.mpr ⟨followed, ih followed.pace others⟩

end

namespace TempoMap

/-- The map of a song can be this one: it is empty, it is the copy of such a map, or one of the
    operations on maps made it out of one, with a division that is valid and ticks that there is room
    for. -/
inductive Reached : TempoMap S → Prop
  | empty (identity : Nat) : Reached (.empty identity)
  | copied {map : TempoMap S} (reached : Reached map) (identity : Nat) : Reached { map with identity := identity }
  | resolved {map : TempoMap S} {division : Division} (reached : Reached map) (valid : division.Valid) :
    Reached (map.resolve division)
  | registered {map : TempoMap S} {division : Division} {tick : Nat} (reached : Reached map) (valid : division.Valid)
    (within : tick ≤ greatestTick) (message : Message) : Reached (map.register division tick message)
  | counted {map : TempoMap S} (reached : Reached map) (sources : List Nat) : Reached (map.recount sources)
  | acquired {map after : TempoMap S} {tick : Nat} {entry : Entry S} (reached : Reached map)
    (done : map.acquire tick = some (entry, after)) : Reached after
  | released {map after : TempoMap S} {division : Division} {handle : Handle} {entry : Entry S} (reached : Reached map)
    (valid : division.Valid) (done : map.release division handle = some (entry, after)) : Reached after

theorem Reached.registerAll {map : TempoMap S} {division : Division} (reached : map.Reached) (valid : division.Valid)
    {events : List (Event S)} (within : ∀ event ∈ events, event.tick ≤ greatestTick) :
    (map.registerAll division events).Reached := by
  induction events generalizing map with
  | nil => exact reached
  | cons event rest ih =>
    obtain ⟨first, others⟩ := List.forall_mem_cons.mp within
    exact ih (reached.registered valid first event.message) others

section
variable {map after : TempoMap S}

omit [Clock S] in
theorem acquire_some {tick : Nat} {held : Entry S} (done : map.acquire tick = some (held, after)) :
    ∃ entry ∈ map.entries, held = entry.hold ∧ after = map.put entry.hold := by
  simp only [acquire, Option.map_eq_some_iff, Prod.mk.injEq] at done
  obtain ⟨entry, found, rfl, rfl⟩ := done
  exact ⟨entry, (mem_of_at? found).1, rfl, rfl⟩

omit [Clock S] in
theorem mem_of_live? {handle : Handle} {entry : Entry S} (found : map.live? handle = some entry) :
    entry ∈ map.entries ∧ 0 < entry.references := by
  rw [live?] at found
  split at found
  · obtain ⟨member, held⟩ := mem_live.mp (List.mem_of_find?_eq_some found)
    exact ⟨member, Entry.retired_eq_false_iff.mp held⟩
  · cases found

/-- A reference that is given back leaves its entry with one less, or takes it out of the map; the
    times may be worked out anew. -/
theorem release_some {division : Division} {handle : Handle} {entry : Entry S}
    (done : map.release division handle = some (entry, after)) :
    entry ∈ map.entries ∧ 0 < entry.references ∧
      (after = map.put entry.drop ∨ after = (map.put entry.drop).resolve division ∨
        after = { map with entries := map.entries.filter (·.id != entry.id) }.resolve division) := by
  simp only [release, Option.map_eq_some_iff] at done
  obtain ⟨found, here, done⟩ := done
  obtain ⟨member, positive⟩ := mem_of_live? here
  split at done
  · obtain ⟨rfl, rfl⟩ := Prod.mk.injEq .. ▸ done
    exact ⟨member, positive, .inl rfl⟩
  · split at done
    · obtain ⟨rfl, rfl⟩ := Prod.mk.injEq .. ▸ done
      exact ⟨member, positive, .inr (.inr rfl)⟩
    · obtain ⟨rfl, rfl⟩ := Prod.mk.injEq .. ▸ done
      exact ⟨member, positive, .inr (.inl rfl)⟩

end

/-! ## Ticks that never go back -/

/-- The entries stand in the order of their ticks, maybe several at one tick, and no two have the same
    number; numbers still to be given out are greater. -/
structure Rising (map : TempoMap S) : Prop where
  ticks : (map.entries.map (·.tick)).Pairwise (· ≤ ·)
  ids : (map.entries.map (·.id)).Nodup
  fresh : ∀ id ∈ map.entries.map (·.id), id < map.nextId

section
variable {map after : TempoMap S}

omit [Clock S] in
theorem Ordered.rising (ordered : map.Ordered) : map.Rising := ⟨ordered.ticks.imp Nat.le_of_lt, ordered.ids, ordered.fresh⟩

omit [Clock S] in
theorem Rising.of_keys (rising : map.Rising) (ticks : after.entries.map (·.tick) = map.entries.map (·.tick))
    (ids : after.entries.map (·.id) = map.entries.map (·.id)) (next : after.nextId = map.nextId) : after.Rising :=
  ⟨ticks ▸ rising.ticks, ids ▸ rising.ids, by rw [ids, next]; exact rising.fresh⟩

omit [Clock S] in
theorem Rising.filter (rising : map.Rising) (keep : Entry S → Bool) :
    Rising { map with entries := map.entries.filter keep } := by
  have kept : (map.entries.filter keep).Sublist map.entries := List.filter_sublist
  exact ⟨rising.ticks.sublist (kept.map _), rising.ids.sublist (kept.map _),
    fun id member => rising.fresh id ((kept.map _).subset member)⟩

omit [Clock S] in
theorem Rising.put (rising : map.Rising) {entry held : Entry S} (member : entry ∈ map.entries) (id : held.id = entry.id)
    (tick : held.tick = entry.tick) : (map.put held).Rising :=
  rising.of_keys (map_put rising.ids member id tick) (map_put rising.ids member id id) rfl

theorem Rising.resolve (rising : map.Rising) (division : Division) : (map.resolve division).Rising :=
  rising.of_keys (map_followAll (fun _ _ => rfl) _ _) (map_followAll (fun _ _ => rfl) _ _) rfl

omit [Clock S] in
/-- What is left from the first entry behind a tick on is all behind it. -/
theorem lt_of_mem_dropWhile {tick : Nat} {entries : List (Entry S)} (sorted : (entries.map (·.tick)).Pairwise (· ≤ ·)) :
    ∀ entry ∈ entries.dropWhile (·.tick ≤ tick), tick < entry.tick := by
  induction entries with
  | nil => exact List.forall_mem_nil _
  | cons entry rest ih =>
    obtain ⟨first, others⟩ := List.pairwise_cons.mp sorted
    by_cases early : entry.tick ≤ tick
    · rw [List.dropWhile_cons_of_pos (by simpa using early)]
      exact ih others
    · rw [List.dropWhile_cons_of_neg (by simpa using early)]
      have behind := Nat.lt_of_not_le early
      exact List.forall_mem_cons.mpr ⟨behind, fun other member =>
        Nat.lt_of_lt_of_le behind (first _ (List.mem_map_of_mem member))⟩

/-- A new entry stands behind all that are not behind its tick. -/
theorem Rising.set (rising : map.Rising) (tick : Nat) (tempo? : Option Nat) (signature? : Option TimeSignature) :
    (map.set tick tempo? signature?).Rising := by
  by_cases present : map.entries.any (·.beginsAt tick) = true
  · rw [TempoMap.set, if_pos present]
    refine rising.of_keys ?_ ?_ rfl
    all_goals
      rw [List.map_map]
      refine List.map_congr_left fun entry _ => ?_
      simp only [Function.comp_apply]
      split <;> rfl
  · rw [TempoMap.set, if_neg present]
    have whole : map.entries = map.entries.takeWhile (·.tick ≤ tick) ++ map.entries.dropWhile (·.tick ≤ tick) :=
      List.takeWhile_append_dropWhile.symm
    have upTo : ∀ entry ∈ map.entries.takeWhile (·.tick ≤ tick), entry.tick ≤ tick := fun entry member => by
      simpa using List.all_eq_true.mp List.all_takeWhile entry member
    have behind : ∀ entry ∈ map.entries.dropWhile (·.tick ≤ tick), tick < entry.tick := lt_of_mem_dropWhile rising.ticks
    have new : ((Entry.blank (S := S) map.nextId tick).set tempo? signature?).id = map.nextId := rfl
    obtain ⟨apart, issued⟩ := ids_insert whole rising.ids rising.fresh new
    exact ⟨ticks_insert whole rising.ticks upTo fun entry member => Nat.le_of_lt (behind entry member), apart, issued⟩

theorem Rising.register (rising : map.Rising) (division : Division) (tick : Nat) (message : Message) :
    (map.register division tick message).Rising := by
  by_cases changes : message.changesTempo = true
  · rw [TempoMap.register, if_pos changes]
    exact (rising.set tick _ _).resolve division
  · rw [TempoMap.register, if_neg changes]
    exact rising

omit [Clock S] in
theorem Rising.recount (rising : map.Rising) (sources : List Nat) : (map.recount sources).Rising := by
  have counted : (map.mapEntries fun entry => { entry with dependents := sources.count entry.id }).Rising :=
    rising.of_keys (by simp [mapEntries, Function.comp_def]) (by simp [mapEntries, Function.comp_def]) rfl
  exact counted.filter _

omit [Clock S] in
theorem Rising.acquire (rising : map.Rising) {tick : Nat} {held : Entry S} (done : map.acquire tick = some (held, after)) :
    after.Rising := by
  obtain ⟨entry, member, _, rfl⟩ := acquire_some done
  exact rising.put member rfl rfl

theorem Rising.release (rising : map.Rising) {division : Division} {handle : Handle} {entry : Entry S}
    (done : map.release division handle = some (entry, after)) : after.Rising := by
  obtain ⟨member, _, cases⟩ := release_some done
  have left : (map.put entry.drop).Rising := rising.put member rfl rfl
  rcases cases with rfl | rfl | rfl
  · exact left
  · exact left.resolve division
  · exact (rising.filter (·.id != entry.id)).resolve division

theorem Reached.rising (reached : map.Reached) : map.Rising := by
  induction reached with
  | empty identity => exact (ordered_empty identity).rising
  | copied _ identity ih => exact ⟨ih.ticks, ih.ids, ih.fresh⟩
  | resolved _ _ ih => exact ih.resolve _
  | registered _ _ _ message ih => exact ih.register _ _ message
  | counted _ sources ih => exact ih.recount sources
  | acquired _ done ih => exact ih.acquire done
  | released _ _ done ih => exact ih.release done

end

section
variable {map : TempoMap S}

theorem sane_resolve {division : Division} (valid : division.Valid) (sane : ∀ entry ∈ map.entries, entry.Sane) :
    ∀ entry ∈ (map.resolve division).entries, entry.Sane := sane_followAll valid Pace.sane_start sane

theorem sane_set {tick : Nat} (within : tick ≤ greatestTick) {tempo? : Option Nat}
    (fits : ∀ tempo, tempo? = some tempo → tempo ≤ 0xFFFFFF) (signature? : Option TimeSignature)
    (sane : ∀ entry ∈ map.entries, entry.Sane) : ∀ entry ∈ (map.set tick tempo? signature?).entries, entry.Sane := by
  rw [set]
  split
  · refine List.forall_mem_map.mpr fun entry member => ?_
    split
    · exact (sane entry member).set fits signature?
    · exact sane entry member
  · refine List.forall_mem_append.mpr ⟨fun entry member => sane entry ((List.takeWhile_prefix _).subset member), ?_⟩
    refine List.forall_mem_cons.mpr ⟨(Entry.sane_blank _ within).set fits signature?, fun entry member => ?_⟩
    exact sane entry ((List.dropWhile_suffix _).subset member)

omit [Clock S] in
theorem forall_mem_put {good : Entry S → Prop} {held : Entry S} (new : good held) (old : ∀ entry ∈ map.entries, good entry) :
    ∀ entry ∈ (map.put held).entries, good entry := by
  refine List.forall_mem_map.mpr fun entry member => ?_
  split
  · exact new
  · exact old entry member

theorem Reached.sane (reached : map.Reached) : ∀ entry ∈ map.entries, entry.Sane := by
  induction reached with
  | empty identity => exact List.forall_mem_nil _
  | copied _ identity ih => exact ih
  | resolved _ valid ih => exact sane_resolve valid ih
  | registered _ valid within message ih =>
    rw [register]
    split
    · exact sane_resolve valid (sane_set within (fun _ sets => Nat.le_of_lt_succ (Message.tempo?_lt sets)) _ ih)
    · exact ih
  | counted _ sources ih =>
    intro entry member
    obtain ⟨old, inside, rfl⟩ := List.mem_map.mp (List.mem_filter.mp member).1
    obtain ⟨tick, own, pace⟩ := ih old inside
    exact ⟨tick, own, pace⟩
  | acquired _ done ih =>
    obtain ⟨entry, member, _, rfl⟩ := acquire_some done
    obtain ⟨tick, own, pace⟩ := ih entry member
    exact forall_mem_put ⟨tick, own, pace⟩ ih
  | @released map after division handle entry _ valid done ih =>
    obtain ⟨member, _, cases⟩ := release_some done
    obtain ⟨tick, own, pace⟩ := ih entry member
    have left : ∀ other ∈ (map.put entry.drop).entries, other.Sane :=
      forall_mem_put (show entry.drop.Sane from ⟨tick, own, pace⟩) ih
    rcases cases with rfl | rfl | rfl
    · exact left
    · exact sane_resolve valid left
    · exact sane_resolve valid fun entry among => ih entry (List.mem_filter.mp among).1

end

end TempoMap

end MidiFile
