import MidiFile.Proofs.Song.Times

/-! # References to the tempo map of a song

The two changes that are about references are given here in full: asking for the last entry takes a
reference to it and touches nothing else (`Outcome.GaveOut`), and a handle gives one back if it names
an entry of this song, and else does nothing (`Outcome.GaveBack`). The last reference retires its
entry, and whether events depended on it or not, it is gone when the change is done.
-/

namespace MidiFile

variable {S : Type}

namespace TempoMap

variable {map : TempoMap S} {tick : Nat}

/-- The entry in effect at a tick is the greatest one that is not past it. -/
theorem Ordered.le_of_at? (ordered : map.Ordered) {entry other : Entry S} (found : map.at? tick = some entry)
    (member : other ∈ map.entries) (within : other.tick ≤ tick) : other.tick ≤ entry.tick := by
  rw [at?, ordered.live_eq] at found
  obtain ⟨init, whole⟩ := List.getLast?_eq_some_iff.mp found
  have sorted : ((map.entries.filter fun entry => entry.tick ≤ tick).map (·.tick)).Pairwise (· < ·) :=
    ordered.ticks.sublist (List.filter_sublist.map _)
  have among : other ∈ map.entries.filter fun entry => entry.tick ≤ tick := by simp [member, within]
  rw [whole] at sorted among
  rw [List.map_append, List.pairwise_append] at sorted
  rcases List.mem_append.mp among with early | last
  · exact Nat.le_of_lt (sorted.2.2 _ (List.mem_map_of_mem early) _ (by simp))
  · exact Nat.le_of_eq (congrArg Entry.tick (List.mem_singleton.mp last))

end TempoMap

open TempoMap (Grown Counted)

variable [Clock S]

namespace Song

section
variable {song after : Song S} {entry : Entry S}

theorem counted_holdLastTempo (ordered : song.tempoMap.Ordered)
    (room : ∀ entry ∈ song.tempoMap.entries, entry.references < 0xFFFFFFFF)
    (done : song.holdLastTempo = some (entry, after)) :
    ∃ count, song.tempoMap.references? entry.id = some count ∧
      Counted entry.id (some (count + 1)) song.tempoMap after.tempoMap := by
  obtain ⟨_, acquired, rfl⟩ := holdLastTempo_ok done
  exact ordered.counted_acquire room acquired

/-- With the last reference the number of the entry is gone, whether its entry went at once or was
    retired for as long as times depended on it. -/
theorem counted_releaseTempo (ordered : song.tempoMap.Ordered) {handle : Handle}
    (done : song.releaseTempo handle = some (entry, after)) :
    ∃ count, song.tempoMap.references? handle.entry = some count ∧
      Counted handle.entry (if count ≤ 1 then none else some (count - 1)) song.tempoMap after.tempoMap := by
  obtain ⟨found, cases⟩ := releaseTempo_cases ordered done
  obtain ⟨member, named⟩ := TempoMap.mem_of_find? found
  obtain ⟨front, back, whole⟩ := List.append_of_mem member
  refine ⟨entry.references, named ▸ ordered.references?_eq member, ?_⟩
  rw [← named]
  obtain ⟨more, rfl⟩ | ⟨last, rfl⟩ := cases
  · rw [if_neg (by omega), ordered.put_drop whole]
    exact ordered.counted_replace whole _
  · rw [if_pos (by omega), ordered.filter_eq whole]
    have without := (ordered.without entry.id).resolve song.division
    rw [ordered.filter_eq whole] at without
    exact (ordered.counted_remove whole).of_tally rfl rfl
      ((without.tally_recount _).trans (TempoMap.tally_resolve _ _))

end

end Song

namespace Outcome

/-- What asking for the last entry of the tempo map comes to, given the number that its handle will
    have: the answer is the entry in effect at the end of the song, with one more reference, and
    nothing else changes; if all entries come later there is none. -/
inductive GaveOut (place : Nat) (song : Song S) : Outcome S → Prop
  | none {outcome : Outcome S} (later : ∀ entry ∈ song.tempoMap.entries, song.endTick < entry.tick)
    (answer : outcome.report.result = .ok (.tempo none)) (taken : outcome.taken = .nothing)
    (same : outcome.song = song) : GaveOut place song outcome
  | last {outcome : Outcome S} {front back : List (Entry S)} {entry held : Entry S}
    (whole : song.tempoMap.entries = front ++ entry :: back) (within : entry.tick ≤ song.endTick)
    (greatest : ∀ other ∈ song.tempoMap.entries, other.tick ≤ song.endTick → other.tick ≤ entry.tick)
    (once : held = { entry with references := entry.references + 1 })
    (answer : outcome.report.result = .ok (.tempo (some (place, held))))
    (taken : outcome.taken = .handle (song.tempoMap.handle entry))
    (changed : outcome.song = { song with tempoMap := { song.tempoMap with entries := front ++ held :: back } }) :
    GaveOut place song outcome

/-- What giving a reference back comes to: if the handle names an entry that others refer to as well,
    that entry has one reference less and nothing else changes; the last reference takes the entry
    with it, all others keep their number, their tick and their references; and if the handle names
    no entry of this very song, the answer says so and nothing changes at all. -/
inductive GaveBack (handle : Handle) (song : Song S) : Outcome S → Prop
  | kept {outcome : Outcome S} {front back : List (Entry S)} {entry : Entry S}
    (whole : song.tempoMap.entries = front ++ entry :: back) (named : handle = song.tempoMap.handle entry)
    (more : 1 < entry.references) (answer : outcome.report.result = .ok (.flag true))
    (changed : outcome.song = { song with tempoMap := { song.tempoMap with
      entries := front ++ { entry with references := entry.references - 1 } :: back } }) : GaveBack handle song outcome
  | evicted {outcome : Outcome S} {front back : List (Entry S)} {entry : Entry S}
    (whole : song.tempoMap.entries = front ++ entry :: back) (named : handle = song.tempoMap.handle entry)
    (last : entry.references = 1) (answer : outcome.report.result = .ok (.flag true))
    (others : outcome.song.tempoMap.tally = (front ++ back).map Entry.shared) : GaveBack handle song outcome
  | refused {outcome : Outcome S} (unknown : ∀ entry ∈ song.tempoMap.entries, handle ≠ song.tempoMap.handle entry)
    (answer : outcome.report.result = .ok (.flag false)) (same : outcome.song = song) : GaveBack handle song outcome

variable {song : Song S}

theorem gaveOut_holdLastTempo (ordered : song.tempoMap.Ordered)
    (room : ∀ entry ∈ song.tempoMap.entries, entry.references < 0xFFFFFFFF) (place : Nat) :
    GaveOut place song (holdLastTempo place song) := by
  cases done : song.holdLastTempo with
  | none =>
    have later := TempoMap.at?_eq_none_iff.mp (Option.map_eq_none_iff.mp (Option.map_eq_none_iff.mp done))
    rw [ordered.live_eq] at later
    rw [holdLastTempo, done]
    exact .none later rfl rfl rfl
  | some result =>
    obtain ⟨tempoMap, acquired, same⟩ := Song.holdLastTempo_ok done
    obtain ⟨front, entry, back, whole, found, once, rfl⟩ := ordered.acquire_split room acquired
    have number : song.tempoMap.handle result.1 = song.tempoMap.handle entry := by rw [once]; rfl
    rw [holdLastTempo, done]
    exact .last whole (TempoMap.mem_of_at? found).2 (fun _ => ordered.le_of_at? found) once rfl
      (congrArg Taken.handle number) same

theorem gaveBack_releaseTempo (ordered : song.tempoMap.Ordered) (handle : Handle) :
    GaveBack handle song (releaseTempo handle song) := by
  cases done : song.releaseTempo handle with
  | none =>
    have unknown := Option.map_eq_none_iff.mp (Option.map_eq_none_iff.mp done)
    rw [releaseTempo, done]
    refine .refused ?_ rfl rfl
    rintro entry member rfl
    rw [ordered.live?_eq, ordered.find?_eq_some_iff.mpr ⟨member, rfl⟩] at unknown
    cases unknown
  | some result =>
    obtain ⟨entry, after⟩ := result
    obtain ⟨found, cases⟩ := Song.releaseTempo_cases ordered done
    obtain ⟨member, named⟩ := ordered.find?_eq_some_iff.mp found
    obtain ⟨front, back, whole⟩ := List.append_of_mem member
    rw [releaseTempo, done]
    obtain ⟨more, rfl⟩ | ⟨last, rfl⟩ := cases
    · exact .kept whole named more rfl (congrArg (fun map => { song with tempoMap := map }) (ordered.put_drop whole))
    · refine .evicted whole named last rfl ?_
      have without := (ordered.without entry.id).resolve song.division
      rw [← ordered.filter_eq whole]
      exact (without.tally_recount _).trans (TempoMap.tally_resolve _ _)

end Outcome

end MidiFile
