import MidiFile.Proofs.Song.Times

/-! # Events that depend on entries

Every event remembers the entry that its time in seconds came from, and every entry counts these
events. Working out times counts anew, and so does whatever takes events away. An entry that is
retired while events still depend on it stays in the map up to the count that finds none of them,
and all times are worked out without it at once. So behind each command no entry is retired, the
counts are exact, and no event remembers an entry that is gone (`session_dependents_exact`).
-/

namespace MidiFile.Song

variable {S : Type} [Clock S] {song : Song S}

theorem Timed.dependents_eq (timed : song.Timed) {entry : Entry S} (member : entry ∈ song.tempoMap.entries) :
    entry.dependents = song.events.countP fun event => event.source? == some entry.id := by
  rw [timed.counted entry member, List.count, List.countP_filterMap]
  apply List.countP_congr
  intro event _
  cases event.source? <;> simp

/-- What an event remembers is the entry in effect at its tick. -/
theorem Timed.exists_source (timed : song.Timed) {event : Event S} (member : event ∈ song.events) {id : Nat}
    (remembered : event.source? = some id) : ∃ entry ∈ song.tempoMap.entries, entry.id = id := by
  have source : event.source? = song.sourceAt? event.tick := by
    have timely := timed.timely event member
    rw [IsTimely, timeOf_eq] at timely
    rw [Event.source?, timely]
    rfl
  rw [source, sourceAt?] at remembered
  split at remembered
  · obtain ⟨entry, found, same⟩ := Option.map_eq_some_iff.mp remembered
    exact ⟨entry, (TempoMap.mem_of_at? found).1, same⟩
  · cases remembered

/-- In every song of every session that takes fewer references than can be counted, each entry of the
    tempo map has a reference at least, knows how many events have their time in seconds from it, and
    has a number of its own that was given out; every entry that an event remembers is there. -/
theorem session_dependents_exact [Workers] (mode : Mode) (commands : List (Command S))
    (few : Workspace.acquisitions mode commands < 0xFFFFFFFF) (member : song ∈ (Workspace.session mode commands).songs) :
    (∀ entry ∈ song.tempoMap.entries, 1 ≤ entry.references ∧
        entry.dependents = (song.events.countP fun event => event.source? == some entry.id) ∧
        entry.id < song.tempoMap.nextId) ∧
      (song.tempoMap.entries.map (·.id)).Nodup ∧
      ∀ event ∈ song.events, ∀ id, event.source? = some id → ∃ entry ∈ song.tempoMap.entries, entry.id = id := by
  have timed := session_timed few member
  refine ⟨?_, timed.ordered.ids, fun event inside id => timed.exists_source inside⟩
  intro entry inside
  exact ⟨Entry.retired_eq_false_iff.mp (timed.ordered.held entry inside), timed.dependents_eq inside,
    timed.ordered.fresh entry.id (List.mem_map_of_mem inside)⟩

/-- A tempo that is held once and given up twice, with a note behind it that has its time from the
    tempo in front then. -/
private def dependentCommands : List (Command Float) :=
  [.create, .change 0 (.addTrack .new), .change 0 (.addEvent 0 (.new (.tempo 400000)) (.tick 0)),
    .change 0 (.addEvent 0 (.new (.tempo 300000)) (.tick 120)),
    .change 0 (.addEvent 0 (.new (.bytes [0x90, 60, 64])) (.tick 240)), .change 0 .holdLastTempo,
    .change 0 (.releaseTempo 0), .change 0 (.releaseTempo 0)]

theorem session_dependents_exact_evicted :
    Workspace.acquisitions .strict dependentCommands < 0xFFFFFFFF ∧
      ∃ song ∈ (Workspace.session .strict dependentCommands).songs,
        (song.tempoMap.entries.map fun entry => (entry.id, entry.references, entry.dependents)) = [(0, 1, 3)] ∧
          ∀ entry ∈ song.tempoMap.entries,
            entry.dependents = song.events.countP fun event => event.source? == some entry.id := by
  have few : Workspace.acquisitions .strict dependentCommands < 0xFFFFFFFF := by decide
  have member : _ ∈ (Workspace.session .strict dependentCommands).songs := List.mem_singleton.mpr rfl
  exact ⟨few, _, member, rfl, fun entry inside =>
    ((session_dependents_exact .strict dependentCommands few member).1 entry inside).2.1⟩

end MidiFile.Song
