import MidiFile.Proofs.Message.Accessors
import MidiFile.Proofs.Song.Monotone
import MidiFile.Proofs.Song.Reached
import MidiFile.Proofs.TempoMap.Ticks

/-! # What times are divided by

Times in seconds are divided by the ticks of a quarter note or of a second, and ticks by the tempo. No
division of a song is zero, and no tempo is greater than three bytes can say. A tempo is zero exactly where
the tempo that was set last is: the message that is made out of a tempo never sets zero, but one that comes
with a file, is given in bytes or has its payload given may. Without such a message every time goes back
to ticks (`Song.session_divisors`).
-/

namespace MidiFile

open Clock

variable {S : Type} [Clock S]

namespace Song

variable {mode : Mode} {commands : List (Command S)} {number : Nat} {song : Song S} {log : Log}

section
variable [Workers]

/-- A tempo is zero where the one that was set last is. -/
theorem session_tempo_eq_zero_iff (few : Workspace.acquisitions mode commands < 0xFFFFFFFF)
    (here : (Workspace.session mode commands).songs[number]? = some song)
    (logged : (Workspace.logs mode commands)[number]? = some log) {entry : Entry S} (inside : entry ∈ song.tempoMap.entries) :
    entry.tempo = 0 ↔ log.inEffect? Setting.tempo? entry.tick = some 0 := by
  obtain ⟨_, found, follows⟩ := exists_getElem?_right (Workspace.session_follows_logs few) here
  obtain rfl := Option.some.inj (logged.symm.trans found)
  have lawful := session_lawful few (List.mem_of_getElem? here)
  rw [(follows.describes lawful.ordered lawful.settled).tempo entry inside]
  cases log.inEffect? Setting.tempo? entry.tick with
  | none => exact ⟨fun zero => absurd zero (show defaultTempo ≠ 0 by decide), nofun⟩
  | some tempo => simp

/-- In every song of every session the ticks of a quarter note or of a film frame are some, and no more
    than they have bits for. Tempos are no greater than three bytes can say; while no count of references
    starts over, one is zero exactly where the message that set it last says so, which is never one that
    was made out of a tempo. On a clock that goes back to counts, where no tempo of a song is zero, the
    quarter notes of a minute can be told, every time comes to a number of ticks, and the start of the
    song comes to a tick. -/
theorem session_divisors (mode : Mode) (commands : List (Command S))
    (here : (Workspace.session mode commands).songs[number]? = some song)
    (logged : (Workspace.logs mode commands)[number]? = some log) :
    (∀ ticks, song.division = .metrical ticks → 1 ≤ ticks.toNat ∧ ticks.toNat ≤ 32767) ∧
      (∀ rate resolution, song.division = .timecode rate resolution → 1 ≤ resolution.toNat) ∧
      (∀ entry ∈ song.tempoMap.entries, entry.tempo ≤ 0xFFFFFF ∧
        (Workspace.acquisitions mode commands < 0xFFFFFFFF →
          (entry.tempo = 0 ↔ log.inEffect? Setting.tempo? entry.tick = some 0))) ∧
      (∀ microseconds message, Message.ofTempo microseconds = .ok message →
        message.tempo? = some microseconds ∧ 1 ≤ microseconds ∧ microseconds ≤ 0xFFFFFF) ∧
      (CountingClock S → (∀ entry ∈ song.tempoMap.entries, entry.tempo ≠ 0) →
        (∀ entry ∈ song.tempoMap.entries, isTime entry.perMinute = true) ∧
        (∀ seconds, isTime seconds = true → Amount (song.tempoMap.ticksOf song.division seconds)) ∧
        ∃ tick, song.tickAt zero = .ok tick) := by
  have member := List.mem_of_getElem? here
  have valid := (session_sound mode commands member).division
  have reached := session_reached mode commands member
  refine ⟨fun ticks metrical => ?_, fun rate resolution timecode => ?_, fun entry inside => ?_,
    fun _ _ => Message.tempo?_ofTempo, fun counting moves => ?_⟩
  · rw [metrical] at valid
    exact ⟨valid.ticks_pos, Nat.le_of_lt_succ ticks.toNat_lt⟩
  · rw [timecode] at valid
    exact valid.resolution_pos
  · exact ⟨(reached.sane entry inside).pace.tempo, fun few => session_tempo_eq_zero_iff few here logged inside⟩
  · have countable := reached.countable valid moves
    exact ⟨fun entry inside => Entry.isTime_perMinute (countable.pace entry inside),
      fun _ time => countable.amount_ticksOf time, countable.tickOf_zero⟩

end

/-- The most ticks of a quarter note and the least tempo, and another tempo behind it. -/
private def hastyCommands : List (Command Rat) :=
  [.create, .change 0 (.setTicksPerQuarter 32767), .change 0 (.addTrack .new),
    .change 0 (.addEvent 0 (.new (.tempo 1)) (.tick 0)), .change 0 (.addEvent 0 (.new (.tempo 0xFFFFFF)) (.tick 10))]

theorem session_divisors_hasty :
    ∃ song ∈ (Workspace.session .strict hastyCommands).songs,
      song.division = .metrical (Narrow.largest 15) ∧ song.tempoMap.entries.map (·.tempo) = [1, 0xFFFFFF] ∧
        (∀ entry ∈ song.tempoMap.entries, entry.tempo ≤ 0xFFFFFF) ∧ ∃ tick, song.tickAt zero = .ok tick := by
  obtain ⟨song, log, here, logged, division, tempos⟩ : ∃ song log,
      (Workspace.session .strict hastyCommands).songs[0]? = some song ∧
      (Workspace.logs .strict hastyCommands)[0]? = some log ∧
      song.division = .metrical (Narrow.largest 15) ∧ song.tempoMap.entries.map (·.tempo) = [1, 0xFFFFFF] :=
    ⟨_, _, rfl, rfl, rfl, rfl⟩
  have moves : ∀ entry ∈ song.tempoMap.entries, entry.tempo ≠ 0 := by
    intro entry inside
    have listed : entry.tempo ∈ [1, 0xFFFFFF] := tempos ▸ List.mem_map_of_mem inside
    rintro none
    simp [none] at listed
  obtain ⟨_, _, bounds, _, back⟩ := session_divisors .strict hastyCommands here logged
  exact ⟨song, List.mem_of_getElem? here, division, tempos, fun entry inside => (bounds entry inside).1,
    (back inferInstance moves).2.2⟩

/-- A file, and messages made out of their bytes and out of a payload, that set a tempo of zero. -/
private def stoppedCommands : List (Command Float) :=
  [.read [0x4D, 0x54, 0x68, 0x64, 0, 0, 0, 6, 0, 0, 0, 1, 0, 96, 0x4D, 0x54, 0x72, 0x6B, 0, 0, 0, 11,
      0, 0xFF, 0x51, 3, 0, 0, 0, 0, 0xFF, 0x2F, 0],
    .create, .change 1 (.addTrack .new), .change 1 (.addEvent 0 (.new (.bytes [0xFF, 0x51, 3, 0, 0, 0])) (.tick 0)),
    .create, .change 2 (.addTrack .new), .change 2 (.addEvent 0 (.new (.metadata 0x51 [0, 0, 0])) (.tick 0))]

/-- Where a tempo is zero, neither the quarter notes of a minute nor the ticks up to the start of the song
    are numbers to go on with. -/
theorem session_divisors_stopped :
    ((Workspace.session .strict stoppedCommands).songs.map fun song => song.tempoMap.entries.map (·.tempo)) =
        [[0], [0], [0]] ∧
      ((Workspace.session .strict stoppedCommands).songs.map fun song =>
          song.tempoMap.entries.map fun entry => isTime entry.perMinute) = [[false], [false], [false]] ∧
      ((Workspace.session .strict stoppedCommands).songs.map fun song =>
          le zero (song.tempoMap.ticksOf song.division zero)) = [false, false, false] := by
  decide +kernel

end Song

end MidiFile
