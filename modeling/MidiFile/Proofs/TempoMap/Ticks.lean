import MidiFile.Proofs.TempoMap.Reached

/-! # Seconds back to ticks

Going back from seconds to ticks divides by the tempo in effect. Where no entry has a tempo of zero that is
a division by a count (`Pace.Countable`), so every time comes to a number of ticks
(`TempoMap.Countable.amount_ticksOf`), and the start of a song comes to a tick
(`TempoMap.Countable.tickOf_zero`). Every clock that goes back to counts gives this.
-/

namespace MidiFile

open Clock LawfulClock CountingClock

variable {S : Type} [Clock S]

/-- Ticks can be worked out from the pace: its tempo is not zero, and it starts at a tick that there is
    room for. -/
structure Pace.Countable (pace : Pace S) : Prop extends Pace.Lawful pace where
  tick : pace.tick ≤ greatestTick
  moves : 0 < pace.tempo

theorem Pace.countable_start [LawfulClock S] : (Pace.start : Pace S).Countable :=
  ⟨Pace.lawful_start, Nat.zero_le _, show 0 < defaultTempo by decide⟩

/-- The quarter notes of a minute can be told where the tempo is not zero. -/
theorem Entry.isTime_perMinute [LawfulClock S] {entry : Entry S} (countable : entry.pace.Countable) :
    isTime entry.perMinute = true :=
  isTime_div (isTime_ofNat (by decide)) countable.moves countable.tempo

theorem FrameRate.toNat_le (rate : FrameRate) : rate.toNat ≤ greatestTick := Nat.le_trans rate.toNat_bounds.2 (by decide)

theorem Division.resolution_le (resolution : UInt8) : resolution.toNat ≤ greatestTick :=
  Nat.le_trans (Nat.le_of_lt resolution.toNat_lt) (by decide)

namespace TempoMap

/-- The pace in effect at a time in seconds. -/
def paceAtSeconds (map : TempoMap S) (seconds : S) : Pace S := ((map.atSeconds? seconds).map Entry.pace).getD .start

theorem mem_of_atSeconds? {map : TempoMap S} {seconds : S} {entry : Entry S}
    (found : map.atSeconds? seconds = some entry) : entry ∈ map.entries ∧ AtMost entry.seconds seconds := by
  obtain ⟨member, early⟩ := List.mem_filter.mp (List.mem_of_getLast? found)
  exact ⟨(mem_live.mp member).1, early⟩

/-- Seconds go back to ticks at every entry of the map, and where ticks are parts of a quarter note or of a
    film frame there are some. -/
structure Countable (division : Division) (map : TempoMap S) : Prop where
  valid : division.Valid
  pace : ∀ entry ∈ map.entries, entry.pace.Countable

section
variable [LawfulClock S] {division : Division} {map : TempoMap S}

/-- So it is with every map that a song can get to have, unless one of its tempos is zero. -/
theorem Reached.countable (reached : map.Reached) (valid : division.Valid) (moves : ∀ entry ∈ map.entries, entry.tempo ≠ 0) :
    map.Countable division := by
  refine ⟨valid, fun entry member => ?_⟩
  have sane := reached.sane entry member
  exact ⟨sane.pace.lawful, sane.tick, Nat.pos_of_ne_zero (moves entry member)⟩

/-- The pace in effect at a time is one to go back from, and it starts no later. -/
theorem Countable.paceAtSeconds (countable : map.Countable division) {seconds : S} (amount : Amount seconds) :
    (map.paceAtSeconds seconds).Countable ∧ AtMost (map.paceAtSeconds seconds).seconds seconds := by
  rw [TempoMap.paceAtSeconds]
  cases found : map.atSeconds? seconds with
  | none => exact ⟨Pace.countable_start, amount⟩
  | some entry =>
    obtain ⟨member, early⟩ := mem_of_atSeconds? found
    exact ⟨countable.pace entry member, early⟩

end

section
variable [CountingClock S] {division : Division} {map : TempoMap S} (countable : map.Countable division)
include countable

/-- Every time comes to a number of ticks, which is not negative. -/
theorem Countable.amount_ticksOf {seconds : S} (time : isTime seconds = true) : Amount (map.ticksOf division seconds) := by
  have valid := countable.valid
  cases division with
  | metrical ticks =>
    obtain ⟨pace, early⟩ := countable.paceAtSeconds (amount_of_isTime time)
    have passed : Amount (seconds - (map.paceAtSeconds seconds).seconds) := amount_sub pace.seconds time early
    have counted := amount_mul_pos passed valid.ticks_pos (Division.ticksPerQuarter_le ticks)
    have micro : Amount (_ * million : S) := amount_mul_pos counted (by decide) (by decide)
    exact amount_add (amount_ofNat pace.tick) (amount_div micro pace.moves pace.tempo)
  | timecode rate resolution =>
    exact amount_mul_pos (amount_mul time rate.toNat_le) valid.resolution_pos (Division.resolution_le resolution)

/-- The start of a song comes to a tick. -/
theorem Countable.ticksOf_zero : ∃ tick ≤ greatestTick, map.ticksOf division zero = (ofNat tick : S) := by
  cases division with
  | metrical ticks =>
    obtain ⟨pace, early⟩ := countable.paceAtSeconds amount_zero
    refine ⟨(map.paceAtSeconds zero).tick, pace.tick, ?_⟩
    show ofNat (map.paceAtSeconds zero).tick + (zero - (map.paceAtSeconds zero).seconds) * ofNat ticks.toNat * million /
      ofNat (map.paceAtSeconds zero).tempo = ofNat (map.paceAtSeconds zero).tick
    have micro : (zero * million : S) = zero := zero_mul_ofNat (by decide)
    rw [zero_sub_amount pace.seconds early, zero_mul_ofNat (Division.ticksPerQuarter_le ticks), micro,
      zero_div_ofNat pace.moves pace.tempo, ofNat_add_zero pace.tick]
  | timecode rate resolution =>
    refine ⟨0, Nat.zero_le _, ?_⟩
    show (zero * ofNat rate.toNat * ofNat resolution.toNat : S) = zero
    rw [zero_mul_ofNat rate.toNat_le, zero_mul_ofNat (Division.resolution_le resolution)]

theorem Countable.tickOf_zero : ∃ tick, map.tickOf division (zero : S) = .ok tick := by
  obtain ⟨tick, within, same⟩ := countable.ticksOf_zero
  have time : isTime (zero : S) = true := isTime_ofNat (Nat.zero_le _)
  exact ⟨tick, by simp only [tickOf, if_pos time, same, nearest?_ofNat within]⟩

end

end TempoMap

end MidiFile
