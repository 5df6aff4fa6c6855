import MidiFile.Clock
import MidiFile.Event
import Mathlib.Algebra.Order.Field.Rat
import Mathlib.Tactic.Positivity

/-! # Clocks whose numbers keep their order

Times in seconds follow their ticks in order only if the arithmetic of their clock keeps the order of
numbers. `LawfulClock` lists what is needed of it, which is no more than floating-point numbers give:
rounding is monotone and keeps numbers that are not negative so, and counts within thirty-two bits are
exact. Sums and products may go beyond all numbers, and then some products are no number at all. So the
laws are about numbers that are not negative (`Clock.Amount`), and of products they ask finite ones
(`Clock.isTime`). From seconds back to counts a little more is needed, which floating-point numbers give as
well (`CountingClock`): no difference goes below zero where the lesser number is taken away, and zero stays
zero. Exact fractions are a clock that obeys the same laws.
-/

namespace MidiFile

namespace Clock

variable {S : Type} [Clock S]

/-- The first number is at most the second. -/
def AtMost (first second : S) : Prop := le first second = true

/-- The number is not negative; it may be beyond all times. -/
def Amount (number : S) : Prop := AtMost zero number

end Clock

open Clock in
/-- The arithmetic keeps the order of numbers that are not negative. Only counts of ticks, tempos and
    parts of a second ever multiply or divide, so these laws are about counts that there is room for. -/
class LawfulClock (S : Type) [Clock S] : Prop where
  atMost_trans {x y z : S} : AtMost x y → AtMost y z → AtMost x z
  atMost_total {x y : S} : Amount x → Amount y → AtMost x y ∨ AtMost y x
  amount_of_isTime {x : S} : isTime x = true → Amount x
  -- Counts are exact.
  isTime_ofNat {n : Nat} : n ≤ greatestTick → isTime (ofNat n : S) = true
  ofNat_mono {m n : Nat} : m ≤ n → n ≤ greatestTick → AtMost (ofNat m : S) (ofNat n)
  ofNat_mul {m n : Nat} : 0 < m → 0 < n → m * n ≤ greatestTick → (ofNat m * ofNat n : S) = ofNat (m * n)
  -- Rounding keeps the order of sums, products and quotients.
  atMost_zero_add {x : S} : Amount x → AtMost x (zero + x)
  atMost_add {x y : S} : Amount x → Amount y → AtMost x (x + y)
  add_mono {x y z : S} : Amount x → Amount y → Amount z → AtMost x y → AtMost (z + x) (z + y)
  amount_mul {x : S} {n : Nat} : isTime x = true → n ≤ greatestTick → Amount (x * ofNat n)
  mul_mono {x y : S} {n : Nat} : isTime x = true → isTime y = true → n ≤ greatestTick → AtMost x y →
    AtMost (x * ofNat n) (y * ofNat n)
  amount_div {x : S} {n : Nat} : Amount x → 0 < n → n ≤ greatestTick → Amount (x / ofNat n)
  div_mono {x y : S} {n : Nat} : Amount x → Amount y → 0 < n → n ≤ greatestTick → AtMost x y →
    AtMost (x / ofNat n) (y / ofNat n)
  -- A finite number divided by a count is finite.
  isTime_div {x : S} {n : Nat} : isTime x = true → 0 < n → n ≤ greatestTick → isTime (x / ofNat n) = true

open Clock in
/-- The arithmetic also goes back to counts. Of a zero nothing is left but zero, and a count is the nearest
    count to itself. -/
class CountingClock (S : Type) [Clock S] : Prop extends LawfulClock S where
  amount_sub {x y : S} : Amount x → isTime y = true → AtMost x y → Amount (y - x)
  amount_mul_pos {x : S} {n : Nat} : Amount x → 0 < n → n ≤ greatestTick → Amount (x * ofNat n)
  zero_sub_amount {x : S} : Amount x → AtMost x zero → zero - x = zero
  zero_mul_ofNat {n : Nat} : n ≤ greatestTick → (zero * ofNat n : S) = zero
  zero_div_ofNat {n : Nat} : 0 < n → n ≤ greatestTick → (zero / ofNat n : S) = zero
  ofNat_add_zero {n : Nat} : n ≤ greatestTick → (ofNat n + zero : S) = ofNat n
  nearest?_ofNat {n : Nat} : n ≤ greatestTick → nearest? (ofNat n : S) = some n

namespace Clock

open LawfulClock

variable {S : Type} [Clock S] [LawfulClock S]

theorem atMost_refl {x : S} (amount : Amount x) : AtMost x x := (atMost_total amount amount).elim id id

theorem Amount.of_atMost {x y : S} (amount : Amount x) (less : AtMost x y) : Amount y := atMost_trans amount less

theorem amount_ofNat {n : Nat} (small : n ≤ greatestTick) : Amount (ofNat n : S) := amount_of_isTime (isTime_ofNat small)

theorem amount_zero : Amount (zero : S) := amount_ofNat (Nat.zero_le _)

theorem amount_add {x y : S} (first : Amount x) (second : Amount y) : Amount (x + y) :=
  first.of_atMost (atMost_add first second)

theorem atMost_later_left {x : S} (first : Amount x) (y : S) : AtMost x (later x y) := by
  unfold later
  split
  · assumption
  · exact atMost_refl first

theorem atMost_later_right {x y : S} (first : Amount x) (second : Amount y) : AtMost y (later x y) := by
  unfold later
  split
  · exact atMost_refl second
  · rename_i not_
    exact (atMost_total first second).resolve_left not_

/-- The latest of some numbers is none before any of them. -/
theorem atMost_foldl_later {start : S} {numbers : List S} (begun : Amount start) (amounts : ∀ x ∈ numbers, Amount x) :
    ∀ x ∈ start :: numbers, AtMost x (numbers.foldl later start) := by
  induction numbers generalizing start with
  | nil => simpa using atMost_refl begun
  | cons next rest ih =>
    obtain ⟨second, others⟩ := List.forall_mem_cons.mp amounts
    have bound := ih (begun.of_atMost (atMost_later_left begun next)) others
    have most : AtMost (later start next) (rest.foldl later (later start next)) := bound _ List.mem_cons_self
    refine List.forall_mem_cons.mpr ⟨atMost_trans (atMost_later_left begun next) most, List.forall_mem_cons.mpr ⟨?_, ?_⟩⟩
    · exact atMost_trans (atMost_later_right begun second) most
    · exact fun x member => bound x (List.mem_cons_of_mem _ member)

end Clock

/-- Exact fractions as a clock. -/
instance : Clock Rat where
  ofNat n := n
  le first second := first ≤ second
  lt first second := first < second
  isTime seconds := 0 ≤ seconds
  nearest? seconds :=
    let whole := (seconds + 1 / 2).floor.toNat
    if whole ≤ greatestTick then some whole else none

namespace Clock

@[simp] theorem ofNat_rat (n : Nat) : (ofNat n : Rat) = n := rfl

@[simp] theorem zero_rat : (zero : Rat) = 0 := rfl

@[simp] theorem isTime_rat {x : Rat} : isTime x = true ↔ 0 ≤ x := decide_eq_true_iff

@[simp] theorem atMost_rat {x y : Rat} : AtMost x y ↔ x ≤ y := decide_eq_true_iff

@[simp] theorem amount_rat {x : Rat} : Amount x ↔ 0 ≤ x := decide_eq_true_iff

/-- Half a count more is rounded down to the count. -/
theorem nearest?_rat {n : Nat} (small : n ≤ greatestTick) : nearest? (n : Rat) = some n := by
  have floor : ((n : Rat) + 1 / 2).floor = n := by
    have lower : (n : Int) ≤ ((n : Rat) + 1 / 2).floor := Rat.le_floor_iff.mpr (by norm_num)
    have upper : ¬ (n : Int) + 1 ≤ ((n : Rat) + 1 / 2).floor := by
      rw [Rat.le_floor_iff, not_le]
      push_cast
      gcongr
      exact one_half_lt_one
    omega
  show (if ((n : Rat) + 1 / 2).floor.toNat ≤ greatestTick then some ((n : Rat) + 1 / 2).floor.toNat else none) = some n
  rw [floor, Int.toNat_natCast, if_pos small]

end Clock

open Clock in
instance : LawfulClock Rat where
  atMost_trans less more := by
    rw [atMost_rat] at *
    exact less.trans more
  atMost_total {x y} _ _ := by simpa using le_total x y
  amount_of_isTime := by simp
  isTime_ofNat := by simp
  ofNat_mono less _ := by simpa using less
  ofNat_mul _ _ _ := by simp
  atMost_zero_add _ := by simp
  atMost_add _ second := by simpa using second
  add_mono _ _ _ less := by simpa using less
  amount_mul time _ := by
    simp only [isTime_rat, amount_rat, ofNat_rat] at *
    positivity
  mul_mono _ _ _ less := by
    simp only [atMost_rat, ofNat_rat] at *
    gcongr
  isTime_div time _ _ := by
    simp only [isTime_rat, ofNat_rat] at *
    positivity
  amount_div amount _ _ := by
    simp only [amount_rat, ofNat_rat] at *
    positivity
  div_mono _ _ _ _ less := by
    simp only [atMost_rat, ofNat_rat] at *
    gcongr

open Clock in
instance : CountingClock Rat where
  amount_sub _ _ less := by simpa using less
  amount_mul_pos amount _ _ := by
    simp only [amount_rat, ofNat_rat] at *
    positivity
  zero_sub_amount amount less := by
    simp only [amount_rat, atMost_rat, zero_rat] at *
    rw [le_antisymm less amount, sub_zero]
  zero_mul_ofNat _ := by simp
  zero_div_ofNat _ _ := by simp
  ofNat_add_zero _ := by simp
  nearest?_ofNat := nearest?_rat

end MidiFile
