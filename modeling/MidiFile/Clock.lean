/-! # Clocks: numbers for times in seconds

The tempo map turns ticks into seconds and back by a fixed sequence of additions, multiplications
and divisions. Which numbers carry the seconds is left open: everything that holds a time takes
the type of its seconds as a parameter, and `Clock` lists the operations in use. Floating-point
numbers are the clock that programs run on. They round, so the order of the operations matters
and none may be moved.
-/

namespace MidiFile

/-- The arithmetic of a time in seconds. -/
class Clock (S : Type) extends Add S, Sub S, Mul S, Div S where
  /-- A count as a number of the clock. -/
  ofNat : Nat → S
  /-- Whether the first number is at most the second. -/
  le : S → S → Bool
  /-- Whether the first number is below the second. -/
  lt : S → S → Bool
  /-- Whether the number can be a time: it is finite and not negative. -/
  isTime : S → Bool
  /-- The count nearest to a number, the greater of two that are equally near. A number below
      zero counts as zero; there is no count for one beyond thirty-two bits or for no number. -/
  nearest? : S → Option Nat

namespace Clock

variable {S : Type} [Clock S]

/-- The start of a song. -/
def zero : S := ofNat 0

def million : S := ofNat 1000000

/-- The greater of two numbers, the first where the second is no number. -/
def later (first second : S) : S := if le first second then second else first

/-- The quarter notes of a minute, from the microseconds of a quarter note. -/
def perMinute (tempo : Nat) : S := ofNat 60000000 / ofNat tempo

end Clock

/-- Floating-point numbers as a clock. -/
instance : Clock Float where
  ofNat := Float.ofNat
  le first second := first ≤ second
  lt first second := first < second
  isTime seconds := seconds.isFinite && 0 ≤ seconds
  nearest? seconds :=
    let whole := seconds.round
    if whole ≤ 4294967295 then some whole.toUInt32.toNat else none

end MidiFile
