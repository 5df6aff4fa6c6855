/-! # Text in columns and numbers with fixed places

A text is brought to the width of its column by filling up the side that is free. A text that
is wider than the column is kept whole.

A number in binary floating point is a whole number times a power of two, so its decimal
expansion ends. The text is that expansion rounded to the nearest at the given place, with a
half going to the even neighbour; nothing is rounded twice.
-/

namespace MidiFile.Text

def filling (width : Nat) (fill : Char) (text : String) : String :=
  String.ofList (List.replicate (width - text.length) fill)

/-- The text at the right edge of its column. -/
def alignRight (width : Nat) (fill : Char) (text : String) : String := filling width fill text ++ text

/-- The text at the left edge of its column. -/
def alignLeft (width : Nat) (fill : Char) (text : String) : String := text ++ filling width fill text

theorem length_alignRight (width : Nat) (fill : Char) (text : String) :
    (alignRight width fill text).length = max width text.length := by
  simp only [alignRight, filling, String.length_append, String.length_ofList, List.length_replicate]
  omega

theorem length_alignLeft (width : Nat) (fill : Char) (text : String) :
    (alignLeft width fill text).length = max width text.length := by
  simp only [alignLeft, filling, String.length_append, String.length_ofList, List.length_replicate]
  omega

/-- The whole number nearest to a quotient, the even one of two that are equally near. -/
def nearestQuotient (numerator denominator : Nat) : Nat :=
  let below := numerator / denominator
  let rest := numerator % denominator
  if 2 * rest < denominator then below
  else if denominator < 2 * rest then below + 1
  else below + below % 2

/-- The rounded quotient is at most half a unit away. -/
theorem nearestQuotient_near (numerator denominator : Nat) (positive : 0 < denominator) :
    2 * (denominator * nearestQuotient numerator denominator) ≤ 2 * numerator + denominator ∧
      2 * numerator ≤ 2 * (denominator * nearestQuotient numerator denominator) + denominator := by
  have split := Nat.div_add_mod numerator denominator
  have rest := Nat.mod_lt numerator positive
  have parity : numerator / denominator % 2 = 0 ∨ numerator / denominator % 2 = 1 := by omega
  simp only [nearestQuotient]
  split
  · omega
  · split
    · rw [Nat.mul_add]; omega
    · rw [Nat.mul_add]
      rcases parity with even | odd
      · rw [even]; omega
      · rw [odd]; omega

/-- What the bits of a floating-point number stand for: the significand times two to the power
    of the exponent, or one of the values that are not numbers of that form. -/
inductive Binary64
  | finite (negative : Bool) (significand : Nat) (exponent : Int)
  | infinite (negative : Bool)
  | notANumber
deriving DecidableEq, Repr

/-- Take the sign, exponent and fraction fields of a word apart. -/
def Binary64.ofWord (word : Nat) : Binary64 :=
  let negative := word / 0x8000000000000000 % 2 == 1
  let field : Nat := word / 0x10000000000000 % 0x800
  let fraction : Nat := word % 0x10000000000000
  if field = 0x7FF then
    if fraction = 0 then .infinite negative else .notANumber
  else if field = 0 then .finite negative fraction (-1074)
  else .finite negative (fraction + 0x10000000000000) (field - 1075)

/-- The whole number nearest to the significand, times ten for each place. -/
def scaled (places significand : Nat) (exponent : Int) : Nat :=
  nearestQuotient (significand * Nat.pow 10 places * Nat.pow 2 exponent.toNat) (Nat.pow 2 (-exponent).toNat)

/-- The decimal digits of a number, at least as many as given. -/
def paddedDigits (width value : Nat) : String :=
  let digits := Nat.toDigits 10 value
  String.ofList (List.replicate (width - digits.length) '0' ++ digits)

/-- A number of units of the last place, with the point in front of the places. -/
def pointed (places units : Nat) : String :=
  let unit := Nat.pow 10 places
  toString (units / unit) ++ (if places = 0 then "" else "." ++ paddedDigits places (units % unit))

/-- A floating-point number with the given count of decimal places. -/
def fixed (places : Nat) (value : Float) : String :=
  match Binary64.ofWord value.toBits.toNat with
  | .notANumber => "NaN"
  | .infinite negative => if negative then "-inf" else "inf"
  | .finite negative significand exponent =>
    (if negative then "-" else "") ++ pointed places (scaled places significand exponent)

end MidiFile.Text
