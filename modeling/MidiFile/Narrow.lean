/-! # Whole numbers of a given number of bits

A division word leaves fifteen bits for the ticks of a quarter note, a number of variable
length has room for twenty-eight. `Narrow bits` is the type of such numbers: the bound is part
of the value, so that nothing that takes one has to check it again.
-/

namespace MidiFile

/-- A number below two to the power `bits`. -/
structure Narrow (bits : Nat) where
  toNat : Nat
  toNat_lt : toNat < Nat.pow 2 bits
deriving DecidableEq, Repr

namespace Narrow

variable {bits : Nat}

/-- The lowest bits of a number; those above are lost. -/
def truncate (bits value : Nat) : Narrow bits := ⟨value % Nat.pow 2 bits, Nat.mod_lt _ (Nat.two_pow_pos bits)⟩

/-- The number itself, when it has no more bits than there is room for. -/
def ofNat? (bits value : Nat) : Option (Narrow bits) :=
  if fits : value < Nat.pow 2 bits then some ⟨value, fits⟩ else none

def largest (bits : Nat) : Narrow bits := ⟨Nat.pow 2 bits - 1, Nat.sub_lt (Nat.two_pow_pos bits) Nat.one_pos⟩

/-- The number zero, which stands for a number not given. -/
def zero (bits : Nat) : Narrow bits := ⟨0, Nat.two_pow_pos bits⟩

instance : Inhabited (Narrow bits) := ⟨zero bits⟩
instance : Ord (Narrow bits) := ⟨fun left right => compare left.toNat right.toNat⟩

@[ext] theorem ext {left right : Narrow bits} (same : left.toNat = right.toNat) : left = right := by
  cases left; cases right; cases same; rfl

@[simp] theorem toNat_truncate (bits value : Nat) : (truncate bits value).toNat = value % Nat.pow 2 bits := rfl

/-- A number that fits is kept whole. -/
theorem truncate_toNat (value : Narrow bits) : truncate bits value.toNat = value :=
  Narrow.ext (Nat.mod_eq_of_lt value.toNat_lt)

theorem ofNat?_eq_some_iff {value : Nat} {narrow : Narrow bits} :
    ofNat? bits value = some narrow ↔ narrow.toNat = value := by
  unfold ofNat?
  split
  · constructor
    · intro same; cases same; rfl
    · intro same; subst same; rfl
  · rename_i tooLarge
    constructor
    · intro same; cases same
    · intro same; subst same; exact absurd narrow.toNat_lt tooLarge

theorem ofNat?_toNat (value : Narrow bits) : ofNat? bits value.toNat = some value :=
  ofNat?_eq_some_iff.mpr rfl

end Narrow

end MidiFile
