import MidiFile.Fault

/-! # Taking bytes apart

Words are numbers of a fixed count of bytes. Chunk lengths and header words put the most
significant byte first, the sizes of a wrapper put it last.

A decoder works on the bytes that are left and hands on those that it did not use. Each step
either takes exactly what was asked for or fails and takes nothing; what earlier steps took
stays taken, so a failure also tells how far the reading got.
-/

namespace MidiFile

namespace Bytes

/-- The number that the bytes spell with the most significant one first. -/
def bigEndian (bytes : List UInt8) : Nat := bytes.foldl (fun number byte => number * 256 + byte.toNat) 0

/-- The number that the bytes spell with the most significant one last. -/
def littleEndian (bytes : List UInt8) : Nat := bigEndian bytes.reverse

/-- The lowest `width` bytes of a number, the most significant one first. -/
def word : Nat → Nat → List UInt8
  | 0, _ => []
  | width + 1, number => word width (number / 256) ++ [UInt8.ofNat number]

@[simp] theorem length_word (width number : Nat) : (word width number).length = width := by
  induction width generalizing number with
  | zero => rfl
  | succ width ih => simp [word, ih]

theorem bigEndian_append_byte (bytes : List UInt8) (byte : UInt8) :
    bigEndian (bytes ++ [byte]) = bigEndian bytes * 256 + byte.toNat := by
  simp [bigEndian, List.foldl_append]

/-- A word is read back as the number, less what did not fit. -/
theorem bigEndian_word (width number : Nat) : bigEndian (word width number) = number % Nat.pow 256 width := by
  induction width generalizing number with
  | zero => simp [word, bigEndian, Nat.mod_one]
  | succ width ih =>
    have power : Nat.pow 256 (width + 1) = 256 * Nat.pow 256 width := Nat.mul_comm _ _
    rw [word, bigEndian_append_byte, ih, power, Nat.mod_mul]
    simp only [UInt8.toNat_ofNat']
    omega

end Bytes

/-- A step that reads a value from the front of the bytes that are left. -/
abbrev Decode := EStateM Fault (List UInt8)

namespace Decode

variable {α β : Type}

def fail (fault : Fault) : Decode α := fun bytes => .error fault bytes

def ensure (condition : Bool) (fault : Fault) : Decode Unit := if condition then pure () else fail fault

/-- Whatever goes wrong in the step is reported from the operation around it. -/
def within (context : Context) (step : Decode α) : Decode α := fun bytes =>
  match step bytes with
  | .ok value rest => .ok value rest
  | .error fault rest => .error (fault.within context) rest

/-- A value that was worked out without taking any bytes, or the fault met on the way. -/
def ofExcept : Except Fault α → Decode α
  | .ok value => pure value
  | .error fault => fail fault

/-- Exactly `count` bytes. -/
def take (count : Nat) : Decode (List UInt8) := fun bytes =>
  let front := bytes.take count
  if front.length = count then .ok front (bytes.drop count) else .error (.truncated .bytes) bytes

def byte : Decode UInt8 := fun bytes =>
  match bytes with
  | [] => .error (.truncated .bytes) []
  | first :: rest => .ok first rest

/-- A number of `width` bytes, the most significant one first. -/
def word (width : Nat) : Decode Nat := do
  return Bytes.bigEndian (← within .integer (take width))

/-- The next byte, which stays where it is. -/
def peek : Decode (Option UInt8) := fun bytes => .ok bytes.head? bytes

/-- The result of reading from the front, without the bytes that are left. -/
def run (step : Decode α) (bytes : List UInt8) : Except Fault α :=
  match step bytes with
  | .ok value _ => .ok value
  | .error fault _ => .error fault

/-! ## What a step leaves

A step takes from the front and puts nothing back, so what it leaves is an end of what it was
given. Most steps that succeed have taken at least one byte, which bounds every repetition.
-/

/-- The bytes that are left after the step, whether or not it succeeds. -/
def left (step : Decode α) (bytes : List UInt8) : List UInt8 :=
  match step bytes with
  | .ok _ rest => rest
  | .error _ rest => rest

/-- The step takes from the front only. -/
def Takes (step : Decode α) : Prop := ∀ bytes, step.left bytes <:+ bytes

/-- The step takes at least one byte when it succeeds. -/
def Shortens (step : Decode α) : Prop :=
  ∀ bytes value rest, step bytes = .ok value rest → rest.length < bytes.length

theorem left_of_ok {step : Decode α} {bytes rest : List UInt8} {value : α}
    (done : step bytes = .ok value rest) : step.left bytes = rest := by
  simp [left, done]

theorem left_of_error {step : Decode α} {bytes rest : List UInt8} {fault : Fault}
    (failed : step bytes = .error fault rest) : step.left bytes = rest := by
  simp [left, failed]

theorem Takes.length_le {step : Decode α} (takes : step.Takes) {bytes rest : List UInt8} {value : α}
    (done : step bytes = .ok value rest) : rest.length ≤ bytes.length := by
  have shorter := (takes bytes).length_le
  rwa [left_of_ok done] at shorter

theorem pure_apply (value : α) (bytes : List UInt8) : (pure value : Decode α) bytes = .ok value bytes := rfl

theorem bind_apply (step : Decode α) (next : α → Decode β) (bytes : List UInt8) :
    (step >>= next) bytes = match step bytes with
      | .ok value rest => next value rest
      | .error fault rest => .error fault rest := by
  change EStateM.bind step next bytes = _
  unfold EStateM.bind
  cases step bytes <;> rfl

theorem takes_pure (value : α) : (pure value : Decode α).Takes := fun bytes => List.suffix_refl bytes

theorem takes_fail (fault : Fault) : (fail fault : Decode α).Takes := fun bytes => List.suffix_refl bytes

theorem takes_ensure (condition : Bool) (fault : Fault) : (ensure condition fault).Takes := by
  cases condition
  · exact takes_fail fault
  · exact takes_pure ()

theorem takes_ofExcept (result : Except Fault α) : (ofExcept result).Takes := by
  cases result with
  | ok value => exact takes_pure value
  | error fault => exact takes_fail fault

theorem takes_bind {step : Decode α} {next : α → Decode β} (first : step.Takes)
    (second : ∀ value, (next value).Takes) : (step >>= next).Takes := by
  intro bytes
  have taken := first bytes
  simp only [left, bind_apply] at *
  cases done : step bytes with
  | ok value rest =>
    simp only [done] at *
    exact (second value rest).trans taken
  | error fault rest => simpa only [done] using taken

theorem takes_within {context : Context} {step : Decode α} (takes : step.Takes) : (within context step).Takes := by
  intro bytes
  have taken := takes bytes
  simp only [left, within] at *
  cases done : step bytes <;> simpa only [done] using taken

theorem takes_take (count : Nat) : (take count).Takes := by
  intro bytes
  by_cases enough : (bytes.take count).length = count
  · simpa only [left, take, enough, ite_true] using List.drop_suffix count bytes
  · simpa only [left, take, enough, ite_false] using List.suffix_refl bytes

theorem takes_byte : byte.Takes := by
  intro bytes
  cases bytes with
  | nil => exact List.suffix_refl []
  | cons first rest => exact List.suffix_cons first rest

theorem takes_peek : peek.Takes := fun bytes => List.suffix_refl bytes

theorem takes_word (width : Nat) : (word width).Takes :=
  takes_bind (takes_within (takes_take width)) fun _ => takes_pure _

theorem shortens_take {count : Nat} (positive : 0 < count) : (take count).Shortens := by
  intro bytes value rest done
  by_cases enough : (bytes.take count).length = count
  · simp only [take, enough, ite_true, EStateM.Result.ok.injEq] at done
    rw [← done.2, List.length_drop]
    rw [List.length_take] at enough
    omega
  · simp only [take, enough, ite_false, reduceCtorEq] at done

theorem shortens_within {context : Context} {step : Decode α} (shortens : step.Shortens) :
    (within context step).Shortens := by
  intro bytes value rest done
  cases inner : step bytes with
  | ok found left =>
    simp only [within, inner, EStateM.Result.ok.injEq] at done
    obtain ⟨rfl, rfl⟩ := done
    exact shortens _ _ _ inner
  | error fault left => simp [within, inner] at done

theorem shortens_bind {step : Decode α} {next : α → Decode β} (first : step.Shortens)
    (second : ∀ value, (next value).Takes) : (step >>= next).Shortens := by
  intro bytes value rest done
  rw [bind_apply] at done
  cases inner : step bytes with
  | ok found left =>
    simp only [inner] at done
    exact Nat.lt_of_le_of_lt ((second found).length_le done) (first _ _ _ inner)
  | error fault left => simp [inner] at done

end Decode

namespace Bytes

/-- A run of bytes that is read from the front to the back. -/
structure Reader where
  whole : List UInt8
  unread : List UInt8
deriving DecidableEq, Repr

namespace Reader

def ofBytes (bytes : List UInt8) : Reader := ⟨bytes, bytes⟩

/-- The count of bytes still to read. -/
def remaining (reader : Reader) : Nat := reader.unread.length

/-- The count of bytes read so far. -/
def position (reader : Reader) : Nat := reader.whole.length - reader.remaining

def isEmpty (reader : Reader) : Bool := reader.unread.isEmpty

/-- One step of reading; the reader stays where a failing step left it. -/
def read {α : Type} (reader : Reader) (step : Decode α) : Except Fault α × Reader :=
  match step reader.unread with
  | .ok value rest => (.ok value, { reader with unread := rest })
  | .error fault rest => (.error fault, { reader with unread := rest })

end Reader

end Bytes

end MidiFile
