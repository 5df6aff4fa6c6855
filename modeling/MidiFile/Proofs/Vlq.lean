import MidiFile.Vlq
import MidiFile.Proofs.Rows
import Mathlib.Algebra.Group.Nat.Defs

/-! # Numbers of variable length, written and read

A form of a number is at most three bytes with their top bit set and one without (`Vlq.IsForm`); each
byte gives seven bits of what it spells (`Vlq.value`). These are what can be read, and nothing else is
(`read_ok_iff`). What is written is a form of the number, so it is read back, whatever bytes follow
it (`read_encode`). Bytes in front that are nothing but the top bit add nothing: without them any form
is the one that is written (`encode_eq_trimmed`), so none takes fewer bytes (`trimmed_shortest`).
-/

namespace MidiFile

namespace Decode

variable {α : Type}

theorem take_ok_iff {count : Nat} {bytes front rest : List UInt8} :
    take count bytes = .ok front rest ↔ front.length = count ∧ bytes = front ++ rest := by
  constructor
  · intro done
    by_cases enough : (bytes.take count).length = count
    · rw [take, if_pos enough] at done
      cases done
      exact ⟨enough, (List.take_append_drop count bytes).symm⟩
    · rw [take, if_neg enough] at done
      cases done
  · rintro ⟨rfl, rfl⟩
    simp [take]

theorem run_ok_iff {step : Decode α} {bytes : List UInt8} {value : α} :
    step.run bytes = .ok value ↔ ∃ rest, step bytes = .ok value rest := by
  rw [run]
  cases step bytes <;> simp

theorem within_ok_iff {context : Context} {step : Decode α} {bytes rest : List UInt8} {value : α} :
    within context step bytes = .ok value rest ↔ step bytes = .ok value rest := by
  rw [within]
  cases step bytes <;> simp

theorem ensure_ok_iff {condition : Bool} {fault : Fault} {bytes rest : List UInt8} {nothing : Unit} :
    ensure condition fault bytes = .ok nothing rest ↔ condition = true ∧ bytes = rest := by
  cases condition <;> simp [ensure, fail, pure_apply]

theorem ofExcept_ok_iff {result : Except Fault α} {bytes rest : List UInt8} {value : α} :
    ofExcept result bytes = .ok value rest ↔ result = .ok value ∧ bytes = rest := by
  cases result <;> simp [ofExcept, fail, pure_apply]

theorem byte_ok_iff {bytes rest : List UInt8} {value : UInt8} : byte bytes = .ok value rest ↔ bytes = value :: rest := by
  cases bytes <;> simp [byte]

end Decode

namespace Vlq

/-- The groups of seven bits in bytes. -/
def groups (bytes : List UInt8) : List Nat := bytes.map fun byte => byte.toNat % 0x80

/-- The number that groups of seven bits spell behind those that spelled another. -/
def spelled (before : Nat) (groups : List Nat) : Nat := groups.foldl (fun number group => number * 0x80 + group) before

theorem spelled_concat (before : Nat) (groups : List Nat) (last : Nat) :
    spelled before (groups ++ [last]) = spelled before groups * 0x80 + last := by
  simp [spelled]

/-- The number that bytes spell. -/
def value (bytes : List UInt8) : Nat := spelled 0 (groups bytes)

/-- At most four bytes, the top bit set in all but the last. -/
def IsForm (bytes : List UInt8) : Prop :=
  ∃ upper last, bytes = upper ++ [last] ∧ upper.length < 4 ∧ (∀ byte ∈ upper, 0x80 ≤ byte.toNat) ∧ last.toNat < 0x80

theorem isForm_byte {byte : UInt8} (low : byte.toNat < 0x80) : IsForm [byte] :=
  ⟨[], byte, rfl, by simp, by simp, low⟩

theorem IsForm.length_pos {form : List UInt8} (isForm : IsForm form) : 0 < form.length := by
  obtain ⟨upper, last, rfl, _⟩ := isForm
  simp

/-- A form without the bytes in front that add nothing. -/
def trimmed (form : List UInt8) : List UInt8 := form.dropWhile (· == 0x80)

theorem readGroups_ok_iff {left before number : Nat} {bytes rest : List UInt8} :
    readGroups left before bytes = .ok number rest ↔
      ∃ upper last, bytes = upper ++ last :: rest ∧ upper.length < left ∧ (∀ byte ∈ upper, 0x80 ≤ byte.toNat) ∧
        last.toNat < 0x80 ∧ number = spelled before (groups (upper ++ [last])) := by
  induction left generalizing before bytes with
  | zero => simp [readGroups, Decode.fail]
  | succ left ih =>
    cases bytes with
    | nil => simp [readGroups]
    | cons group bytes =>
      by_cases last : group.toNat < 0x80
      · simp only [readGroups, last, if_true, EStateM.Result.ok.injEq]
        constructor
        · rintro ⟨rfl, rfl⟩
          exact ⟨[], group, rfl, Nat.succ_pos left, List.forall_mem_nil _, last, rfl⟩
        · rintro ⟨upper, other, whole, _, high, _, rfl⟩
          cases upper with
          | nil =>
            cases whole
            exact ⟨rfl, rfl⟩
          | cons first upper =>
            cases whole
            exact absurd (high group List.mem_cons_self) (Nat.not_le.mpr last)
      · simp only [readGroups, last, if_false, ih]
        constructor
        · rintro ⟨upper, other, rfl, room, high, low, rfl⟩
          refine ⟨group :: upper, other, rfl, Nat.succ_lt_succ room, ?_, low, rfl⟩
          exact List.forall_mem_cons.mpr ⟨Nat.le_of_not_lt last, high⟩
        · rintro ⟨upper, other, whole, room, high, low, rfl⟩
          cases upper with
          | nil =>
            cases whole
            exact absurd low last
          | cons first upper =>
            cases whole
            exact ⟨upper, other, rfl, Nat.lt_of_succ_lt_succ room, (List.forall_mem_cons.mp high).2, low, rfl⟩

theorem spelled_groups_lt (before : Nat) (bytes : List UInt8) :
    spelled before (groups bytes) < (before + 1) * 0x80 ^ bytes.length := by
  induction bytes generalizing before with
  | nil => simp [spelled, groups]
  | cons byte bytes ih =>
    calc spelled before (groups (byte :: bytes))
        < (before * 0x80 + byte.toNat % 0x80 + 1) * 0x80 ^ bytes.length := ih _
      _ ≤ (before + 1) * 0x80 * 0x80 ^ bytes.length := Nat.mul_le_mul_right _ (by omega)
      _ = (before + 1) * 0x80 ^ (byte :: bytes).length := by rw [Nat.mul_assoc, ← Nat.pow_succ', List.length_cons]

theorem value_lt {form : List UInt8} (isForm : IsForm form) : value form < 0x10000000 := by
  obtain ⟨upper, last, rfl, room, _, _⟩ := isForm
  have most : (0x80 : Nat) ^ (upper ++ [last]).length ≤ 0x80 ^ 4 :=
    Nat.pow_le_pow_right (by decide) (by rw [List.length_append, List.length_singleton]; exact room)
  have bound := spelled_groups_lt 0 (upper ++ [last])
  rw [Nat.zero_add, Nat.one_mul] at bound
  exact Nat.lt_of_lt_of_le bound most

/-- A number is read exactly where one of its forms is in front. -/
theorem read_ok_iff {bytes rest : List UInt8} {number : Number} :
    read bytes = .ok number rest ↔ ∃ form, IsForm form ∧ bytes = form ++ rest ∧ number.toNat = value form := by
  simp only [read, step_bind_ok_iff, readGroups_ok_iff]
  constructor
  · rintro ⟨found, left, ⟨upper, last, rfl, room, high, low, rfl⟩, made⟩
    cases made
    have isForm : IsForm (upper ++ [last]) := ⟨upper, last, rfl, room, high, low⟩
    exact ⟨_, isForm, by simp, Nat.mod_eq_of_lt (value_lt isForm)⟩
  · rintro ⟨form, isForm, rfl, same⟩
    have whole : Narrow.truncate 28 (value form) = number := by
      rw [← same, Narrow.truncate_toNat]
    obtain ⟨upper, last, rfl, room, high, low⟩ := isForm
    exact ⟨_, rest, ⟨upper, last, by simp, room, high, low, rfl⟩, by rw [← whole]; rfl⟩

theorem toNat_lt (number : Number) : number.toNat < 0x10000000 := number.toNat_lt

theorem upperGroups_lt {number : Number} {group : Nat} (member : group ∈ upperGroups number) : group < 0x80 := by
  have listed := (List.dropWhile_sublist _).subset member
  simp only [List.map_cons, List.map_nil, List.mem_cons, List.not_mem_nil, or_false] at listed
  omega

theorem length_upperGroups_lt (number : Number) : (upperGroups number).length < 4 := by
  have shorter := (List.dropWhile_sublist (p := (· == 0))
    (l := [number.toNat / 0x200000, number.toNat / 0x4000, number.toNat / 0x80].map (· % 0x80))).length_le
  simp only [List.length_map, List.length_cons, List.length_nil] at shorter
  exact Nat.lt_succ_of_le shorter

theorem toNat_upper {group : Nat} (small : group < 0x80) : (UInt8.ofNat (group + 0x80)).toNat = group + 0x80 := by
  rw [UInt8.toNat_ofNat']
  omega

theorem toNat_lowest (number : Nat) : (UInt8.ofNat (number % 0x80)).toNat = number % 0x80 := by
  rw [UInt8.toNat_ofNat']
  omega

theorem isForm_encode (number : Number) : IsForm (encode number) := by
  refine ⟨_, _, rfl, ?_, ?_, ?_⟩
  · rw [List.length_map]
    exact length_upperGroups_lt number
  · intro byte member
    obtain ⟨group, listed, rfl⟩ := List.mem_map.mp member
    rw [toNat_upper (upperGroups_lt listed)]
    omega
  · rw [toNat_lowest]
    exact Nat.mod_lt _ (by decide)

theorem groups_encode (number : Number) : groups (encode number) = upperGroups number ++ [number.toNat % 0x80] := by
  have upper : groups ((upperGroups number).map fun group => UInt8.ofNat (group + 0x80)) = upperGroups number := by
    rw [groups, List.map_map]
    refine map_eq_self fun group listed => ?_
    have small := upperGroups_lt listed
    rw [Function.comp_apply, toNat_upper small]
    omega
  rw [encode, groups, List.map_append, ← groups, upper, List.map_singleton, toNat_lowest, Nat.mod_mod]

/-- Groups that lead with zero spell nothing. -/
theorem spelled_dropWhile (groups : List Nat) : spelled 0 (groups.dropWhile (· == 0)) = spelled 0 groups := by
  induction groups with
  | nil => rfl
  | cons group groups ih =>
    by_cases zero : group = 0
    · subst zero
      simpa [spelled] using ih
    · simp [zero]

theorem value_encode (number : Number) : value (encode number) = number.toNat := by
  have bound := toNat_lt number
  rw [value, groups_encode, spelled_concat, upperGroups, spelled_dropWhile]
  simp only [spelled, List.map_cons, List.map_nil, List.foldl_cons, List.foldl_nil]
  omega

theorem read_encode (number : Number) (rest : List UInt8) : read (encode number ++ rest) = .ok number rest :=
  read_ok_iff.mpr ⟨encode number, isForm_encode number, rfl, (value_encode number).symm⟩

/-! ## The shortest form -/

theorem length_encode (number : Number) : (encode number).length = size number := by
  have bound := toNat_lt number
  simp only [encode, upperGroups, size, List.length_append, List.length_map, List.length_singleton, List.map_cons, List.map_nil]
  by_cases one : number.toNat < 0x80
  · have high : number.toNat / 0x200000 % 0x80 = 0 := by omega
    have middle : number.toNat / 0x4000 % 0x80 = 0 := by omega
    have low : number.toNat / 0x80 % 0x80 = 0 := by omega
    simp [high, middle, low, one]
  · by_cases two : number.toNat < 0x4000
    · have high : number.toNat / 0x200000 % 0x80 = 0 := by omega
      have middle : number.toNat / 0x4000 % 0x80 = 0 := by omega
      have low : number.toNat / 0x80 % 0x80 ≠ 0 := by omega
      simp [high, middle, low, one, two]
    · by_cases three : number.toNat < 0x200000
      · have high : number.toNat / 0x200000 % 0x80 = 0 := by omega
        have middle : number.toNat / 0x4000 % 0x80 ≠ 0 := by omega
        simp [high, middle, one, two, three]
      · have high : number.toNat / 0x200000 % 0x80 ≠ 0 := by omega
        simp [high, one, two, three]

theorem upper_eq {byte : UInt8} (high : 0x80 ≤ byte.toNat) : UInt8.ofNat (byte.toNat % 0x80 + 0x80) = byte := by
  have bound := byte.toNat_lt
  rw [← UInt8.toNat_inj, UInt8.toNat_ofNat']
  omega

/-- The groups above the lowest one are those of the upper bytes, with zeros in front. -/
theorem groups_of_form {upper : List UInt8} {last : UInt8} (room : upper.length < 4) (low : last.toNat < 0x80) :
    let number := value (upper ++ [last])
    [number / 0x200000, number / 0x4000, number / 0x80].map (· % 0x80) =
      List.replicate (3 - upper.length) 0 ++ groups upper := by
  match upper, room with
  | [], _ =>
    simp [value, spelled, groups]
    omega
  | [first], _ =>
    simp [value, spelled, groups]
    omega
  | [first, second], _ =>
    simp [value, spelled, groups]
    omega
  | [first, second, third], _ =>
    simp [value, spelled, groups]
    omega

theorem map_groups_upper {upper : List UInt8} (high : ∀ byte ∈ upper, 0x80 ≤ byte.toNat) :
    (groups upper).map (fun group => UInt8.ofNat (group + 0x80)) = upper := by
  rw [groups, List.map_map]
  exact map_eq_self fun byte member => upper_eq (high byte member)

theorem map_dropWhile_upper {upper : List UInt8} (high : ∀ byte ∈ upper, 0x80 ≤ byte.toNat) :
    ((groups upper).dropWhile (· == 0)).map (fun group => UInt8.ofNat (group + 0x80)) = trimmed upper := by
  induction upper with
  | nil => rfl
  | cons byte upper ih =>
    by_cases empty : byte = 0x80
    · subst empty
      exact ih (List.forall_mem_cons.mp high).2
    · have kept : byte.toNat % 0x80 ≠ 0 := by
        intro zero
        have first := high byte List.mem_cons_self
        have bound := byte.toNat_lt
        exact empty (UInt8.toNat_inj.mp (show byte.toNat = 0x80 by omega))
      have all : (groups (byte :: upper)).dropWhile (· == 0) = groups (byte :: upper) :=
        List.dropWhile_cons_of_neg (by simpa using kept)
      rw [all, map_groups_upper high, trimmed, List.dropWhile_cons_of_neg (by simpa using empty)]

/-- The form that is written is any other without the bytes that add nothing. -/
theorem encode_eq_trimmed {form : List UInt8} {number : Number} (isForm : IsForm form)
    (same : number.toNat = value form) : encode number = trimmed form := by
  obtain ⟨upper, last, rfl, room, high, low⟩ := isForm
  have lowest : value (upper ++ [last]) % 0x80 = last.toNat := by
    rw [value, groups, List.map_append, List.map_singleton, spelled_concat]
    omega
  have unpadded (numbers : List Nat) (count : Nat) :
      (List.replicate count 0 ++ numbers).dropWhile (· == 0) = numbers.dropWhile (· == 0) :=
    List.dropWhile_append_of_pos (by simp)
  have kept : last ≠ 0x80 := by
    rintro rfl
    exact absurd low (by decide)
  rw [encode, upperGroups, same, groups_of_form room low, unpadded, map_dropWhile_upper high, lowest, UInt8.ofNat_toNat]
  simp only [trimmed, List.dropWhile_append]
  split
  · rename_i none
    rw [List.isEmpty_iff.mp none]
    simp [kept]
  · rfl

theorem trimmed_encode (number : Number) : trimmed (encode number) = encode number :=
  (encode_eq_trimmed (isForm_encode number) (value_encode number).symm).symm

theorem trimmed_sublist (form : List UInt8) : (trimmed form).Sublist form := List.dropWhile_sublist _

theorem length_trimmed_le (form : List UInt8) : (trimmed form).length ≤ form.length := (trimmed_sublist form).length_le

/-- There is nothing to leave out of a form unless it leads with a byte that adds nothing. -/
theorem trimmed_eq_self_iff {form : List UInt8} : trimmed form = form ↔ form.head? ≠ some 0x80 := by
  cases form with
  | nil => simp [trimmed]
  | cons first rest =>
    rw [List.head?_cons, Ne, Option.some.injEq]
    constructor
    · rintro same rfl
      have shorter := length_trimmed_le rest
      have length : (trimmed rest).length = rest.length + 1 := congrArg List.length same
      omega
    · intro kept
      exact List.dropWhile_cons_of_neg (by simpa using kept)

/-- Without the bytes that add nothing a form spells the same number, and no form of it is shorter. -/
theorem trimmed_shortest {form other : List UInt8} (isForm : IsForm form) (isOther : IsForm other)
    (same : value other = value form) :
    IsForm (trimmed form) ∧ value (trimmed form) = value form ∧ (trimmed form).length ≤ other.length := by
  let number : Number := ⟨value form, value_lt isForm⟩
  have written : encode number = trimmed form := encode_eq_trimmed isForm rfl
  have writtenOther : encode number = trimmed other := encode_eq_trimmed isOther same.symm
  refine ⟨written ▸ isForm_encode number, written ▸ value_encode number, ?_⟩
  rw [← written, writtenOther]
  exact length_trimmed_le other

/-- A number in its shortest form, with whatever follows it. -/
def shortest (bytes : List UInt8) : List UInt8 :=
  match read bytes with
  | .ok number rest => encode number ++ rest
  | .error _ _ => bytes

theorem shortest_form {form : List UInt8} (isForm : IsForm form) (rest : List UInt8) :
    shortest (form ++ rest) = trimmed form ++ rest := by
  have read : read (form ++ rest) = .ok ⟨value form, value_lt isForm⟩ rest := read_ok_iff.mpr ⟨form, isForm, rfl, rfl⟩
  rw [shortest, read]
  exact congrArg (· ++ rest) (encode_eq_trimmed isForm rfl)

theorem block_ok_iff {payload bytes : List UInt8} :
    block payload = .ok bytes ↔ ∃ length : Number, length.toNat = payload.length ∧ bytes = encode length ++ payload := by
  rw [block]
  cases found : Narrow.ofNat? 28 payload.length with
  | none =>
    simp only [reduceCtorEq, false_iff, not_exists, not_and]
    intro length same
    rw [← Narrow.ofNat?_eq_some_iff, found] at same
    cases same
  | some length =>
    rw [Narrow.ofNat?_eq_some_iff] at found
    constructor
    · intro made
      cases made
      exact ⟨length, found, rfl⟩
    · rintro ⟨other, same, rfl⟩
      rw [Narrow.ext (found.trans same.symm)]

theorem exists_block_iff {payload : List UInt8} : (∃ bytes, block payload = .ok bytes) ↔ payload.length < 0x10000000 := by
  simp only [block_ok_iff]
  constructor
  · rintro ⟨_, length, same, _⟩
    exact same ▸ length.toNat_lt
  · exact fun short => ⟨_, ⟨payload.length, short⟩, rfl, rfl⟩

theorem readBlock_ok_iff {bytes payload rest : List UInt8} :
    readBlock bytes = .ok payload rest ↔
      ∃ length : Number, length.toNat = payload.length ∧ read bytes = .ok length (payload ++ rest) := by
  simp only [readBlock, step_bind_ok_iff, Decode.within_ok_iff, Decode.take_ok_iff]
  constructor
  · rintro ⟨length, _, head, same, rfl⟩
    exact ⟨length, same.symm, head⟩
  · rintro ⟨length, same, head⟩
    exact ⟨length, _, head, same.symm, rfl⟩

/-- A block that was written is read back. -/
theorem readBlock_block {payload bytes : List UInt8} (done : block payload = .ok bytes) (rest : List UInt8) :
    readBlock (bytes ++ rest) = .ok payload rest := by
  obtain ⟨length, same, rfl⟩ := block_ok_iff.mp done
  exact readBlock_ok_iff.mpr ⟨length, same, by rw [List.append_assoc]; exact read_encode length _⟩

/-- A block is read exactly where a form of its length is in front, and then as many bytes. -/
theorem readBlock_form_iff {bytes payload rest : List UInt8} :
    readBlock bytes = .ok payload rest ↔
      ∃ form, IsForm form ∧ value form = payload.length ∧ bytes = form ++ payload ++ rest := by
  simp only [readBlock_ok_iff, read_ok_iff, List.append_assoc]
  constructor
  · rintro ⟨length, same, form, isForm, whole, spelled⟩
    exact ⟨form, isForm, spelled.symm.trans same, whole⟩
  · rintro ⟨form, isForm, same, whole⟩
    exact ⟨⟨value form, value_lt isForm⟩, same, form, isForm, whole, rfl⟩

/-- A block whose length is read from any form of it is written with the shortest. -/
theorem block_of_form {form payload : List UInt8} (isForm : IsForm form) (same : value form = payload.length) :
    block payload = .ok (trimmed form ++ payload) := by
  have written : encode ⟨value form, value_lt isForm⟩ = trimmed form := encode_eq_trimmed isForm rfl
  exact block_ok_iff.mpr ⟨⟨value form, value_lt isForm⟩, same, by rw [written]⟩

end Vlq

end MidiFile
