import MidiFile.Proofs.Vlq

/-! # The codec of numbers of variable length

A number can be decoded exactly where one of the first four bytes has its top bit clear
(`exists_decode_iff`); the first such byte is its last (`length_form`). Numbers up to the greatest with a
form are written in as many bytes as `size?` says and decoded again, others leave what was written as it
was (`codec_exact`). What is decoded takes as many bytes as it is written in, or more where it leads with
bytes that are nothing but the top bit.
-/

namespace MidiFile.Vlq

/-- A number is decoded where one of its forms is in front, and it takes the bytes of that form. -/
theorem decode_ok_iff {bytes : List UInt8} {number : Number} {used : Nat} :
    decode bytes = .ok (number, used) ↔
      ∃ form rest, IsForm form ∧ bytes = form ++ rest ∧ number.toNat = value form ∧ used = form.length := by
  constructor
  · intro done
    rw [decode] at done
    cases found : read bytes with
    | error fault rest => simp [found] at done
    | ok other rest =>
      simp only [found, Except.ok.injEq, Prod.mk.injEq] at done
      obtain ⟨rfl, rfl⟩ := done
      obtain ⟨form, isForm, rfl, same⟩ := read_ok_iff.mp found
      exact ⟨form, rest, isForm, rfl, same, by rw [List.length_append, Nat.add_sub_cancel]⟩
  · rintro ⟨form, rest, isForm, rfl, same, rfl⟩
    simp only [decode, read_ok_iff.mpr ⟨form, isForm, rfl, same⟩, List.length_append, Nat.add_sub_cancel]

theorem decode_encode (number : Number) (suffix : List UInt8) :
    decode (encode number ++ suffix) = .ok (number, (encode number).length) :=
  decode_ok_iff.mpr ⟨_, suffix, isForm_encode number, rfl, (value_encode number).symm, rfl⟩

/-- The first byte with its top bit clear is the last one of a form. -/
theorem length_form {form : List UInt8} (isForm : IsForm form) (rest : List UInt8) :
    form.length = (form ++ rest).findIdx (fun byte => byte.toNat < 0x80) + 1 := by
  obtain ⟨upper, last, rfl, _, high, low⟩ := isForm
  have none : upper.findIdx (fun byte => byte.toNat < 0x80) = upper.length :=
    List.findIdx_eq_length_of_false fun byte member => decide_eq_false (Nat.not_lt.mpr (high byte member))
  rw [List.append_assoc, List.findIdx_append, none, if_neg (Nat.lt_irrefl _), List.singleton_append, List.findIdx_cons,
    decide_eq_true low, List.length_append, List.length_singleton, cond_true, Nat.zero_add]

/-- A number can be decoded exactly where one of the first four bytes has its top bit clear. -/
theorem exists_decode_iff {bytes : List UInt8} :
    (∃ found, decode bytes = .ok found) ↔ ∃ byte ∈ bytes.take 4, byte.toNat < 0x80 := by
  constructor
  · rintro ⟨⟨number, used⟩, done⟩
    obtain ⟨form, rest, ⟨upper, last, rfl, room, _, low⟩, rfl, _⟩ := decode_ok_iff.mp done
    have inFront : upper ++ [last] <+: (upper ++ [last] ++ rest).take 4 := by
      rw [List.prefix_take_iff, List.length_append, List.length_singleton]
      exact ⟨List.prefix_append _ _, room⟩
    exact ⟨last, inFront.subset (List.mem_append_right upper List.mem_cons_self), low⟩
  · rintro ⟨byte, inFront, low⟩
    have some : ((bytes.take 4).find? (fun byte => byte.toNat < 0x80)).isSome :=
      List.find?_isSome.mpr ⟨byte, inFront, decide_eq_true low⟩
    obtain ⟨last, found⟩ := Option.isSome_iff_exists.mp some
    obtain ⟨ends, upper, behind, split, high⟩ := List.find?_eq_some_iff_append.mp found
    have room : upper.length < 4 := by
      have four := congrArg List.length split
      simp only [List.length_take, List.length_append, List.length_cons] at four
      omega
    have isForm : IsForm (upper ++ [last]) :=
      ⟨upper, last, rfl, room, fun byte member => by simpa using high byte member, of_decide_eq_true ends⟩
    have whole : bytes = (upper ++ [last]) ++ (behind ++ bytes.drop 4) := by
      rw [← List.append_assoc, List.append_assoc upper, List.singleton_append, ← split, List.take_append_drop]
    exact ⟨(⟨value (upper ++ [last]), value_lt isForm⟩, _), decode_ok_iff.mpr ⟨_, _, isForm, whole, rfl, rfl⟩⟩

/-- What was decoded is written in no more bytes than it took, and in the same ones unless they lead with
    a byte that adds nothing. -/
theorem encode_decoded {bytes : List UInt8} {number : Number} {used : Nat} (done : decode bytes = .ok (number, used)) :
    used = bytes.findIdx (fun byte => byte.toNat < 0x80) + 1 ∧ used ≤ bytes.length ∧ (encode number).length ≤ used ∧
      (encode number = bytes.take used ↔ bytes.head? ≠ some 0x80) := by
  obtain ⟨form, rest, isForm, rfl, same, rfl⟩ := decode_ok_iff.mp done
  have first : (form ++ rest).head? = form.head? := by
    cases form with
    | nil => exact absurd isForm.length_pos (Nat.lt_irrefl 0)
    | cons byte form => rfl
  rw [encode_eq_trimmed isForm same, List.take_left, first]
  exact ⟨length_form isForm rest, by rw [List.length_append]; exact Nat.le_add_right _ _, length_trimmed_le form,
    trimmed_eq_self_iff⟩

theorem length_encode_le (number : Number) : (encode number).length ≤ 4 := by
  obtain ⟨upper, last, whole, room, _⟩ := isForm_encode number
  rw [whole, List.length_append, List.length_singleton]
  exact room

theorem write_encode (number : Number) (written : List UInt8) :
    write number.toNat written = .ok () (written ++ encode number) := by
  rw [write, Narrow.ofNat?_toNat]

theorem size?_encode (number : Number) : size? number.toNat = some (encode number).length := by
  rw [size?, Narrow.ofNat?_toNat, length_encode]
  rfl

theorem ofNat?_eq_none {value : Nat} (large : largest < value) : Narrow.ofNat? 28 value = none :=
  dif_neg fun fits => absurd large (Nat.not_lt.mpr (Nat.le_sub_one_of_lt fits))

/-- A number up to the greatest with a form is put behind what was written, in as many bytes as `size?`
    says and no more than four, and is decoded again whatever follows it; a greater one is refused and
    nothing is written. A number can be decoded exactly where one of the first four bytes has its top bit
    clear. It takes the bytes up to the first of these, which are no fewer than it is written in, and the
    same unless the first of them is nothing but the top bit. -/
theorem codec_exact :
    (∀ value ≤ largest, ∃ number : Number, number.toNat = value ∧ size? value = some (encode number).length ∧
      (encode number).length ≤ 4 ∧ (∀ written, write value written = .ok () (written ++ encode number)) ∧
      ∀ suffix, decode (encode number ++ suffix) = .ok (number, (encode number).length)) ∧
    (∀ value, largest < value →
      size? value = none ∧ ∀ written, write value written = .error (.misuse .numberRange) written) ∧
    (∀ bytes : List UInt8, (∃ found, decode bytes = .ok found) ↔ ∃ byte ∈ bytes.take 4, byte.toNat < 0x80) ∧
    ∀ (bytes : List UInt8) (number : Number) (used : Nat), decode bytes = .ok (number, used) →
      used = bytes.findIdx (fun byte => byte.toNat < 0x80) + 1 ∧ used ≤ bytes.length ∧
        (encode number).length ≤ used ∧ (encode number = bytes.take used ↔ bytes.head? ≠ some 0x80) := by
  refine ⟨fun value fits => ?_, fun value large => ?_, fun _ => exists_decode_iff, fun _ _ _ => encode_decoded⟩
  · have small : value < Nat.pow 2 28 := Nat.lt_of_le_of_lt fits (by decide)
    let number : Number := ⟨value, small⟩
    exact ⟨number, rfl, size?_encode number, length_encode_le number, write_encode number, decode_encode number⟩
  · have none := ofNat?_eq_none large
    exact ⟨by rw [size?, none]; rfl, fun written => by rw [write, none]⟩

/-- Three bytes that lead with nothing but the top bit spell a number that is written in two. -/
theorem codec_exact_padded :
    decode [0x80, 0x81, 0x00, 0x2A] = .ok (⟨0x80, by decide⟩, 3) ∧ (encode ⟨0x80, by decide⟩).length ≤ 3 ∧
      encode ⟨0x80, by decide⟩ ≠ [0x80, 0x81, 0x00] := by
  have padded := codec_exact.2.2.2 [0x80, 0x81, 0x00, 0x2A] ⟨0x80, by decide⟩ 3 rfl
  exact ⟨rfl, padded.2.2.1, fun same => padded.2.2.2.mp same rfl⟩

end MidiFile.Vlq
