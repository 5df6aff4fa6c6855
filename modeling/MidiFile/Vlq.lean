import MidiFile.Narrow
import MidiFile.Bytes.Decode

/-! # Numbers of variable length

Delta times and lengths are written in groups of seven bits, the most significant group first;
every byte but the last has its top bit set. Four groups are the most that is allowed, so a
number has at most twenty-eight bits. Reading accepts leading zero groups, writing makes none.
-/

namespace MidiFile.Vlq

/-- The numbers that four groups have room for. -/
abbrev Number := Narrow 28

def largest : Nat := (Narrow.largest 28).toNat

/-- Read the groups that are left, given what the groups before them spell. -/
def readGroups : Nat → Nat → Decode Nat
  | 0, _ => Decode.fail (.malformed .numberTooLong)
  | left + 1, before => fun bytes =>
    match bytes with
    | [] => .error (.malformed .numberUnfinished) []
    | group :: rest =>
      let number := before * 0x80 + group.toNat % 0x80
      if group.toNat < 0x80 then .ok number rest else readGroups left number rest

def read : Decode Number := do
  return Narrow.truncate 28 (← readGroups 4 0)

/-- The number that the bytes start with, and how many of them it takes. -/
def decode (bytes : List UInt8) : Except Fault (Number × Nat) :=
  match read bytes with
  | .ok number rest => .ok (number, bytes.length - rest.length)
  | .error fault _ => .error fault

/-- Read a length and as many bytes as it says. -/
def readBlock : Decode (List UInt8) := do
  let length ← Decode.within .blockLength read
  Decode.within .block (Decode.take length.toNat)

theorem takes_readGroups (left before : Nat) : (readGroups left before).Takes := by
  induction left generalizing before with
  | zero => exact Decode.takes_fail _
  | succ left ih =>
    intro bytes
    cases bytes with
    | nil => exact List.suffix_refl []
    | cons group rest =>
      by_cases last : group.toNat < 0x80
      · simp [Decode.left, readGroups, last]
      · have later := (ih (before * 0x80 + group.toNat % 0x80) rest).trans (List.suffix_cons group rest)
        simpa [Decode.left, readGroups, last] using later

theorem shortens_readGroups (left before : Nat) : (readGroups left before).Shortens := by
  intro bytes value rest done
  cases left with
  | zero => simp [readGroups, Decode.fail] at done
  | succ left =>
    cases bytes with
    | nil => simp [readGroups] at done
    | cons group tail =>
      by_cases last : group.toNat < 0x80
      · simp only [readGroups, last, ite_true, EStateM.Result.ok.injEq] at done
        simp [← done.2]
      · simp only [readGroups, last, ite_false] at done
        have shorter := (takes_readGroups _ _).length_le done
        simp only [List.length_cons]
        omega

theorem takes_read : read.Takes := Decode.takes_bind (takes_readGroups 4 0) fun _ => Decode.takes_pure _

theorem shortens_read : read.Shortens := Decode.shortens_bind (shortens_readGroups 4 0) fun _ => Decode.takes_pure _

theorem takes_readBlock : readBlock.Takes :=
  Decode.takes_bind (Decode.takes_within takes_read) fun _ => Decode.takes_within (Decode.takes_take _)

/-- The groups above the lowest one, without those that would lead with zero. -/
def upperGroups (number : Number) : List Nat :=
  ([number.toNat / 0x200000, number.toNat / 0x4000, number.toNat / 0x80].map (· % 0x80)).dropWhile (· == 0)

/-- The shortest form of a number. -/
def encode (number : Number) : List UInt8 :=
  (upperGroups number).map (fun group => UInt8.ofNat (group + 0x80)) ++ [UInt8.ofNat (number.toNat % 0x80)]

/-- How many bytes the shortest form takes. -/
def size (number : Number) : Nat :=
  if number.toNat < 0x80 then 1
  else if number.toNat < 0x4000 then 2
  else if number.toNat < 0x200000 then 3
  else 4

/-- How many bytes the shortest form takes, for a number that has one. -/
def size? (value : Nat) : Option Nat := (Narrow.ofNat? 28 value).map size

/-- Put a number behind the bytes already written; they stay as they are when it has no form. -/
def write (value : Nat) : EStateM Fault (List UInt8) Unit := fun written =>
  match Narrow.ofNat? 28 value with
  | some number => .ok () (written ++ encode number)
  | none => .error (.misuse .numberRange) written

/-- The bytes with their count in front. -/
def block (bytes : List UInt8) : Except Fault (List UInt8) :=
  match Narrow.ofNat? 28 bytes.length with
  | some length => .ok (encode length ++ bytes)
  | none => .error (.misuse .blockLength)

end MidiFile.Vlq
