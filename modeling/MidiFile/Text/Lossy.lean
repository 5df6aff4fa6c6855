/-! # Text out of bytes that may not be text

Bytes that are well-formed UTF-8 are the text they spell. In any others, each longest start of
a character that goes no further is replaced by one replacement character, and so is each byte
that starts none; the characters between them are kept.
-/

namespace MidiFile.Text

/-- The character that stands for bytes that spell none. -/
def replacement : Char := '\uFFFD'

/-- Whether a byte lies in a closed range. -/
def between (low high : Nat) (byte : UInt8) : Bool := low ≤ byte.toNat && byte.toNat ≤ high

/-- What may follow the lead byte of a character: one range for each byte, in order. Only the
    first of them depends on more than the length, so that no character has a second spelling,
    none is half of a pair and none lies beyond the last. -/
def following (lead : UInt8) : Option (List (Nat × Nat)) :=
  let any := (0x80, 0xBF)
  if between 0x00 0x7F lead then some []
  else if between 0xC2 0xDF lead then some [any]
  else if between 0xE0 0xEF lead then
    let first := if lead = 0xE0 then (0xA0, 0xBF) else if lead = 0xED then (0x80, 0x9F) else any
    some [first, any]
  else if between 0xF0 0xF4 lead then
    let first := if lead = 0xF0 then (0x90, 0xBF) else if lead = 0xF4 then (0x80, 0x8F) else any
    some [first, any, any]
  else none

/-- How many of the bytes lie in their ranges before the first that does not. -/
def fitting : List (Nat × Nat) → List UInt8 → Nat
  | (low, high) :: ranges, byte :: bytes => if between low high byte then fitting ranges bytes + 1 else 0
  | _, _ => 0

/-- The character spelled by a lead byte and all that follows it. -/
def spelled (lead : UInt8) (rest : List UInt8) : Char :=
  let ownBits := match rest.length with
    | 0 => lead.toNat
    | 1 => lead.toNat % 32
    | 2 => lead.toNat % 16
    | _ => lead.toNat % 8
  Char.ofNat (rest.foldl (fun code byte => code * 64 + byte.toNat % 64) ownBits)

/-- The first character, or what replaces it, and how many bytes after the lead byte it takes. -/
def firstCharacter (lead : UInt8) (rest : List UInt8) : Char × Nat :=
  match following lead with
  | none => (replacement, 0)
  | some ranges =>
    let count := fitting ranges rest
    (if count = ranges.length then spelled lead (rest.take count) else replacement, count)

/-- The characters of the bytes behind those already read, which come in reverse order. -/
def characters (read : List Char) : List UInt8 → List Char
  | [] => read.reverse
  | lead :: rest =>
    let (character, count) := firstCharacter lead rest
    characters (character :: read) (rest.drop count)
termination_by bytes => bytes.length
decreasing_by simp only [List.length_drop, List.length_cons]; omega

/-- The text that the bytes spell, with replacement characters where they spell none. -/
def lossy (bytes : List UInt8) : String :=
  match String.fromUTF8? bytes.toByteArray with
  | some text => text
  | none => String.ofList (characters [] bytes)

end MidiFile.Text
