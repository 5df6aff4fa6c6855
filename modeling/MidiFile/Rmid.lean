import MidiFile.Bytes.Decode

/-! # Files in a wrapper

An RMID file holds a MIDI file in a RIFF container: a main chunk whose content starts with the
form `RMID` and goes on with chunks, one of which has the name `data`. Lengths have their least
significant byte first, and a content of odd length is followed by one more byte. A content that
is cut short by the end of the bytes around it is taken as far as it goes.
-/

namespace MidiFile.Rmid

/-- The name of the main chunk, `RIFF`. -/
def mainName : List UInt8 := [0x52, 0x49, 0x46, 0x46]

/-- The form of a container that holds a MIDI file, `RMID`. -/
def form : List UInt8 := [0x52, 0x4D, 0x49, 0x44]

/-- The name of the chunk that holds the file, `data`. -/
def dataName : List UInt8 := [0x64, 0x61, 0x74, 0x61]

structure Part where
  name : List UInt8
  content : List UInt8
deriving DecidableEq, Repr

/-- The first chunk of the bytes and all behind it. There is none in fewer than eight bytes. -/
def part? (bytes : List UInt8) : Option (Part × List UInt8) :=
  if (bytes.take 8).length < 8 then none
  else
    let length := Bytes.littleEndian ((bytes.drop 4).take 4)
    some (⟨bytes.take 4, (bytes.drop 8).take length⟩, bytes.drop (8 + length + length % 2))

theorem length_part? {bytes rest : List UInt8} {part : Part} (found : part? bytes = some (part, rest)) :
    rest.length < bytes.length := by
  unfold part? at found
  split at found
  · simp at found
  · rename_i enough
    simp only [Option.some.injEq, Prod.mk.injEq] at found
    rw [List.length_take] at enough
    rw [← found.2, List.length_drop]
    omega

/-- All chunks of the bytes behind those already found, which come in reverse order. -/
def partsFrom (before : List Part) (bytes : List UInt8) : List Part :=
  match found : part? bytes with
  | none => before.reverse
  | some (part, rest) =>
    have : rest.length < bytes.length := length_part? found
    partsFrom (part :: before) rest
termination_by bytes.length

def parts (bytes : List UInt8) : List Part := partsFrom [] bytes

def isWrapped (bytes : List UInt8) : Bool := bytes.take 4 == mainName

/-- The MIDI file in a container. -/
def embedded (bytes : List UInt8) : Except Fault (List UInt8) :=
  match part? bytes with
  | none => .error (.truncated .wrapper)
  | some (main, _) => do
    let given ← Fault.guard .wrapperForm ((Decode.take 4).run main.content)
    Fault.ensure (given == form) (.unsupported .wrapperForm)
    match (parts (main.content.drop 4)).find? (·.name == dataName) with
    | some part => return part.content
    | none => throw (.malformed .embeddedFileMissing)

/-- The MIDI file itself, out of its container if it is in one. -/
def unwrap (bytes : List UInt8) : Except Fault (List UInt8) :=
  if isWrapped bytes then Fault.guard .wrapper (embedded bytes) else .ok bytes

end MidiFile.Rmid
