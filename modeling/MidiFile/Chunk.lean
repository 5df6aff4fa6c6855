import MidiFile.Header

/-! # Chunks

A file is a row of chunks, each with a name of four bytes, its length and its content. Only
headers and tracks have a meaning here; chunks of other names are stepped over. `Chunks.scan`
takes a whole file apart, up to its end or to the first bytes that are no chunk, and leaves it
to others to say what the chunks make.
-/

namespace MidiFile

/-- A chunk, with what is in it as far as that matters. -/
inductive Chunk
  | header (header : Header) (trackCount : Nat)
  | track (body : List UInt8)
  | other (name : List UInt8)
deriving DecidableEq, Repr

namespace Chunk

/-- The name of header chunks, `MThd`. -/
def headerName : List UInt8 := [0x4D, 0x54, 0x68, 0x64]

/-- The name of track chunks, `MTrk`. -/
def trackName : List UInt8 := [0x4D, 0x54, 0x72, 0x6B]

/-- A chunk as it is stored. -/
def encode (name content : List UInt8) : List UInt8 := name ++ Bytes.word 4 content.length ++ content

def isHeader : Chunk → Bool
  | header _ _ => true
  | _ => false

/-- The content of a track chunk. -/
def body? : Chunk → Option (List UInt8)
  | track body => some body
  | _ => none

/-- The name of a chunk that is stepped over. -/
def otherName? : Chunk → Option (List UInt8)
  | other name => some name
  | _ => none

/-- Read the content of a chunk of the given name and length. -/
def readContent (name : List UInt8) (length : Nat) : Decode Chunk :=
  if name = headerName then do
    Decode.ensure (length == 6) (.malformed .headerLength)
    let content ← Decode.within .headerChunk (Decode.take 6)
    let (head, trackCount) ← Decode.ofExcept (Header.read.run content)
    return header head trackCount
  else if name = trackName then do
    return track (← Decode.within .trackChunk (Decode.take length))
  else do
    let _ ← Decode.within .otherChunk (Decode.take length)
    return other name

def read : Decode Chunk := do
  let name ← Decode.within .chunkName (Decode.take 4)
  let length ← Decode.within .chunkLength (Decode.word 4)
  readContent name length

theorem takes_readContent (name : List UInt8) (length : Nat) : (readContent name length).Takes := by
  unfold readContent
  split
  · exact Decode.takes_bind (Decode.takes_ensure _ _) fun _ =>
      Decode.takes_bind (Decode.takes_within (Decode.takes_take _)) fun _ =>
        Decode.takes_bind (Decode.takes_ofExcept _) fun _ => Decode.takes_pure _
  · split
    · exact Decode.takes_bind (Decode.takes_within (Decode.takes_take _)) fun _ => Decode.takes_pure _
    · exact Decode.takes_bind (Decode.takes_within (Decode.takes_take _)) fun _ => Decode.takes_pure _

theorem shortens_read : read.Shortens :=
  Decode.shortens_bind (Decode.shortens_within (Decode.shortens_take (by decide))) fun name =>
    Decode.takes_bind (Decode.takes_within (Decode.takes_word 4)) fun length => takes_readContent name length

end Chunk

/-- How a row of chunks ends: with the bytes, or with a count of bytes that are no chunk. -/
inductive Ending
  | clean
  | broken (fault : Fault) (remaining : Nat)
deriving DecidableEq, Repr

/-- The chunks of a file in order, and how they end. -/
structure Chunks where
  chunks : List Chunk
  ending : Ending
deriving DecidableEq, Repr

namespace Chunks

/-- Read on behind the chunks already read, which come in reverse order. -/
def scanFrom (before : List Chunk) (bytes : List UInt8) : Chunks :=
  if bytes.isEmpty then ⟨before.reverse, .clean⟩
  else
    match found : Chunk.read bytes with
    | .error fault _ => ⟨before.reverse, .broken fault bytes.length⟩
    | .ok chunk rest =>
      have : rest.length < bytes.length := Chunk.shortens_read _ _ _ found
      scanFrom (chunk :: before) rest
termination_by bytes.length

def scan (bytes : List UInt8) : Chunks := scanFrom [] bytes

end Chunks

end MidiFile
