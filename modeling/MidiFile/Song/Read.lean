import MidiFile.Chunk
import MidiFile.Rmid
import MidiFile.Song
import MidiFile.Track.Body

/-! # Reading a song out of a file

Reading goes in steps, each on the result of the one before: the file out of its wrapper, its
chunks, the header with the bodies of the tracks that it counts (`Outline`), the events of each
body, and the song that they make. Reading either ends with a whole song or with a fault; lesser
faults become warnings of the song, unless the reader is strict.
-/

namespace MidiFile

/-- The header of a file, the bodies of the tracks that it counts, and what was left out. -/
structure Outline where
  header : Header
  bodies : List (List UInt8)
  warnings : List Warning
deriving DecidableEq, Repr

namespace Outline

variable {S : Type}

/-- Bytes behind the last chunk are left out, unless tracks are still missing. -/
def readEnding (missing : Bool) : Ending → Report S (List Warning)
  | .clean => return []
  | .broken fault remaining =>
    if missing then Report.fail (fault.within .nextTrack)
    else do
      Report.note [.bytesIgnored remaining]
      return [.bytesIgnored remaining]

/-- Tracks beyond those that the header counts are left out. -/
def readExtra (mode : Mode) (extra : Nat) : Report S (List Warning) :=
  if extra = 0 then return []
  else
    match mode with
    | .strict => Report.fail (.malformed .tracksBeyondCount)
    | .lenient => do
      Report.note [.tracksIgnored extra]
      return [.tracksIgnored extra]

/-- The outline that a header and the chunks behind it make. -/
def ofRest (mode : Mode) (header : Header) (trackCount : Nat) (rest : List Chunk) (ending : Ending) :
    Report S Outline := do
  Report.ensure (header.format != .single || trackCount == 1) (.malformed .singleTrackCount)
  let first := rest.takeWhile fun chunk => !chunk.isHeader
  Report.note (first.filterMap fun chunk => chunk.otherName?.map .chunkSkipped)
  Report.ensure (!rest.any Chunk.isHeader) (.malformed .headerRepeated)
  let bodies := rest.filterMap Chunk.body?
  let trailing ← readEnding (bodies.length < trackCount) ending
  Report.ensure (trackCount ≤ bodies.length) (.truncated .tracks)
  let extra ← readExtra mode (bodies.length - trackCount)
  return ⟨header, bodies.take trackCount, trailing ++ extra⟩

/-- The outline that chunks make. The first of them is the header. -/
def ofChunks (mode : Mode) (found : Chunks) : Report S Outline :=
  match found.chunks, found.ending with
  | [], .clean => Report.fail (.truncated .header)
  | [], .broken fault _ => Report.fail (fault.within .header)
  | .header header trackCount :: rest, ending => ofRest mode header trackCount rest ending
  | _ :: _, _ => Report.fail (.malformed .headerNotFirst)

end Outline

namespace Song

variable {S : Type} [Clock S] [Workers]

def readBody (mode : Mode) (bytes : List UInt8) : Report S (Body S) := do
  let body ← Report.ofExcept (Body.read mode bytes)
  Report.note (if body.ignored = 0 then [] else [.eventsIgnored body.ignored])
  return body

/-- Read the bodies of the tracks of a file of the given size. -/
def readBodies (mode : Mode) (size : Nat) (bodies : List (List UInt8)) : Report S (List (Body S)) :=
  let reports := bodies.map (readBody mode)
  ⟨Workers.collect size (reports.map Report.result), (Report.gather reports).records⟩

def endsAdded (bodies : List (Body S)) : List Nat :=
  (bodies.zipIdx.filter fun (body, _) => body.endAdded).map Prod.snd

/-- The song of the given tracks. What their events set is taken over track by track, so that at
    one tick the last track counts. -/
def ofTracks (identity : Nat) (header : Header) (warnings : List Warning) (tracks : List (Track S)) : Song S :=
  let tracks := tracks.mapIdx fun number track => track.attach (some number)
  let tempoMap := (TempoMap.empty identity).registerAll header.division (tracks.flatMap (·.events))
  rewind (refreshFrom 0 ⟨header, tracks, tempoMap, warnings, none⟩)

/-- Read a song. The identity is that of its tempo map. -/
def read (mode : Mode) (identity : Nat) (bytes : List UInt8) : Report S (Song S) := do
  let bytes ← Report.ofExcept (Rmid.unwrap bytes)
  let outline ← Outline.ofChunks mode (Chunks.scan bytes)
  let bodies ← readBodies mode bytes.length outline.bodies
  let ends := endsAdded bodies
  Report.note (ends.map .endMissing)
  let song := ofTracks identity outline.header (outline.warnings ++ ends.map .endAdded) (bodies.map Body.track)
  Report.note (song.tempoMap.registrations song.events)
  let entries := song.tempoMap.entries.length
  Report.note [.opened song.format.code song.tracks.length entries bytes.length]
  return song

end Song

end MidiFile
