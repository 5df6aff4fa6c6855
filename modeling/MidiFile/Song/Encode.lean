import MidiFile.Chunk
import MidiFile.Song.Edit

/-! # Songs as files

A song is stored as a header chunk and a chunk for each track. Tracks without an end are given
one first, and what was stored is remembered: the size of each track, with all cursors back at
the start.
-/

namespace MidiFile.Song

variable {S : Type} [Clock S]

/-- Give a track an end, if it has none. -/
def endTrack (number : Nat) : Edit S Unit := fun song =>
  if song.tracks[number]?.all Track.isEnded then .ok () song
  else
    match addEventAfter number .endOfTrack 0 song with
    | .error fault song => .error fault song
    | .ok _ song => .ok () song

def endTracks : Edit S Unit := fun song => (List.range song.tracks.length).forM endTrack song

/-- The bytes of a file with the given header and tracks. -/
def fileOf (header : Header) (bodies : List (List UInt8)) : List UInt8 :=
  Chunk.encode Chunk.headerName (header.encode bodies.length) ++ (bodies.map (Chunk.encode Chunk.trackName)).flatten

/-- The bodies of the tracks. How much there is to do is guessed from the count of events. -/
def encodeBodies [Workers] (tracks : List (Track S)) : Except Fault (List (List UInt8)) :=
  Workers.collect ((tracks.map fun track => track.events.length * 3).foldl (· + ·) 0) (tracks.map Track.encode)

/-- Store the song. A header has two bytes for the count of tracks, and a file of the
    single-track format has exactly one. -/
def encode [Workers] : Edit S (List UInt8) := fun song =>
  if song.format = .single && song.tracks.length != 1 then .error (.misuse .singleTrackCount) song
  else if 0x10000 ≤ song.tracks.length then .error (.misuse .trackCountRange) song
  else
    match endTracks song with
    | .error fault song => .error fault song
    | .ok _ song =>
      match encodeBodies song.tracks with
      | .error fault => .error fault song
      | .ok bodies =>
        let tracks := List.zipWith (fun track body => { track with bodySize := body.length }) song.tracks bodies
        .ok (fileOf song.header bodies) (rewind { song with tracks })

end MidiFile.Song
