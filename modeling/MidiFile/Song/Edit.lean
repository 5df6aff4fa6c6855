import MidiFile.Song
import MidiFile.Track.Edit

/-! # Changing a song

Each change is refused or made as a whole. The kinds of change with a result of their own are
`Edit`s, which hand on the song also when they refuse it, so that nothing hides what a refused
change leaves behind. A tempo or a time signature that came with an event stays in the tempo map
when the event goes.
-/

namespace MidiFile

/-- A change of a song that can be refused. -/
abbrev Edit (S : Type) := EStateM Fault (Song S)

namespace Song

variable {S : Type} [Clock S]

/-- Say how the tracks belong together. One track is all that the single-track format has. -/
def setFormat (format : Format) : Edit S Unit := fun song =>
  if format = .single && 1 < song.tracks.length then .error (.misuse .singleTrackFormat) song
  else .ok () { song with header := { song.header with format := format } }

def withDivision (division : Division) (song : Song S) : Song S :=
  refresh { song with header := { song.header with division := division } }

def setTicksPerQuarter (ticks : Nat) : Edit S Unit := fun song =>
  match Narrow.ofNat? 15 ticks with
  | none => .error (.misuse .ticksPerQuarterRange) song
  | some ticks =>
    if ticks.toNat = 0 then .error (.misuse .ticksPerQuarterRange) song
    else .ok () (song.withDivision (.metrical ticks))

def setTimecode (rate : FrameRate) (resolution : UInt8) : Edit S Unit := fun song =>
  if resolution = 0 then .error (.misuse .zeroResolution) song
  else .ok () (song.withDivision (.timecode rate resolution))

/-- Add a track behind the others. Its ticks are derived from its delta times, and what its events
    set goes into the tempo map. The result is its number. -/
def addTrack (track : Track S) : Edit S Nat := fun song =>
  let number := song.tracks.length
  match (track.attach (some number)).retime with
  | .error fault => .error fault song
  | .ok track =>
    let tracks := song.tracks ++ [track.rewind]
    let header := { song.header with format := song.format.forTracks tracks.length }
    let tempoMap := song.tempoMap.registerAll song.division track.events
    .ok number (refreshFrom (track.events.head?.elim 0 (·.tick)) { song with header, tracks, tempoMap })

/-- Take a track out. Those behind it move up; it keeps its cursor and the numbers of its events. -/
def removeTrack (number : Nat) : Edit S (Track S) := fun song =>
  match song.tracks[number]? with
  | none => .error (.misuse .trackRange) song
  | some track =>
    let removed := track.attach none
    let removed := { removed with events := removed.events.map fun event => { event with cached? := none } }
    let tracks := (song.tracks.eraseIdx number).mapIdx fun number track => track.attach (some number)
    .ok removed (recount { song with tracks })

/-- Add a message to a track at a tick. The result is the number of its event. -/
def addEvent (track : Nat) (message : Message) (tick : Nat) : Edit S Nat := fun song =>
  match song.tracks[track]? with
  | none => .error (.misuse .trackRange) song
  | some old =>
    if greatestTick < tick then .error (.misuse .tickOverflow) song
    else
      match old.insert message tick with
      | .error fault => .error fault song
      | .ok (number, new) =>
        let tracks := song.tracks.set track new.rewind
        let tempoMap := song.tempoMap.register song.division tick message
        .ok number (refreshFrom tick { song with tracks, tempoMap })

/-- Add a message to a track, some ticks behind its last event. -/
def addEventAfter (track : Nat) (message : Message) (delta : Nat) : Edit S Nat := fun song =>
  addEvent track message ((song.tracks[track]?.elim 0 Track.endTick) + delta) song

/-- Add a message to a track at the tick nearest to a time in seconds. -/
def addEventAtSeconds (track : Nat) (message : Message) (seconds : S) : Edit S Nat := fun song =>
  match song.tickAt seconds with
  | .error fault => .error fault song
  | .ok tick => addEvent track message tick song

def removeEvent (track number : Nat) : Edit S (Event S) := fun song =>
  match song.tracks[track]? with
  | none => .error (.misuse .trackRange) song
  | some old =>
    match old.remove number with
    | .error fault => .error fault song
    | .ok (event, new) => .ok event (recount { song with tracks := song.tracks.set track new.rewind })

/-- Refer once more to the entry in effect at the end of the song. -/
def holdLastTempo (song : Song S) : Option (Entry S × Song S) :=
  (song.tempoMap.acquire song.endTick).map fun (entry, tempoMap) => (entry, { song with tempoMap })

/-- Refer once less to an entry. When that retires it, all times are worked out without it, and it
    leaves the tempo map. The entry is given as it was before. -/
def releaseTempo (handle : Handle) (song : Song S) : Option (Entry S × Song S) :=
  (song.tempoMap.release song.division handle).map fun (entry, tempoMap) =>
    let released := { song with tempoMap }
    (entry, if (tempoMap.live? handle).isSome then released else refreshFrom 0 released)

end Song

end MidiFile
