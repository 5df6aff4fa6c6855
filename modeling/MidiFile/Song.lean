import MidiFile.Header
import MidiFile.TempoMap
import MidiFile.Track

/-! # Songs

A song is a header, its tracks and its tempo map, the warnings of the file that it was read
from, and the time that it was last sought. Every event of a song has its time in seconds worked
out, from the entry of the tempo map in effect at its tick, and every entry knows how many events
that was done for. Whatever changes a song ends with `refreshFrom`, which does this anew from the
first tick that the change can matter to.
-/

namespace MidiFile

structure Song (S : Type) where
  header : Header
  tracks : List (Track S)
  tempoMap : TempoMap S
  warnings : List Warning
  position? : Option S
deriving BEq, DecidableEq, Repr

namespace Song

variable {S : Type}

/-- A song without tracks, with 120 ticks to a quarter note. -/
def empty (identity : Nat) : Song S :=
  ⟨⟨.single, .metrical (Narrow.truncate 15 120)⟩, [], TempoMap.empty identity, [], none⟩

/-- The same song as one of its own: handles of the one are none of the other. -/
def copy (identity : Nat) (song : Song S) : Song S :=
  { song with tempoMap := { song.tempoMap with identity := identity } }

def format (song : Song S) : Format := song.header.format

def division (song : Song S) : Division := song.header.division

def events (song : Song S) : List (Event S) := song.tracks.flatMap (·.events)

/-- An event by the number of its track and its number in there. -/
def event? (song : Song S) (track number : Nat) : Option (Event S) :=
  song.tracks[track]?.bind fun track => track.events[number]?

/-- The tick of the last event, zero where there is none. -/
def endTick (song : Song S) : Nat := song.tracks.foldl (fun tick track => max tick track.endTick) 0

/-- The time in seconds of the last event, zero where there is none. -/
def length [Clock S] (song : Song S) : S :=
  (song.tracks.filterMap fun track => track.last?.bind Event.seconds?).foldl Clock.later Clock.zero

/-- Whether nothing in the song comes later than the event. -/
def isLast (song : Song S) (event : Event S) : Bool := song.endTick ≤ event.tick

def secondsAt [Clock S] (song : Song S) (tick : Nat) : S := (song.tempoMap.timeOf song.division tick).seconds

def tickAt [Clock S] (song : Song S) (seconds : S) : Except Fault Nat := song.tempoMap.tickOf song.division seconds

/-- Count anew the events that each entry of the tempo map was used for. -/
def recount (song : Song S) : Song S :=
  { song with tempoMap := song.tempoMap.recount (song.events.filterMap Event.source?) }

/-- Work out the time in seconds of an event that does not come before the given tick. -/
def refreshEvent [Clock S] (song : Song S) (start : Nat) (event : Event S) : Event S :=
  if start ≤ event.tick then { event with cached? := some (song.tempoMap.timeOf song.division event.tick) } else event

/-- Work out the times in seconds from the given tick on. -/
def refreshFrom [Clock S] (start : Nat) (song : Song S) : Song S :=
  recount { song with
    tracks := song.tracks.map fun track => { track with events := track.events.map (song.refreshEvent start) } }

/-- Derive all that follows from the tempo map anew. -/
def refresh [Clock S] (song : Song S) : Song S :=
  refreshFrom 0 { song with tempoMap := song.tempoMap.resolve song.division }

/-- Move all cursors to the first events. -/
def rewind [Clock S] (song : Song S) : Song S :=
  { song with tracks := song.tracks.map Track.rewind, position? := some Clock.zero }

end Song

end MidiFile
