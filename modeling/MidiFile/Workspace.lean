import MidiFile.Song.Storage

/-! # Workspaces: several songs at once

A workspace holds the songs that are worked on and what was taken out of them: tracks, events and
handles, each kept in the order of arrival and referred to by its number. Tracks and events move
between songs by way of the workspace. Every song gets an identity of its own for its tempo map,
so that the handles of one song mean nothing to another.
-/

namespace MidiFile

/-- Songs, and what was taken out of them. -/
structure Workspace (S : Type) where
  songs : List (Song S)
  tracks : List (Track S)
  events : List (Event S)
  handles : List Handle
  nextIdentity : Nat
deriving DecidableEq, Repr

/-- Where a track comes from. -/
inductive TrackSource
  | new
  | removed (number : Nat)
  | part (song number : Nat)
deriving DecidableEq, Repr

/-- Where an event comes from. -/
inductive EventSource
  | new (draft : Draft)
  | removed (number : Nat)
  | part (song track number : Nat)
deriving DecidableEq, Repr

/-- When an event is to happen: some ticks behind the last event, at a tick or at a time. -/
inductive Moment (S : Type)
  | after (delta : Nat)
  | tick (tick : Nat)
  | seconds (seconds : S)
deriving DecidableEq, Repr

/-- What can be done with a song. -/
inductive Change (S : Type)
  | setFormat (format : Format)
  | setTicksPerQuarter (ticks : Nat)
  | setTimecode (rate : FrameRate) (resolution : UInt8)
  | addTrack (source : TrackSource)
  | removeTrack (number : Nat)
  | addEvent (track : Nat) (source : EventSource) (moment : Moment S)
  | removeEvent (track number : Nat)
  | holdLastTempo
  | releaseTempo (handle : Nat)
  | refresh
  | encode
  | save (folder? : Option Folder) (name? : Option String)
  | rewind
  | next
  | play (limit? : Option Nat)
  | seekTick (tick : Nat)
  | seekSeconds (seconds : S)
  | seekEvent (track number : Nat)
deriving DecidableEq, Repr

/-- What can be done with a workspace. -/
inductive Command (S : Type)
  | create
  | read (bytes : List UInt8)
  | load (folder : Folder) (name : String)
  | copy (song : Nat)
  | encodeAndRead (song : Nat)
  | handleAt (song number : Nat)
  | change (song : Nat) (change : Change S)
deriving DecidableEq, Repr

inductive Answer (S : Type)
  | done
  | flag (value : Bool)
  | number (value : Nat)
  | bytes (value : List UInt8)
  | track (value : Track S)
  | event (value? : Option (Event S))
  | events (values : List (Event S))
  | handle (number? : Option Nat)
  | tempo (held? : Option (Nat × Entry S))
  | saved (result : Except Fault Unit) (folder? : Option Folder)

/-- What a change takes out of a song for the workspace to keep. -/
inductive Taken (S : Type)
  | nothing
  | track (value : Track S)
  | event (value : Event S)
  | handle (value : Handle)
deriving DecidableEq, Repr

namespace Workspace

variable {S : Type}

def empty : Workspace S := ⟨[], [], [], [], 0⟩

def keep (workspace : Workspace S) : Taken S → Workspace S
  | .nothing => workspace
  | .track track => { workspace with tracks := workspace.tracks ++ [track] }
  | .event event => { workspace with events := workspace.events ++ [event] }
  | .handle handle => { workspace with handles := workspace.handles ++ [handle] }

def track? (workspace : Workspace S) : TrackSource → Option (Track S)
  | .new => some Track.empty
  | .removed number => workspace.tracks[number]?
  | .part song number => workspace.songs[song]?.bind fun song => song.tracks[number]?

/-- The event that a source names, or the fault in making it. -/
def event? (workspace : Workspace S) : EventSource → Option (Except Fault (Event S))
  | .new draft => some (draft.message.map Event.ofMessage)
  | .removed number => workspace.events[number]?.map .ok
  | .part song track number => (workspace.songs[song]?.bind fun song => song.event? track number).map .ok

/-- Take a song in, as the one with the next identity. -/
def take (song : Song S) (workspace : Workspace S) : Workspace S :=
  { workspace with songs := workspace.songs ++ [song], nextIdentity := workspace.nextIdentity + 1 }

end Workspace

end MidiFile
