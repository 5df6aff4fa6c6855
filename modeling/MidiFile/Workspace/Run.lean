import MidiFile.Song.Play
import MidiFile.Workspace

/-! # Working in a workspace

A command is carried out with a report of what came of it. A command that names something that
is not there is no command at all; there is no report for it. Refused changes leave the songs as
the changes themselves leave them.
-/

namespace MidiFile

variable {S : Type}

/-- What a change of a song comes to. -/
structure Outcome (S : Type) where
  report : Report S (Answer S)
  song : Song S
  taken : Taken S

namespace Outcome

variable [Clock S] [Workers]

/-- The outcome of an edit, given what its result is, what it takes out and what it notes. Entries that
    leave the tempo map are noted last. -/
def ofEdit {α : Type} (edit : Edit S α) (song : Song S) (answer : α → Answer S) (taken : α → Taken S)
    (records : α → Song S → List (Record S)) : Outcome S :=
  match edit song with
  | .ok value after =>
    ⟨⟨.ok (answer value), records value after ++ song.tempoMap.evictions after.tempoMap⟩, after, taken value⟩
  | .error fault after => ⟨⟨.error fault, song.tempoMap.evictions after.tempoMap⟩, after, .nothing⟩

/-- The outcome of an edit that takes nothing out and notes nothing. -/
def ofPlainEdit {α : Type} (edit : Edit S α) (song : Song S) (answer : α → Answer S) : Outcome S :=
  ofEdit edit song answer (fun _ => .nothing) fun _ _ => []

/-- The outcome of a search, which is noted first. -/
def ofSearch (record : Record S) (search : Bool × Song S) : Outcome S :=
  ⟨⟨.ok (.flag search.1), [record]⟩, search.2, .nothing⟩

/-- Add a track; what its events set is noted. -/
def addTrack (track : Track S) (song : Song S) : Outcome S :=
  ofEdit (Song.addTrack track) song .number (fun _ => .nothing) fun number song =>
    song.tempoMap.registrations (song.tracks[number]?.elim [] Track.events)

/-- Add a message at a moment. -/
def addMessage (track : Nat) (message : Message) : Moment S → Edit S Nat
  | .after delta => Song.addEventAfter track message delta
  | .tick tick => Song.addEvent track message tick
  | .seconds seconds => Song.addEventAtSeconds track message seconds

/-- Add an event, if it could be made; what it sets is noted. -/
def addEvent (track : Nat) (moment : Moment S) (song : Song S) : Except Fault (Event S) → Outcome S
  | .error fault => ⟨Report.fail fault, song, .nothing⟩
  | .ok event =>
    ofEdit (addMessage track event.message moment) song .number (fun _ => .nothing) fun number song =>
      song.tempoMap.registrations (song.event? track number).toList

def holdLastTempo (handles : Nat) (song : Song S) : Outcome S :=
  match song.holdLastTempo with
  | none => ⟨pure (.tempo none), song, .nothing⟩
  | some (entry, held) =>
    let report := ⟨.ok (.tempo (some (handles, entry))), [.acquired entry.id entry.references]⟩
    ⟨report, held, .handle (song.tempoMap.handle entry)⟩

/-- Give a reference to an entry of the tempo map back. -/
def releaseTempo (handle : Handle) (song : Song S) : Outcome S :=
  match song.releaseTempo handle with
  | none => ⟨pure (.flag false), song, .nothing⟩
  | some (entry, released) =>
    let records := .released entry.id entry.drop.references :: song.tempoMap.evictions released.tempoMap
    ⟨⟨.ok (.flag true), records⟩, released, .nothing⟩

def save (folder? : Option Folder) (name? : Option String) (song : Song S) : Outcome S :=
  let (report, saved) := song.save folder? name?
  let records := song.tempoMap.evictions saved.song.tempoMap ++ report.records
  ⟨⟨.ok (.saved report.result saved.folder?), records⟩, saved.song, .nothing⟩

def next (song : Song S) : Outcome S :=
  match song.next? with
  | none => ⟨pure (.event none), song, .nothing⟩
  | some (event, song) => ⟨pure (.event (some event)), song, .nothing⟩

/-- Play events, all of them if no limit is given. -/
def play (limit? : Option Nat) (song : Song S) : Outcome S :=
  let (events, song) := song.play (limit?.getD song.remaining)
  ⟨pure (.events events), song, .nothing⟩

end Outcome

namespace Change

variable [Clock S] [Workers]

def run (workspace : Workspace S) (song : Song S) : Change S → Option (Outcome S)
  | setFormat format => some (.ofPlainEdit (Song.setFormat format) song fun _ => .done)
  | setTicksPerQuarter ticks => some (.ofPlainEdit (Song.setTicksPerQuarter ticks) song fun _ => .done)
  | setTimecode rate resolution => some (.ofPlainEdit (Song.setTimecode rate resolution) song fun _ => .done)
  | addTrack source => (workspace.track? source).map (Outcome.addTrack · song)
  | removeTrack number => some (.ofEdit (Song.removeTrack number) song .track .track fun _ _ => [])
  | addEvent track source moment => (workspace.event? source).map (Outcome.addEvent track moment song)
  | removeEvent track number =>
    some (.ofEdit (Song.removeEvent track number) song (fun event => .event (some event)) .event fun _ _ => [])
  | holdLastTempo => some (.holdLastTempo workspace.handles.length song)
  | releaseTempo number => workspace.handles[number]?.map (Outcome.releaseTempo · song)
  | refresh => some ⟨⟨.ok .done, song.tempoMap.evictions song.refresh.tempoMap⟩, song.refresh, .nothing⟩
  | encode => some (.ofPlainEdit Song.encode song .bytes)
  | save folder? name? => some (.save folder? name? song)
  | rewind => some ⟨pure .done, song.rewind, .nothing⟩
  | next => some (.next song)
  | play limit? => some (.play limit? song)
  | seekTick tick => some (.ofSearch (.seekTick tick) (song.seekTick tick))
  | seekSeconds seconds => some (.ofSearch (.seekSeconds seconds) (song.seekSeconds seconds))
  | seekEvent track number => some (.ofSearch (.seekEvent track number) (song.seekEvent track number))

end Change

namespace Workspace

variable [Clock S] [Workers]

/-- Take a song in that was read, if it was. -/
def takeRead (report : Report S (Song S)) (workspace : Workspace S) : Report S (Answer S) × Workspace S :=
  match report.result with
  | .ok song => (⟨.ok (.number workspace.songs.length), report.records⟩, workspace.take song)
  | .error fault => (⟨.error fault, report.records⟩, workspace)

/-- Put the outcome of a change in place. -/
def put (number : Nat) (outcome : Outcome S) (workspace : Workspace S) : Workspace S :=
  { workspace with songs := workspace.songs.set number outcome.song }.keep outcome.taken

/-- Encode a song and read what that gives. -/
def encodeAndRead (mode : Mode) (number : Nat) (song : Song S) (workspace : Workspace S) :
    Report S (Answer S) × Workspace S :=
  match Song.encode song with
  | .error fault after =>
    (⟨.error fault, song.tempoMap.evictions after.tempoMap⟩,
      { workspace with songs := workspace.songs.set number after })
  | .ok bytes after =>
    let read := takeRead (Song.read mode workspace.nextIdentity bytes)
      { workspace with songs := workspace.songs.set number after }
    (⟨read.1.result, song.tempoMap.evictions after.tempoMap ++ read.1.records⟩, read.2)

/-- The handle of an entry of a song by its number. -/
def handleAt (song : Song S) (number : Nat) (workspace : Workspace S) : Report S (Answer S) × Workspace S :=
  match song.tempoMap.entries[number]? with
  | none => (pure (.handle none), workspace)
  | some entry =>
    (pure (.handle (some workspace.handles.length)), workspace.keep (.handle (song.tempoMap.handle entry)))

def run (mode : Mode) (workspace : Workspace S) : Command S → Option (Report S (Answer S) × Workspace S)
  | .create =>
    let song := Song.empty workspace.nextIdentity
    some (pure (.number workspace.songs.length), workspace.take song)
  | .read bytes => some (workspace.takeRead (Song.read mode workspace.nextIdentity bytes))
  | .load folder name => some (workspace.takeRead (Song.load mode workspace.nextIdentity folder name))
  | .copy number =>
    workspace.songs[number]?.map fun song =>
      (pure (.number workspace.songs.length), workspace.take (song.copy workspace.nextIdentity))
  | .encodeAndRead number =>
    workspace.songs[number]?.map fun song => workspace.encodeAndRead mode number song
  | .handleAt number entry => workspace.songs[number]?.map fun song => workspace.handleAt song entry
  | .change number change =>
    workspace.songs[number]?.bind fun song =>
      (change.run workspace song).map fun outcome => (outcome.report, workspace.put number outcome)

end Workspace

end MidiFile
