import MidiFile.Clock
import MidiFile.Event
import MidiFile.Header
import MidiFile.Journal

/-! # The tempo map

Every tempo and time signature of a song, in the order of their ticks, and what follows from
them: the time in seconds of every tick. There is one entry for a tick. It keeps apart what was
set there (`ownTempo?`, `ownSignature?`) and what is in effect from there on (`tempo`,
`signature`), which is the latest that was set at or before the tick; `resolve` derives the
latter, and the seconds at which the entry begins, from the former.

An entry is referred to by the map itself and by whoever acquired it. With the last reference it
is retired: it takes no part in anything any more, and it leaves the map once no time of an event
depends on it. A handle names an entry by a number that no other entry of the map ever gets.
-/

namespace MidiFile

/-- What is in effect from a tick on. -/
structure Pace (S : Type) where
  tick : Nat
  seconds : S
  tempo : Nat
  signature : TimeSignature
deriving DecidableEq, Repr

/-- The microseconds of a quarter note where no tempo was set: 120 quarter notes a minute. -/
def defaultTempo : Nat := 500000

/-- What is in effect from the start of a song on. -/
def Pace.start {S : Type} [Clock S] : Pace S := ⟨0, Clock.zero, defaultTempo, .common⟩

namespace Division

variable {S : Type} [Clock S]

/-- The seconds that ticks take at a tempo, where ticks are parts of a quarter note. -/
def quarterSeconds (ticksPerQuarter : Narrow 15) (ticks tempo : Nat) : S :=
  Clock.ofNat ticks / Clock.ofNat ticksPerQuarter.toNat * Clock.ofNat tempo / Clock.million

/-- The seconds that ticks take where they are parts of a film frame. -/
def frameSeconds (rate : FrameRate) (resolution : UInt8) (ticks : Nat) : S :=
  Clock.ofNat ticks / (Clock.ofNat rate.toNat * Clock.ofNat resolution.toNat)

/-- The seconds of a tick at or behind the one that the pace starts from. -/
def secondsFrom (division : Division) (pace : Pace S) (tick : Nat) : S :=
  match division with
  | metrical ticks => pace.seconds + quarterSeconds ticks (tick - pace.tick) pace.tempo
  | timecode rate resolution => frameSeconds rate resolution tick

end Division

/-- A tick at which the tempo or the time signature is set. -/
structure Entry (S : Type) where
  id : Nat
  tick : Nat
  ownTempo? : Option Nat
  ownSignature? : Option TimeSignature
  seconds : S
  tempo : Nat
  signature : TimeSignature
  /-- How many refer to the entry, the map being one of them: a number of 32 bits. -/
  references : Nat
  /-- The count of events whose time in seconds was worked out from the entry. -/
  dependents : Nat
deriving BEq, DecidableEq, Repr

namespace Entry

variable {S : Type}

/-- Nobody refers to the entry any more. -/
def retired (entry : Entry S) : Bool := entry.references == 0

/-- The entry comes into effect at the tick. -/
def beginsAt (tick : Nat) (entry : Entry S) : Bool := entry.tick == tick && !entry.retired

/-- One more refers to the entry. The count starts over where 32 bits end. -/
def hold (entry : Entry S) : Entry S := { entry with references := (entry.references + 1) % 0x100000000 }

/-- One less refers to the entry. -/
def drop (entry : Entry S) : Entry S := { entry with references := entry.references - 1 }

/-- What is in effect from the entry on. -/
def pace (entry : Entry S) : Pace S := ⟨entry.tick, entry.seconds, entry.tempo, entry.signature⟩

/-- The quarter notes of a minute at the tempo in effect. -/
def perMinute [Clock S] (entry : Entry S) : S := Clock.perMinute entry.tempo

/-- Set a tempo or a time signature; what is not given stays as it was. -/
def set (tempo? : Option Nat) (signature? : Option TimeSignature) (entry : Entry S) : Entry S :=
  { entry with ownTempo? := tempo?.or entry.ownTempo?, ownSignature? := signature?.or entry.ownSignature? }

/-- An entry at which nothing is set. -/
def blank [Clock S] (id tick : Nat) : Entry S :=
  ⟨id, tick, none, none, Clock.zero, defaultTempo, .common, 1, 0⟩

/-- Work out what is in effect from the entry on, from what is in effect up to there. -/
def follow [Clock S] (division : Division) (before : Pace S) (entry : Entry S) : Entry S :=
  { entry with
    seconds := division.secondsFrom before entry.tick
    tempo := entry.ownTempo?.getD before.tempo
    signature := entry.ownSignature?.getD before.signature }

end Entry

/-- Work out what is in effect from each entry on, in order. Retired entries are passed over. -/
def followAll {S : Type} [Clock S] (division : Division) (before : Pace S) : List (Entry S) → List (Entry S)
  | [] => []
  | entry :: rest =>
    if entry.retired then entry :: followAll division before rest
    else
      let entry := entry.follow division before
      entry :: followAll division entry.pace rest

/-! ## Maps -/

/-- The tempo map of a song. No two songs have maps of the same identity. -/
structure TempoMap (S : Type) where
  identity : Nat
  nextId : Nat
  entries : List (Entry S)
deriving BEq, DecidableEq, Repr

/-- The name of an entry of a map. -/
structure Handle where
  map : Nat
  entry : Nat
deriving DecidableEq, Repr

namespace TempoMap

variable {S : Type}

def empty (identity : Nat) : TempoMap S := ⟨identity, 0, []⟩

def handle (map : TempoMap S) (entry : Entry S) : Handle := ⟨map.identity, entry.id⟩

/-- The entry that a handle names, while it is in the map. -/
def find? (map : TempoMap S) (handle : Handle) : Option (Entry S) :=
  if handle.map = map.identity then map.entries.find? (·.id == handle.entry) else none

def live (map : TempoMap S) : List (Entry S) := map.entries.filter fun entry => !entry.retired

/-- The entry that a handle names, while it is not retired. -/
def live? (map : TempoMap S) (handle : Handle) : Option (Entry S) :=
  if handle.map = map.identity then map.live.find? (·.id == handle.entry) else none

/-- The entry in effect at a tick. -/
def at? (map : TempoMap S) (tick : Nat) : Option (Entry S) :=
  (map.live.filter fun entry => entry.tick ≤ tick).getLast?

/-- The entry in effect at a time in seconds. -/
def atSeconds? [Clock S] (map : TempoMap S) (seconds : S) : Option (Entry S) :=
  (map.live.filter fun entry => Clock.le entry.seconds seconds).getLast?

/-- Derive what is in effect from each entry on. -/
def resolve [Clock S] (division : Division) (map : TempoMap S) : TempoMap S :=
  { map with entries := followAll division .start map.entries }

/-- Set a tempo or a time signature at a tick, in the entry that is in effect there or in a new one. -/
def set [Clock S] (tick : Nat) (tempo? : Option Nat) (signature? : Option TimeSignature) (map : TempoMap S) :
    TempoMap S :=
  if map.entries.any (·.beginsAt tick) then
    { map with
      entries := map.entries.map fun entry => if entry.beginsAt tick then entry.set tempo? signature? else entry }
  else
    let entry := (Entry.blank map.nextId tick).set tempo? signature?
    { map with
      nextId := map.nextId + 1
      entries := map.entries.takeWhile (·.tick ≤ tick) ++ entry :: map.entries.dropWhile (·.tick ≤ tick) }

/-- Take over what a message at a tick sets, if it sets anything. -/
def register [Clock S] (division : Division) (tick : Nat) (message : Message) (map : TempoMap S) : TempoMap S :=
  if message.changesTempo then (map.set tick message.tempo? message.timeSignature?).resolve division else map

/-- Take over what each of the events sets, in order. -/
def registerAll [Clock S] (division : Division) (events : List (Event S)) (map : TempoMap S) : TempoMap S :=
  events.foldl (fun map event => map.register division event.tick event.message) map

/-! ## References -/

/-- Put an entry in the place of the one with its number. -/
def put (entry : Entry S) (map : TempoMap S) : TempoMap S :=
  { map with entries := map.entries.map fun other => if other.id = entry.id then entry else other }

/-- Refer once more to the entry in effect at a tick. -/
def acquire (tick : Nat) (map : TempoMap S) : Option (Entry S × TempoMap S) :=
  (map.at? tick).map fun entry => (entry.hold, map.put entry.hold)

/-- Refer once less to the entry that a handle names; it is the entry as it was before. With the last
    reference it is retired. It stays in the map while times of events depend on it. -/
def release [Clock S] (division : Division) (handle : Handle) (map : TempoMap S) : Option (Entry S × TempoMap S) :=
  (map.live? handle).map fun entry =>
    let left := entry.drop
    if !left.retired then (entry, map.put left)
    else if left.dependents = 0 then
      (entry, { map with entries := map.entries.filter (·.id != entry.id) }.resolve division)
    else (entry, (map.put left).resolve division)

/-- Count anew the events that each entry was used for, given the entry of each event. Retired entries
    that no event depends on leave the map. -/
def recount (sources : List Nat) (map : TempoMap S) : TempoMap S :=
  let counted := map.entries.map fun entry => { entry with dependents := sources.count entry.id }
  { map with entries := counted.filter fun entry => !(entry.retired && entry.dependents == 0) }

/-- The records of what the events set, given the map behind their registration: entries that are in
    effect stay in the map while events are registered. -/
def registrations (events : List (Event S)) (map : TempoMap S) : List (Record S) :=
  events.filterMap fun event =>
    if event.message.changesTempo then
      (map.entries.find? (·.beginsAt event.tick)).map fun entry =>
        .registered entry.id event.tick event.message.tempo? event.message.timeSignature?
    else none

/-- The records of the entries that left the map. -/
def evictions (map after : TempoMap S) : List (Record S) :=
  (map.entries.filter fun entry => after.entries.all (·.id != entry.id)).map fun entry => .evicted entry.id

/-- The time in seconds of a tick, with the entry that it was worked out from. -/
def timeOf [Clock S] (division : Division) (tick : Nat) (map : TempoMap S) : Cached S :=
  match division with
  | .metrical ticks =>
    match map.at? tick with
    | some entry => ⟨division.secondsFrom entry.pace tick, some entry.id⟩
    | none => ⟨Division.quarterSeconds ticks tick defaultTempo, none⟩
  | .timecode rate resolution => ⟨Division.frameSeconds rate resolution tick, none⟩

/-- The number of ticks that a time in seconds makes, not yet a whole one. -/
def ticksOf [Clock S] (division : Division) (seconds : S) (map : TempoMap S) : S :=
  match division with
  | .metrical ticks =>
    let pace := ((map.atSeconds? seconds).map Entry.pace).getD .start
    Clock.ofNat pace.tick +
      (seconds - pace.seconds) * Clock.ofNat ticks.toNat * Clock.million / Clock.ofNat pace.tempo
  | .timecode rate resolution => seconds * Clock.ofNat rate.toNat * Clock.ofNat resolution.toNat

/-- The tick nearest to a time in seconds. -/
def tickOf [Clock S] (division : Division) (seconds : S) (map : TempoMap S) : Except Fault Nat :=
  if Clock.isTime seconds then
    match Clock.nearest? (map.ticksOf division seconds) with
    | some tick => .ok tick
    | none => .error (.misuse .secondsTooFar)
  else .error (.misuse .secondsRange)

end TempoMap

end MidiFile
