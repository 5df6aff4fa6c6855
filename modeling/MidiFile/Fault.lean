/-! # Faults: why an operation was refused

A fault has one cause and the operations that were under way when the cause was found, the
outermost first. The cause decides the kind of the fault; the operations only tell where it
happened. `Fault.chain` is the text of the whole, one operation a line.

Many files break the standard in ways that do not hide what was meant. A lenient reader goes on
and notes a warning, a strict one refuses the file. Where the work on a large file is shared out,
several faults may be found at once, and `Workers` is who chooses the one to tell.
-/

namespace MidiFile

/-- The broad kinds of fault. -/
inductive Kind
  | format
  | unsupportedFormat
  | truncatedFile
  | invalidInput
  | device
deriving DecidableEq, Repr

/-- Bytes that break a rule of the format. -/
inductive Malformed
  | numberUnfinished
  | numberTooLong
  | statusMissing
  | statusNotRunning
  | dataByteNotSevenBit
  | systemCommon
  | systemRealtime
  | tickOverflow
  | eventsAfterEnd
  | endMissing
  | headerLength
  | headerNotFirst
  | headerRepeated
  | singleTrackCount
  | tracksBeyondCount
  | embeddedFileMissing
deriving DecidableEq, Repr

/-- Bytes that follow the format but stand for something that has no place here. -/
inductive Unsupported
  | trackFormat
  | frameRate
  | zeroResolution
  | zeroTicksPerQuarter
  | wrapperForm
deriving DecidableEq, Repr

/-- What the bytes end before. -/
inductive Truncated
  | bytes
  | event
  | header
  | tracks
  | wrapper
deriving DecidableEq, Repr

/-- A request that would leave a song or a file that cannot be. -/
inductive Misuse
  | numberRange
  | blockLength
  | deltaRange
  | emptyMessage
  | statusExpected
  | messageLength
  | dataByteNotSevenBit
  | metaUnfinished
  | metaLength
  | systemMessage
  | metaTypeRange
  | textType
  | tempoRange
  | denominator
  | tickOverflow
  | endRepeated
  | endTooEarly
  | eventRange
  | trackRange
  | chunkLength
  | singleTrackCount
  | singleTrackFormat
  | trackCountRange
  | ticksPerQuarterRange
  | zeroResolution
  | secondsRange
  | secondsTooFar
  | fileNameMissing
deriving DecidableEq, Repr

/-- The reason behind a fault; a device is the storage that holds the files. -/
inductive Cause
  | malformed (what : Malformed)
  | unsupported (what : Unsupported)
  | truncated (what : Truncated)
  | misuse (what : Misuse)
  | device
deriving DecidableEq, Repr

def Malformed.message : Malformed → String
  | .numberUnfinished => "unexpected end of data inside varlen integer"
  | .numberTooLong => "varlen integer larger than 4 bytes"
  | .statusMissing => "event missing status with no running status active"
  | .statusNotRunning => "invalid running status without top bit set"
  | .dataByteNotSevenBit => "midi data byte with top bit set"
  | .systemCommon => "standard midi files cannot contain system common events"
  | .systemRealtime => "standard midi files cannot contain system realtime events"
  | .tickOverflow => "absolute event time overflows 32 bits"
  | .eventsAfterEnd => "events after the end of track"
  | .endMissing => "track does not end with an end of track event"
  | .headerLength => "header chunk length is not 6"
  | .headerNotFirst => "file does not start with a header chunk"
  | .headerRepeated => "found duplicate header chunk"
  | .singleTrackCount => "single track format file declares several tracks"
  | .tracksBeyondCount => "file has more track chunks than declared"
  | .embeddedFileMissing => "no rmid data chunk"

def Unsupported.message : Unsupported → String
  | .trackFormat => "smf format is not 0, 1 or 2"
  | .frameRate => "invalid smpte fps"
  | .zeroResolution => "timecode division with zero resolution"
  | .zeroTicksPerQuarter => "metrical division with zero ppqn"
  | .wrapperForm => "not an rmid riff file"

def Truncated.message : Truncated → String
  | .bytes => "not enough bytes left"
  | .event => "track ends between deltatime and event"
  | .header => "no header chunk"
  | .tracks => "file has fewer track chunks than declared"
  | .wrapper => "no main riff chunk"

def Misuse.message : Misuse → String
  | .numberRange => "value does not fit in a varlen integer"
  | .blockLength => "varlen slice exceeds 28 bits"
  | .deltaRange => "delta time exceeds 28 bits"
  | .emptyMessage => "empty midi message"
  | .statusExpected => "first byte of a midi message must be a status byte"
  | .messageLength => "midi message length does not match its status"
  | .dataByteNotSevenBit => "midi data byte with top bit set"
  | .metaUnfinished => "truncated meta event"
  | .metaLength => "meta event length does not match its payload"
  | .systemMessage => "standard midi files cannot contain system common or realtime messages"
  | .metaTypeRange => "meta event type must be below 0x80"
  | .textType => "not a textual meta event type"
  | .tempoRange => "tempo must be a nonzero 24-bit number of microseconds"
  | .denominator => "time signature denominator must be a power of two"
  | .tickOverflow => "absolute event time overflows 32 bits"
  | .endRepeated => "track already ends with an end of track event"
  | .endTooEarly => "end of track event must not precede the last event"
  | .eventRange => "event number out of range"
  | .trackRange => "track number out of range"
  | .chunkLength => "midi chunk size exceeds 32 bit range"
  | .singleTrackCount => "single track format file must have exactly one track"
  | .singleTrackFormat => "cannot set single track format on a file with several tracks"
  | .trackCountRange => "track count exceeds 16 bit range"
  | .ticksPerQuarterRange => "ppqn must be between 1 and 32767"
  | .zeroResolution => "timecode resolution must not be zero"
  | .secondsRange => "time in seconds must be finite and not negative"
  | .secondsTooFar => "time in seconds is too far into the song"
  | .fileNameMissing => "destination path has no file name"

namespace Cause

def kind : Cause → Kind
  | malformed _ => .format
  | unsupported _ => .unsupportedFormat
  | truncated _ => .truncatedFile
  | misuse _ => .invalidInput
  | device => .device

/-- The wording of the cause. What a device has to say is not known here. -/
def message? : Cause → Option String
  | malformed what => some what.message
  | unsupported what => some what.message
  | truncated what => some what.message
  | misuse what => some what.message
  | device => none

/-- The cause as the last line of a chain: its kind in words, then its wording. -/
def text : Cause → String
  | malformed what => "malformed midi: " ++ what.message
  | unsupported what => "unsupported midi: " ++ what.message
  | truncated what => "truncated midi: " ++ what.message
  | misuse what => "invalid input: " ++ what.message
  | device => "i/o error"

end Cause

/-- The operations that a fault can be found in. -/
inductive Context
  | integer
  | blockLength
  | block
  | division
  | metaLength
  | deltaTime
  | voiceMessage
  | metaType
  | metaData
  | systemExclusive
  | event
  | chunkName
  | chunkLength
  | headerChunk
  | trackChunk
  | otherChunk
  | header
  | nextTrack
  | wrapper
  | wrapperForm
  | load
  | save
deriving DecidableEq, Repr

def Context.text : Context → String
  | .integer => "failed to read the expected integer"
  | .blockLength => "failed to read varlen slice length"
  | .block => "varlen slice extends past the end of its chunk"
  | .division => "unexpected eof when reading midi timing"
  | .metaLength => "invalid meta event length"
  | .deltaTime => "failed to read event deltatime"
  | .voiceMessage => "truncated midi message"
  | .metaType => "failed to read meta message type"
  | .metaData => "failed to read meta message data"
  | .systemExclusive => "failed to read sysex event"
  | .event => "malformed event"
  | .chunkName => "failed to read chunk id"
  | .chunkLength => "failed to read chunk length"
  | .headerChunk => "reached eof before header chunk ended"
  | .trackChunk => "reached eof before track chunk ended"
  | .otherChunk => "reached eof before chunk ended"
  | .header => "invalid midi header"
  | .nextTrack => "failed to read track chunk"
  | .wrapper => "invalid rmid wrapper"
  | .wrapperForm => "failed to read riff formtype"
  | .load => "failed to read midi file"
  | .save => "failed to save midi file"

/-! ## Faults -/

/-- A cause, and the operations that were under way, the outermost first. -/
structure Fault where
  cause : Cause
  layers : List Context
deriving DecidableEq, Repr

namespace Fault

/-- A broken rule of the format, found in no particular operation yet. -/
def malformed (what : Malformed) : Fault := ⟨.malformed what, []⟩
def unsupported (what : Unsupported) : Fault := ⟨.unsupported what, []⟩
def truncated (what : Truncated) : Fault := ⟨.truncated what, []⟩
def misuse (what : Misuse) : Fault := ⟨.misuse what, []⟩
def device : Fault := ⟨.device, []⟩

/-- The same fault, seen from an operation around it. -/
def within (fault : Fault) (context : Context) : Fault := { fault with layers := context :: fault.layers }

def kind (fault : Fault) : Kind := fault.cause.kind

def message? (fault : Fault) : Option String := fault.cause.message?

/-- The operations from the outside in and then the cause, each introduced by what it led to. -/
def chain (fault : Fault) : String :=
  String.intercalate "\n  caused by: " (fault.layers.map Context.text ++ [fault.cause.text])

@[simp] theorem kind_within (fault : Fault) (context : Context) : (fault.within context).kind = fault.kind := rfl
@[simp] theorem message?_within (fault : Fault) (context : Context) :
    (fault.within context).message? = fault.message? := rfl

end Fault

/-- Go on when the condition holds. -/
def Fault.ensure (condition : Bool) (fault : Fault) : Except Fault Unit :=
  if condition then .ok () else .error fault

/-- The result of an operation, seen from an operation around it. -/
def Fault.guard {α : Type} (context : Context) : Except Fault α → Except Fault α
  | .ok value => .ok value
  | .error fault => .error (fault.within context)

/-- How a reader takes the lesser faults of a file. -/
inductive Mode
  | lenient
  | strict
deriving DecidableEq, Repr

/-- A lesser fault of a file that was read all the same. -/
inductive Warning
  /-- The track had no end of its own; one was added. -/
  | endAdded (track : Nat)
  /-- There were more tracks than the header counts; they were left out. -/
  | tracksIgnored (count : Nat)
  /-- The bytes behind the last chunk were no chunk; they were left out. -/
  | bytesIgnored (count : Nat)
deriving DecidableEq, Repr

/-! ## Work on many tracks -/

/-- How the work on the tracks of a large file is shared out. All of it is done or none, but where
    several tracks fail, the fault of any of them may be told. -/
class Workers where
  told : Fault → List Fault → Fault
  told_mem : ∀ first others, told first others ∈ first :: others

/-- A single worker tells the first fault. -/
instance : Workers := ⟨fun first _ => first, fun _ _ => List.mem_cons_self⟩

namespace Workers

variable {α : Type}

/-- The size from which on work is shared out. -/
def threshold : Nat := 3072

def faults (results : List (Except Fault α)) : List Fault :=
  results.filterMap fun
    | .ok _ => none
    | .error fault => some fault

/-- All results, or the fault of one that failed: of the first, unless there was so much to do that the
    work was shared out. -/
def collect [Workers] (size : Nat) (results : List (Except Fault α)) : Except Fault (List α) :=
  match results.mapM id with
  | .ok values => .ok values
  | .error first => .error (if size < threshold then first else told first (faults results).tail)

end Workers

end MidiFile
