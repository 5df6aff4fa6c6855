import MidiFile.Vlq
import MidiFile.Text.Lossy

/-! # Messages

What happens at a moment of a song. A voice message goes to a channel and has one or two data
bytes below 128, a system exclusive message or an escape carries bytes of any kind, and a meta
message tells about the song itself. A meta message keeps its length as it was given, in front
of its payload; the accessors look behind it.

A draft says how a message is to be made: out of all its bytes, or out of what it means. Only
messages made from drafts or read from a file get into a song.
-/

namespace MidiFile

/-- A time signature. The denominator is the note value itself, such as 4 for quarter notes. -/
structure TimeSignature where
  numerator : UInt8
  denominator : UInt8
  clocksPerClick : UInt8
  thirtySecondsPerQuarter : UInt8
deriving DecidableEq, Repr

namespace TimeSignature

/-- The signature in effect where none was given: four quarter notes, a click for each. -/
def common : TimeSignature := ⟨4, 4, 24, 8⟩

instance : Inhabited TimeSignature := ⟨common⟩

/-- The power of two that the denominator is, if it is one. -/
def exponent? (signature : TimeSignature) : Option Nat :=
  let exponent := signature.denominator.toNat.log2
  if Nat.pow 2 exponent = signature.denominator.toNat then some exponent else none

end TimeSignature

namespace Status

/-- Opens a system exclusive message. -/
def sysex : UInt8 := 0xF0
/-- Opens bytes that are to be sent as they are. -/
def escape : UInt8 := 0xF7
/-- Opens a meta message. -/
def metadata : UInt8 := 0xFF

/-- A byte that can carry data: its top bit is clear. -/
def isData (byte : UInt8) : Bool := byte.toNat < 0x80

/-- A status byte that opens a message to a channel. -/
def isVoice (status : UInt8) : Bool := 0x80 ≤ status.toNat && status.toNat < 0xF0

/-- The count of data bytes after a voice status: one for a program change or a channel
    pressure, two for all others. -/
def dataLength (status : UInt8) : Nat := if 0xC0 ≤ status.toNat && status.toNat < 0xE0 then 1 else 2

end Status

namespace MetaKind

def endOfTrack : UInt8 := 0x2F
def tempo : UInt8 := 0x51
def timeSignature : UInt8 := 0x58
def keySignature : UInt8 := 0x59

def isText (kind : UInt8) : Bool := 0x01 ≤ kind.toNat && kind.toNat ≤ 0x09

end MetaKind

/-! ## Messages and what they say -/

/-- A message. The field of a meta message is its length followed by its payload. -/
inductive Message
  | voice (status : UInt8) (data : List UInt8)
  | metadata (kind : UInt8) (field : List UInt8)
  | sysex (payload : List UInt8)
  | escape (payload : List UInt8)
deriving DecidableEq, Repr

namespace Message

/-- The first byte of a message. -/
def status : Message → UInt8
  | voice status _ => status
  | metadata _ _ => Status.metadata
  | sysex _ => Status.sysex
  | escape _ => Status.escape

/-- The whole message: its status and all that comes after it. -/
def bytes : Message → List UInt8
  | voice status data => status :: data
  | metadata kind field => Status.metadata :: kind :: field
  | sysex payload => Status.sysex :: payload
  | escape payload => Status.escape :: payload

/-- The channel of a voice message, counted from zero. -/
def channel? : Message → Option Nat
  | voice status _ => some (status.toNat % 16)
  | _ => none

def isMetadata : Message → Bool
  | metadata _ _ => true
  | _ => false

/-- Whether the message carries bytes of any kind. -/
def isSysex : Message → Bool
  | sysex _ | escape _ => true
  | _ => false

def metaKind? : Message → Option UInt8
  | metadata kind _ => some kind
  | _ => none

/-- The payload of a meta message, which is all behind its length. -/
def payload? : Message → Option (List UInt8)
  | metadata _ field =>
    match Vlq.read field with
    | .ok _ payload => some payload
    | .error _ _ => none
  | _ => none

/-- The payload of a meta message of one kind. -/
def payloadOf? (kind : UInt8) (message : Message) : Option (List UInt8) :=
  if message.metaKind? = some kind then message.payload? else none

def isEnd (message : Message) : Bool := message.metaKind? == some MetaKind.endOfTrack

def isTextual (message : Message) : Bool := message.metaKind?.any MetaKind.isText

/-- The microseconds of a quarter note that a message sets. -/
def tempo? (message : Message) : Option Nat :=
  match message.payloadOf? MetaKind.tempo with
  | some (high :: middle :: low :: _) => some (Bytes.bigEndian [high, middle, low])
  | _ => none

/-- The time signature that a message sets. Its denominator is given as a power of two, and one
    that is too great for a byte sets none. -/
def timeSignature? (message : Message) : Option TimeSignature :=
  match message.payloadOf? MetaKind.timeSignature with
  | some (numerator :: exponent :: clocks :: notes :: _) =>
    if exponent.toNat < 8 then some ⟨numerator, UInt8.ofNat (Nat.pow 2 exponent.toNat), clocks, notes⟩ else none
  | _ => none

/-- Whether the message sets the tempo or the time signature. -/
def changesTempo (message : Message) : Bool := message.tempo?.isSome || message.timeSignature?.isSome

def text? (message : Message) : Option String :=
  if message.isTextual then message.payload?.map Text.lossy else none

/-- A meta message of a kind below 128. -/
def ofPayload (kind : UInt8) (payload : List UInt8) : Except Fault Message := do
  Fault.ensure (kind.toNat < 0x80) (.misuse .metaTypeRange)
  return metadata kind (← Vlq.block payload)

def ofText (kind : UInt8) (text : String) : Except Fault Message := do
  Fault.ensure (MetaKind.isText kind) (.misuse .textType)
  ofPayload kind text.toUTF8.data.toList

/-- The message that sets a tempo, in microseconds of a quarter note. -/
def ofTempo (microseconds : Nat) : Except Fault Message := do
  Fault.ensure (0 < microseconds && microseconds ≤ 0xFFFFFF) (.misuse .tempoRange)
  ofPayload MetaKind.tempo (Bytes.word 3 microseconds)

/-- The message that sets a time signature. -/
def ofTimeSignature (signature : TimeSignature) : Except Fault Message :=
  match signature.exponent? with
  | none => .error (.misuse .denominator)
  | some exponent =>
    ofPayload MetaKind.timeSignature
      [signature.numerator, UInt8.ofNat exponent, signature.clocksPerClick, signature.thirtySecondsPerQuarter]

def endOfTrack : Message := metadata MetaKind.endOfTrack [0]

/-- A voice message out of its parts. -/
def ofVoice (status : UInt8) (data : List UInt8) : Except Fault Message := do
  Fault.ensure (data.length == Status.dataLength status) (.misuse .messageLength)
  Fault.ensure (data.all Status.isData) (.misuse .dataByteNotSevenBit)
  return voice status data

/-- A meta message out of its kind and its field, which has to be as long as it says. -/
def ofField (kind : UInt8) (field : List UInt8) : Except Fault Message := do
  let (length, used) ← Fault.guard .metaLength (Vlq.decode field)
  Fault.ensure (field.length == used + length.toNat) (.misuse .metaLength)
  return metadata kind field

/-- A meta message out of what follows its status: at least a kind and a length. -/
def ofMetadata : List UInt8 → Except Fault Message
  | kind :: first :: rest => ofField kind (first :: rest)
  | _ => .error (.misuse .metaUnfinished)

/-- A message out of all its bytes. System common and realtime messages have no place in a file. -/
def ofBytes : List UInt8 → Except Fault Message
  | [] => .error (.misuse .emptyMessage)
  | status :: rest =>
    if Status.isData status then .error (.misuse .statusExpected)
    else if Status.isVoice status then ofVoice status rest
    else if status = Status.metadata then ofMetadata rest
    else if status = Status.sysex then .ok (sysex rest)
    else if status = Status.escape then .ok (escape rest)
    else .error (.misuse .systemMessage)

end Message

/-- How a message is to be made. -/
inductive Draft
  | bytes (given : List UInt8)
  | metadata (kind : UInt8) (payload : List UInt8)
  | text (kind : UInt8) (words : String)
  | tempo (microseconds : Nat)
  | timeSignature (signature : TimeSignature)
  | endOfTrack
deriving DecidableEq, Repr

def Draft.message : Draft → Except Fault Message
  | bytes given => Message.ofBytes given
  | metadata kind payload => Message.ofPayload kind payload
  | text kind words => Message.ofText kind words
  | tempo microseconds => Message.ofTempo microseconds
  | timeSignature signature => Message.ofTimeSignature signature
  | endOfTrack => .ok Message.endOfTrack

end MidiFile
