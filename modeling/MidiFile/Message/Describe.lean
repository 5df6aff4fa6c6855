import MidiFile.Message.Basic
import MidiFile.Text.Column

/-! # Messages in words

One line for each message, for a reader. Channels are counted from one here, as instruments
show them.
-/

namespace MidiFile.Message

def textName (kind : UInt8) : String :=
  match kind.toNat with
  | 0x01 => "Text"
  | 0x02 => "Copyright"
  | 0x03 => "Sequence/Track Name"
  | 0x04 => "Instrument"
  | 0x05 => "Lyric"
  | 0x06 => "Marker"
  | 0x07 => "Cue Point"
  | 0x08 => "Program Name"
  | _ => "Device (Port) Name"

/-- A voice message in words. A data byte that is not there counts as zero. -/
def describeVoice (status : UInt8) (data : List UInt8) : String :=
  let channel := status.toNat % 16 + 1
  let first := (data.getD 0 0).toNat
  let second := (data.getD 1 0).toNat
  match status.toNat / 16 with
  | 0x8 => s!"Note Off, channel {channel}, note {first}, velocity {second}"
  | 0x9 => s!"Note On, channel {channel}, note {first}, velocity {second}"
  | 0xA => s!"Aftertouch, channel {channel}, note {first}, pressure {second}"
  | 0xB => s!"Controller, channel {channel}, controller {first}, value {second}"
  | 0xC => s!"Program Change, channel {channel}, program {first}"
  | 0xD => s!"Channel Pressure, channel {channel}, pressure {first}"
  | _ =>
    let bend : Int := second * 128 + first - 0x2000
    s!"Pitch Wheel, channel {channel}, value {bend}"

/-- A tempo in words, with the quarter notes of a minute to two places. -/
def describeTempo (tempo : Nat) : String :=
  let beats := Text.fixed 2 (Float.ofNat 60000000 / Float.ofNat tempo)
  s!"Tempo: {tempo} microseconds per quarter note, {beats} BPM"

def describeTimeSignature (signature : TimeSignature) : String :=
  let numerator := signature.numerator.toNat
  let denominator := signature.denominator.toNat
  let clocks := signature.clocksPerClick.toNat
  let notes := signature.thirtySecondsPerQuarter.toNat
  s!"Time Signature: {numerator}/{denominator}, {clocks} clocks per click, {notes} notated 32nd notes per quarter note"

/-- A key in words. The sharps are a signed byte, flats being negative. -/
def describeKey (sharps mode : UInt8) : String :=
  let count := if sharps.toNat < 128 then sharps.toNat else 256 - sharps.toNat
  let accidentals := if sharps.toNat < 128 then "sharps" else "flats"
  let scale := if mode = 0 then "major" else "minor"
  s!"Key Signature: {count} {accidentals}, {scale}"

/-- A byte as two capital hexadecimal digits. -/
def hexByte (byte : UInt8) : String :=
  let digit (value : Nat) : Char := if value < 10 then Char.ofNat (48 + value) else Char.ofNat (55 + value)
  String.ofList [digit (byte.toNat / 16), digit (byte.toNat % 16)]

/-- A meta message that is neither text nor tempo nor time signature in words. One that is too
    short for its kind is described like one of an unknown kind. -/
def describeOther (kind : UInt8) (payload : List UInt8) : String :=
  match kind.toNat, payload with
  | 0x00, high :: low :: _ =>
    let number := Bytes.bigEndian [high, low]
    s!"Sequence number: {number}"
  | 0x20, channel :: _ =>
    let channel := channel.toNat
    s!"Channel Prefix: {channel}"
  | 0x21, socket :: _ =>
    let socket := socket.toNat
    s!"MIDI Port: {socket}"
  | 0x2F, _ => "End Of Track"
  | 0x54, hours :: minutes :: seconds :: frames :: parts :: _ =>
    let hours := hours.toNat % 32
    let minutes := minutes.toNat
    let seconds := seconds.toNat
    let frames := frames.toNat
    let parts := parts.toNat
    s!"SMPTE Offset: {hours}:{minutes}:{seconds}, frame {frames}.{parts}"
  | 0x59, sharps :: mode :: _ => describeKey sharps mode
  | 0x7F, payload =>
    let length := payload.length
    s!"Proprietary (aka Sequencer) Event, length {length}"
  | _, payload =>
    let name := hexByte kind
    let length := payload.length
    s!"Unknown Event: FF 0x{name} len {length}"

def describeMetadata (kind : UInt8) (message : Message) : String :=
  match message.text?, message.tempo?, message.timeSignature? with
  | some text, _, _ => textName kind ++ ": " ++ text
  | none, some tempo, _ => describeTempo tempo
  | none, none, some signature => describeTimeSignature signature
  | none, none, none => describeOther kind (message.payload?.getD [])

def describe (message : Message) : String :=
  match message with
  | voice status data => describeVoice status data
  | metadata kind _ => describeMetadata kind message
  | sysex payload | escape payload =>
    let length := payload.length
    s!"SysEx, {length} bytes"

end MidiFile.Message
