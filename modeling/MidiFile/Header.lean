import MidiFile.Narrow
import MidiFile.Bytes.Decode

/-! # Headers

The header of a file says how its tracks belong together and what a tick is: a part of a quarter
note, whose length the tempo sets, or a part of a film frame, whose length is fixed.
-/

namespace MidiFile

/-- How the tracks of a file belong together. -/
inductive Format
  /-- One track holds everything. -/
  | single
  /-- The tracks are played at the same time. -/
  | simultaneous
  /-- Each track is a song of its own. -/
  | sequential
deriving DecidableEq, Repr

namespace Format

def code : Format → Nat
  | single => 0
  | simultaneous => 1
  | sequential => 2

def ofCode? : Nat → Option Format
  | 0 => some single
  | 1 => some simultaneous
  | 2 => some sequential
  | _ => none

theorem ofCode?_code (format : Format) : ofCode? format.code = some format := by cases format <;> rfl

/-- The format of a song that has come to the given count of tracks: a single track has no company. -/
def forTracks (format : Format) (tracks : Nat) : Format :=
  if format = single && 1 < tracks then simultaneous else format

def read : Decode Format := do
  match ofCode? (← Decode.word 2) with
  | some format => return format
  | none => Decode.fail (.unsupported .trackFormat)

end Format

/-- The film frames of a second. The third is 29.97 and goes by 29. -/
inductive FrameRate
  | film
  | video
  | colourVideo
  | thirty
deriving DecidableEq, Repr

namespace FrameRate

def toNat : FrameRate → Nat
  | film => 24
  | video => 25
  | colourVideo => 29
  | thirty => 30

def ofNat? : Nat → Option FrameRate
  | 24 => some film
  | 25 => some video
  | 29 => some colourVideo
  | 30 => some thirty
  | _ => none

theorem ofNat?_toNat (rate : FrameRate) : ofNat? rate.toNat = some rate := by cases rate <;> rfl

end FrameRate

/-- What a tick is: a part of a quarter note, or a part of a film frame. -/
inductive Division
  | metrical (ticksPerQuarter : Narrow 15)
  | timecode (rate : FrameRate) (resolution : UInt8)
deriving DecidableEq, Repr

namespace Division

/-- The ticks of a quarter note, when ticks are parts of one. -/
def ticksPerQuarter? : Division → Option Nat
  | metrical ticks => some ticks.toNat
  | timecode _ _ => none

/-- The film frames of a second, when ticks are parts of one. -/
def framesPerSecond? : Division → Option Nat
  | metrical _ => none
  | timecode rate _ => some rate.toNat

/-- The ticks of a film frame, when ticks are parts of one. -/
def resolution? : Division → Option Nat
  | metrical _ => none
  | timecode _ resolution => some resolution.toNat

/-- The division that a word stands for. Its top bit tells the two kinds apart; the upper byte of
    a timecode division is the frame rate below zero. -/
def ofWord (word : Nat) : Except Fault Division :=
  if word < 0x8000 then
    if word = 0 then .error (.unsupported .zeroTicksPerQuarter) else .ok (metrical (Narrow.truncate 15 word))
  else if word % 256 = 0 then .error (.unsupported .zeroResolution)
  else
    match FrameRate.ofNat? (256 - word / 256 % 256) with
    | some rate => .ok (timecode rate (UInt8.ofNat word))
    | none => .error (.unsupported .frameRate)

def read : Decode Division := do
  Decode.ofExcept (ofWord (← Decode.within .division (Decode.word 2)))

def encode : Division → List UInt8
  | metrical ticks => Bytes.word 2 ticks.toNat
  | timecode rate resolution => [UInt8.ofNat (256 - rate.toNat), resolution]

end Division

/-- A header without the count of tracks, which the tracks themselves give. -/
structure Header where
  format : Format
  division : Division
deriving DecidableEq, Repr

namespace Header

def read : Decode (Header × Nat) := do
  let format ← Format.read
  let trackCount ← Decode.word 2
  let division ← Division.read
  return (⟨format, division⟩, trackCount)

/-- The content of a header chunk. -/
def encode (header : Header) (trackCount : Nat) : List UInt8 :=
  Bytes.word 2 header.format.code ++ Bytes.word 2 trackCount ++ header.division.encode

end Header

end MidiFile
