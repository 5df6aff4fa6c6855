import MidiFile.Journal
import MidiFile.Text.Lossy
import MidiFile.Text.Unprintable

/-! # Records as lines

A record is written as its level, its wording and its fields, each field with its name. A field
that may be missing says so. How a time in seconds is written is for the reader of the journal to
choose.
-/

namespace MidiFile.Journal

/-- A field that may be missing. -/
def optionText (text? : Option String) : String :=
  match text? with
  | some text => "Some(" ++ text ++ ")"
  | none => "None"

def signatureText (signature : TimeSignature) : String :=
  let numerator := signature.numerator.toNat
  let denominator := signature.denominator.toNat
  let clocks := signature.clocksPerClick.toNat
  let notes := signature.thirtySecondsPerQuarter.toNat
  "TimeSignature \x7b " ++
    s!"numerator: {numerator}, denominator: {denominator}, clocks_per_click: {clocks}, notes_per_note: {notes}" ++ " \x7d"

/-- A record: what it says and its fields. -/
def content {S : Type} (secondsText : S → String) : Record S → String × List (String × String)
  | .opened format tracks entries bytes =>
    ("loaded midi file", [("format", toString format), ("tracks", toString tracks),
      ("tempo_entries", toString entries), ("bytes", toString bytes)])
  | .saved tracks bytes => ("saved midi file", [("tracks", toString tracks), ("bytes", toString bytes)])
  | .chunkSkipped name => ("skipping unknown chunk", [("id", Text.quoted (Text.lossy name))])
  | .bytesIgnored count => ("ignoring trailing data after the last chunk", [("bytes", toString count)])
  | .tracksIgnored count => ("ignoring track chunks beyond the declared count", [("count", toString count)])
  | .eventsIgnored bytes => ("ignoring data after the end of track event", [("bytes", toString bytes)])
  | .endMissing track => ("track does not end with an end of track event", [("track_number", toString track)])
  | .seekTick tick => ("seeking", [("pulses", toString tick)])
  | .seekSeconds seconds => ("seeking", [("seconds", secondsText seconds)])
  | .seekEvent track event =>
    ("seeking to event", [("track_number", toString track), ("event_number", toString event)])
  | .registered entry tick tempo? signature? =>
    ("registered tempo map entry", [("id", toString entry), ("time_pulses", toString tick),
      ("tempo", optionText (tempo?.map toString)), ("time_signature", optionText (signature?.map signatureText))])
  | .acquired entry references =>
    ("acquired tempo map entry", [("id", toString entry), ("ref_count", toString references)])
  | .released entry references =>
    ("released tempo map entry", [("id", toString entry), ("ref_count", toString references)])
  | .evicted entry => ("evicted tempo map entry", [("id", toString entry)])

def line {S : Type} (secondsText : S → String) (record : Record S) : String :=
  let (wording, fields) := content secondsText record
  record.level.name ++ " " ++ wording ++ String.join (fields.map fun (name, value) => " " ++ name ++ "=" ++ value)

end MidiFile.Journal
