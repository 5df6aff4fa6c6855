import MidiFile.Song
import MidiFile.Text.Column

/-! # Songs in words

One line about a song, with its length to the thousandth of a second, and one for each warning
that reading it left.
-/

namespace MidiFile

/-- A warning in words. -/
def Warning.text : Warning → String
  | .endAdded track => s!"track {track} does not end with an end-of-track event"
  | .tracksIgnored count => s!"{count} track chunks beyond the declared track count were ignored"
  | .bytesIgnored count => s!"{count} bytes of trailing data were ignored"

def Division.describe : Division → String
  | .metrical ticks =>
    let ticks := ticks.toNat
    s!"{ticks} ppqn"
  | .timecode rate resolution =>
    let frames := rate.toNat
    let parts := resolution.toNat
    s!"{frames} fps, {parts} subframes per frame"

def Song.describe (song : Song Float) : String :=
  let code := song.format.code
  let count := song.tracks.length
  let plural := if count = 1 then "" else "s"
  let division := song.division.describe
  let seconds := Text.fixed 3 song.length
  let ticks := song.endTick
  s!"format {code}, {count} track{plural}, {division}, length {seconds} seconds ({ticks} pulses)"

end MidiFile
