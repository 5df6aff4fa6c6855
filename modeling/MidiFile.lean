import MidiFile.Journal.Line
import MidiFile.Message.Describe
import MidiFile.Song.Describe
import MidiFile.Text.Column
import MidiFile.Workspace.Run
import MidiFile.Proofs.TempoMap.Registration
import MidiFile.Proofs.Workspace.Session
import MidiFile.Proofs.Song.Edit
import MidiFile.Proofs.Track.Place
import MidiFile.Proofs.Song.Times
import MidiFile.Proofs.TempoMap.Log
import MidiFile.Proofs.Workspace.Logs
import MidiFile.Proofs.Vlq
import MidiFile.Proofs.Message.Wire
import MidiFile.Proofs.Track.Order
import MidiFile.Proofs.Track.Body
import MidiFile.Proofs.Chunk
import MidiFile.Proofs.Song.File
import MidiFile.Proofs.Track.Edit
import MidiFile.Proofs.Song.Sound
import MidiFile.Proofs.Song.RoundTrip
import MidiFile.Proofs.Song.Structure
import MidiFile.Proofs.TempoMap.References
import MidiFile.Proofs.Song.References
import MidiFile.Proofs.TempoMap.Ledger
import MidiFile.Proofs.Workspace.Ledgers
import MidiFile.Proofs.Song.Dependents
import MidiFile.Proofs.Message.Grammar
import MidiFile.Proofs.Track.Grammar
import MidiFile.Proofs.Event.Item
import MidiFile.Proofs.Song.Play
import MidiFile.Proofs.Song.Rebuild
import MidiFile.Proofs.Song.Strict
import MidiFile.Proofs.Song.Layout
import MidiFile.Proofs.Song.Cut
import MidiFile.Proofs.Song.Offsets
import MidiFile.Proofs.Song.Seek
import MidiFile.Proofs.Song.Saved
import MidiFile.Proofs.Song.Refusal
import MidiFile.Proofs.Track.Timeline
import MidiFile.Proofs.Song.Insertion
import MidiFile.Proofs.TempoMap.Commute
import MidiFile.Proofs.Song.Commute
import MidiFile.Proofs.Song.Frame
import MidiFile.Proofs.Event.Codec
import MidiFile.Proofs.Track.Shortest
import MidiFile.Proofs.Clock
import MidiFile.Proofs.TempoMap.Monotone
import MidiFile.Proofs.Song.Monotone
import MidiFile.Proofs.Rmid
import MidiFile.Proofs.Vlq.Codec
import MidiFile.Proofs.Song.Arithmetic
import MidiFile.Proofs.TempoMap.Ticks
import MidiFile.Proofs.Song.Divisors
import MidiFile.Proofs.Message.Accessors
import MidiFile.Proofs.Event.Stream
import MidiFile.Proofs.Song.Fault
