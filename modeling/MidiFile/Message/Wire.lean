import MidiFile.Message.Basic

/-! # Messages as they are stored

In a track a message follows its delta time. A voice message leaves its status out when it is
the running one, the status of the voice message before it. A meta message stands as it is; a
system exclusive message has its length behind its status.
-/

namespace MidiFile

/-- The running status after an event of the given status was read. The standard has meta and
    system exclusive messages end it; a lenient reader lets it run on. -/
def Mode.runningAfter (mode : Mode) (status : UInt8) (running : Option UInt8) : Option UInt8 :=
  if Status.isVoice status then some status
  else if status = Status.metadata ∨ status = Status.sysex ∨ status = Status.escape then
    match mode with
    | .strict => none
    | .lenient => running
  else running

/-- The running status after a message was written: its own if it goes to a channel. -/
def Message.running? : Message → Option UInt8
  | .voice status _ => some status
  | _ => none

namespace Message

def readVoice (status : UInt8) : Decode Message := do
  let data ← Decode.within .voiceMessage (Decode.take (Status.dataLength status))
  Decode.ensure (data.all Status.isData) (.malformed .dataByteNotSevenBit)
  return voice status data

/-- Read the kind and the payload of a meta message. Its length is kept in the shortest form. -/
def readMetadata : Decode Message := do
  let kind ← Decode.within .metaType Decode.byte
  let payload ← Decode.within .metaData Vlq.readBlock
  let field ← Decode.ofExcept (Vlq.block payload)
  return metadata kind field

/-- Read what follows the status of a message. -/
def readBody (status : UInt8) : Decode Message :=
  if Status.isVoice status then readVoice status
  else if status = Status.metadata then readMetadata
  else if status = Status.sysex then do return sysex (← Decode.within .systemExclusive Vlq.readBlock)
  else if status = Status.escape then do return escape (← Decode.within .systemExclusive Vlq.readBlock)
  else if Status.isData status then Decode.fail (.malformed .statusNotRunning)
  else if status.toNat < 0xF8 then Decode.fail (.malformed .systemCommon)
  else Decode.fail (.malformed .systemRealtime)

theorem takes_readVoice (status : UInt8) : (readVoice status).Takes :=
  Decode.takes_bind (Decode.takes_within (Decode.takes_take _)) fun _ =>
    Decode.takes_bind (Decode.takes_ensure _ _) fun _ => Decode.takes_pure _

theorem takes_readMetadata : readMetadata.Takes :=
  Decode.takes_bind (Decode.takes_within Decode.takes_byte) fun _ =>
    Decode.takes_bind (Decode.takes_within Vlq.takes_readBlock) fun _ =>
      Decode.takes_bind (Decode.takes_ofExcept _) fun _ => Decode.takes_pure _

theorem takes_readBody (status : UInt8) : (readBody status).Takes := by
  have payload (make : List UInt8 → Message) :
      (do return make (← Decode.within .systemExclusive Vlq.readBlock) : Decode Message).Takes :=
    Decode.takes_bind (Decode.takes_within Vlq.takes_readBlock) fun _ => Decode.takes_pure _
  unfold readBody
  repeat' split
  · exact takes_readVoice status
  · exact takes_readMetadata
  · exact payload sysex
  · exact payload escape
  all_goals exact Decode.takes_fail _

/-- The bytes of a message after events that left the given running status. -/
def encode (running : Option UInt8) : Message → Except Fault (List UInt8)
  | voice status data => .ok (if running = some status then data else status :: data)
  | metadata kind field => .ok (Status.metadata :: kind :: field)
  | sysex payload => return Status.sysex :: (← Vlq.block payload)
  | escape payload => return Status.escape :: (← Vlq.block payload)

end Message

end MidiFile
