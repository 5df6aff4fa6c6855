import MidiFile.Song.Read
import MidiFile.Proofs.Rows

/-! # What a song that was read is made of

A file that was read came out of its wrapper, its chunks made an outline, and each body of the
outline made a track (`read_ok_iff`), all of them or none.
-/

namespace MidiFile

variable {S : Type}

namespace Song

@[simp] theorem result_readBody (mode : Mode) (bytes : List UInt8) :
    (readBody mode bytes : Report S (Body S)).result = Body.read mode bytes := by
  rw [readBody]
  rw [Report.result_bind, Report.result_ofExcept]
  cases Body.read mode bytes <;> rfl

theorem result_readBodies [Workers] (mode : Mode) (size : Nat) (bodies : List (List UInt8)) :
    (readBodies mode size bodies : Report S (List (Body S))).result =
      Workers.collect size (bodies.map (Body.read mode)) := by
  simp only [readBodies, List.map_map, Function.comp_def, result_readBody]

variable [Clock S]

/-- The song that the bodies of an outline make. -/
def ofBodies (identity : Nat) (outline : Outline) (bodies : List (Body S)) : Song S :=
  ofTracks identity outline.header (outline.warnings ++ (endsAdded bodies).map .endAdded) (bodies.map Body.track)

variable [Workers]

/-- Reading goes in steps, each on the result of the one before. -/
theorem result_read (mode : Mode) (identity : Nat) (bytes : List UInt8) :
    (read mode identity bytes : Report S (Song S)).result =
      (Rmid.unwrap bytes).bind fun file =>
        (Outline.ofChunks mode (Chunks.scan file) : Report S Outline).result.bind fun outline =>
          (Workers.collect file.length (outline.bodies.map (Body.read mode))).map (ofBodies identity outline) := by
  simp only [read, Report.result_bind, Report.result_ofExcept, Report.result_note, Report.result_pure,
    result_readBodies]
  rfl

theorem read_ok_iff {mode : Mode} {identity : Nat} {bytes : List UInt8} {song : Song S} :
    (read mode identity bytes).result = .ok song ↔
      ∃ file outline bodies, Rmid.unwrap bytes = .ok file ∧
        (Outline.ofChunks mode (Chunks.scan file) : Report S Outline).result = .ok outline ∧
        List.Forall₂ (fun body read => Body.read mode body = .ok read) outline.bodies bodies ∧
        song = ofBodies identity outline bodies := by
  simp only [result_read, bind_ok_iff, map_ok_iff, Workers.collect_ok_iff, List.mapM_map, Function.comp_def, id_eq,
    ← mapM_ok_iff, exists_and_left, eq_comm (a := song)]

end Song

end MidiFile
