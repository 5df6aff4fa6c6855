import MidiFile.Song.Encode
import MidiFile.Song.Read

/-! # Songs in folders

Files and folders by name, as much of them as reading and saving a file can meet. Saving a song
encodes it first and then puts the file in place as a whole, so that a fault leaves whatever was
there. The folder may be missing, and so may the name, when the destination is a folder itself.
-/

namespace MidiFile

/-- What can be found under a name. -/
inductive Node
  | file (content : List UInt8)
  | folder
deriving DecidableEq, Repr

/-- The nodes of a folder. No two have the same name. -/
structure Folder where
  nodes : List (String × Node)
deriving DecidableEq, Repr

namespace Folder

def empty : Folder := ⟨[]⟩

def find? (folder : Folder) (name : String) : Option Node := folder.nodes.lookup name

/-- The content of a file; a folder has none. -/
def content? (folder : Folder) (name : String) : Option (List UInt8) :=
  match folder.find? name with
  | some (.file content) => some content
  | _ => none

def names (folder : Folder) : List String := folder.nodes.map Prod.fst

/-- Put a file under a name, in place of the file that is there. A folder does not make way. -/
def replace? (folder : Folder) (name : String) (content : List UInt8) : Option Folder :=
  match folder.find? name with
  | some .folder => none
  | some (.file _) =>
    some ⟨folder.nodes.map fun node => if node.1 == name then (name, .file content) else node⟩
  | none => some ⟨folder.nodes ++ [(name, .file content)]⟩

end Folder

namespace Song

variable {S : Type} [Clock S] [Workers]

def load (mode : Mode) (identity : Nat) (folder : Folder) (name : String) : Report S (Song S) :=
  match folder.content? name with
  | none => Report.fail (Fault.device.within .load)
  | some bytes => read mode identity bytes

/-- What saving a song leaves: the song as encoding left it, and the folder. -/
structure Saved (S : Type) where
  song : Song S
  folder? : Option Folder
deriving DecidableEq, Repr

/-- Save a song under a name in a folder. -/
def save (folder? : Option Folder) (name? : Option String) (song : Song S) : Report S Unit × Saved S :=
  match encode song with
  | .error fault song => (Report.fail fault, ⟨song, folder?⟩)
  | .ok bytes song =>
    match name? with
    | none => (Report.fail (.misuse .fileNameMissing), ⟨song, folder?⟩)
    | some name =>
      match folder?.bind (·.replace? name bytes) with
      | none => (Report.fail (Fault.device.within .save), ⟨song, folder?⟩)
      | some folder => (Report.note [.saved song.tracks.length bytes.length], ⟨song, some folder⟩)

end Song

end MidiFile
