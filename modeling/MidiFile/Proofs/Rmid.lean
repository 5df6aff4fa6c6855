import MidiFile.Proofs.Chunk
import MidiFile.Proofs.Song.RoundTrip

/-! # Wrappers around files

A container is a row of chunks, one of which holds the file (`Rmid.Container`). A chunk is found where
it was put, with the byte that pads an odd content and without it where the bytes end, so the reader
steps over every chunk in front of the file and comes upon the file itself (`Rmid.unwrap_container`).
Nothing of the container is left in the song: reading it goes exactly as reading the file does
(`Song.read_container`).
-/

namespace MidiFile

namespace Rmid

/-- What a chunk of a container starts with, its name and the length of its content. -/
def head (name : List UInt8) (length : Nat) : List UInt8 := name ++ (Bytes.word 4 length).reverse

/-- A chunk as a container stores it, with a byte behind a content of odd length. -/
def Part.encode (part : Part) (pad : UInt8) : List UInt8 :=
  head part.name part.content.length ++ part.content ++ if part.content.length % 2 = 1 then [pad] else []

theorem length_head {name : List UInt8} (named : name.length = 4) (length : Nat) : (head name length).length = 8 := by
  rw [head, List.length_append, List.length_reverse, Bytes.length_word, named]

/-- A chunk has the content that its length gives it, or what there is of it. -/
theorem part?_head {name : List UInt8} {length : Nat} (named : name.length = 4) (fits : length < 0x100000000)
    (rest : List UInt8) :
    part? (head name length ++ rest) = some (⟨name, rest.take length⟩, rest.drop (length + length % 2)) := by
  have eight := length_head named length
  have enough : ¬ ((head name length ++ rest).take 8).length < 8 := by
    rw [List.take_left' eight, eight]
    exact Nat.lt_irrefl 8
  have inFront : (head name length ++ rest).take 4 = name := by rw [head, List.append_assoc, List.take_left' named]
  have counted : Bytes.littleEndian (((head name length ++ rest).drop 4).take 4) = length := by
    have four : (Bytes.word 4 length).reverse.length = 4 := by rw [List.length_reverse, Bytes.length_word]
    rw [head, List.append_assoc, List.drop_left' named, List.take_left' four, Bytes.littleEndian, List.reverse_reverse,
      Bytes.bigEndian_word]
    exact Nat.mod_eq_of_lt fits
  simp only [part?, if_neg enough, inFront, counted, List.drop_left' eight, Nat.add_assoc,
    ← List.drop_drop]

/-- A whole chunk is found, and the bytes go on right behind it. -/
theorem part?_encode {part : Part} (named : part.name.length = 4) (fits : part.content.length < 0x100000000) (pad : UInt8)
    (rest : List UInt8) : part? (part.encode pad ++ rest) = some (part, rest) := by
  have padded : (part.content ++ if part.content.length % 2 = 1 then [pad] else []).length =
      part.content.length + part.content.length % 2 := by
    split <;> simp <;> omega
  rw [Part.encode, List.append_assoc, List.append_assoc, part?_head named fits, List.take_left, ← List.append_assoc,
    List.drop_left' padded]

theorem partsFrom_next {bytes rest : List UInt8} {part : Part} (before : List Part) (found : part? bytes = some (part, rest)) :
    partsFrom before bytes = partsFrom (part :: before) rest := by
  rw [partsFrom]
  split <;> simp_all

/-- Chunks that were found stay in front of those that come behind them. -/
theorem prefix_partsFrom (before : List Part) (bytes : List UInt8) : before.reverse <+: partsFrom before bytes := by
  fun_induction partsFrom before bytes with
  | case1 before bytes exhausted => exact List.prefix_refl _
  | case2 before bytes part rest found shorter ih =>
    rw [List.reverse_cons] at ih
    exact (List.prefix_append _ _).trans ih

/-- Behind whole chunks the row goes on. -/
theorem partsFrom_encode {row : List (Part × UInt8)}
    (whole : ∀ stored ∈ row, stored.1.name.length = 4 ∧ stored.1.content.length < 0x100000000) (before : List Part)
    (rest : List UInt8) :
    partsFrom before (row.flatMap (fun stored => stored.1.encode stored.2) ++ rest) =
      partsFrom ((row.map Prod.fst).reverse ++ before) rest := by
  induction row generalizing before with
  | nil => rfl
  | cons first row ih =>
    obtain ⟨⟨named, fits⟩, others⟩ := List.forall_mem_cons.mp whole
    rw [List.flatMap_cons, List.append_assoc, partsFrom_next before (part?_encode named fits first.2 _), ih others,
      List.map_cons, List.reverse_cons, List.append_assoc]
    rfl

/-- A container with a file in it. The length that is declared for the file may be another than its own,
    and `behind` is all that comes behind the file, from the byte that pads it on. -/
structure Container where
  size : Nat
  before : List (Part × UInt8)
  declared : Nat
  file : List UInt8
  behind : List UInt8

namespace Container

variable {container : Container}

/-- The content of the main chunk. -/
def content (container : Container) : List UInt8 :=
  form ++ (container.before.flatMap (fun stored => stored.1.encode stored.2) ++
    (head dataName container.declared ++ (container.file ++ container.behind)))

/-- The container as it is stored. -/
def bytes (container : Container) : List UInt8 := head mainName container.size ++ container.content

/-- The size of the container reaches as far as its content, no chunk in front of the file has its
    name, and the declared length is that of the file, or is larger where the file comes last. -/
structure WellFormed (container : Container) : Prop where
  reaches : container.content.length ≤ container.size
  sizeFits : container.size < 0x100000000
  named : ∀ stored ∈ container.before, stored.1.name.length = 4
  others : ∀ stored ∈ container.before, stored.1.name ≠ dataName
  contentFits : ∀ stored ∈ container.before, stored.1.content.length < 0x100000000
  declaredFits : container.declared < 0x100000000
  declared : container.declared = container.file.length ∨
    container.file.length < container.declared ∧ container.behind = []

theorem isWrapped_bytes (container : Container) : isWrapped container.bytes = true := by
  rw [isWrapped, bytes, head, List.append_assoc, List.take_left' (by rfl)]
  exact beq_self_eq_true mainName

theorem take_declared (formed : container.WellFormed) :
    (container.file ++ container.behind).take container.declared = container.file := by
  rcases formed.declared with exact | ⟨larger, last⟩
  · exact List.take_left' exact.symm
  · rw [last, List.append_nil, List.take_of_length_le (Nat.le_of_lt larger)]

theorem part?_bytes (formed : container.WellFormed) :
    ∃ rest, part? container.bytes = some (⟨mainName, container.content⟩, rest) := by
  have found : part? (head mainName container.size ++ container.content) = _ := part?_head rfl formed.sizeFits _
  rw [List.take_of_length_le formed.reaches] at found
  exact ⟨_, found⟩

/-- The first chunk by the name of the file is the file. -/
theorem find?_parts (formed : container.WellFormed) :
    (parts (container.content.drop 4)).find? (·.name == dataName) = some ⟨dataName, container.file⟩ := by
  have found : part? (head dataName container.declared ++ (container.file ++ container.behind)) = _ :=
    part?_head rfl formed.declaredFits _
  rw [take_declared formed] at found
  have row := partsFrom_encode (fun stored inRow => ⟨formed.named stored inRow, formed.contentFits stored inRow⟩) []
    (head dataName container.declared ++ (container.file ++ container.behind))
  rw [partsFrom_next _ found] at row
  obtain ⟨rest, split⟩ := prefix_partsFrom
    (⟨dataName, container.file⟩ :: ((container.before.map Prod.fst).reverse ++ []))
    ((container.file ++ container.behind).drop (container.declared + container.declared % 2))
  have none : (container.before.map Prod.fst).find? (·.name == dataName) = none := by
    simpa using formed.others
  rw [parts, content, List.drop_left' (by rfl), row, ← split]
  simp [List.find?_append, none]

end Container

/-- The file comes out of its container as it went in. -/
theorem unwrap_container {container : Container} (formed : container.WellFormed) :
    unwrap container.bytes = .ok container.file := by
  obtain ⟨rest, found⟩ := Container.part?_bytes formed
  have given : (Decode.take 4).run container.content = .ok form := rfl
  rw [unwrap, if_pos (Container.isWrapped_bytes container)]
  simp only [embedded, found, given, Container.find?_parts formed]
  rfl

end Rmid

namespace Song

variable {S : Type} [Clock S]

/-- The identity goes into a song as it is. -/
theorem result_read_copy [Workers] (mode : Mode) (identity other : Nat) (bytes : List UInt8) :
    (read mode other bytes : Report S (Song S)).result = (read mode identity bytes : Report S (Song S)).result.map (copy other) := by
  have made (outline : Outline) (bodies : List (Body S)) :
      ofBodies other outline bodies = (ofBodies identity outline bodies).copy other :=
    congrArg (fun song : Song S => { song with warnings := outline.warnings ++ (endsAdded bodies).map Warning.endAdded })
      (ofTracks_copy identity other outline.header (outline.warnings ++ (endsAdded bodies).map .endAdded)
        (bodies.map Body.track))
  simp only [result_read]
  cases Rmid.unwrap bytes with
  | error fault => rfl
  | ok file =>
    simp only [Except.bind]
    cases (Outline.ofChunks mode (Chunks.scan file) : Report S Outline).result with
    | error fault => rfl
    | ok outline =>
      simp only
      cases Workers.collect file.length (outline.bodies.map (Body.read mode)) with
      | error fault => rfl
      | ok bodies => exact congrArg Except.ok (made outline bodies)

/-- A file in a container that does not look like one itself is read as without the container, with
    the same result and the same records. Under another identity the song is the same but for that. -/
theorem read_container [Workers] (mode : Mode) (identity other : Nat) {container : Rmid.Container} (formed : container.WellFormed)
    (bare : Rmid.isWrapped container.file = false) :
    (read mode identity container.bytes : Report S (Song S)) = read mode identity container.file ∧
      (read mode other container.bytes : Report S (Song S)).result =
        (read mode identity container.file : Report S (Song S)).result.map (copy other) := by
  have same (identity : Nat) : (read mode identity container.bytes : Report S (Song S)) = read mode identity container.file := by
    have own : Rmid.unwrap container.file = .ok container.file := if_neg (by rw [bare]; exact Bool.false_ne_true)
    simp only [read, Rmid.unwrap_container formed, own]
  exact ⟨same identity, by rw [same other, result_read_copy mode identity other]⟩

/-- A file of odd length behind chunks of odd, of even and of no length, in front of its pad byte and one
    more chunk. -/
private def titledContainer : Rmid.Container where
  size := 80
  before :=
    [(⟨[0x44, 0x49, 0x53, 0x50], [1, 2, 3]⟩, 0), (⟨[0x4C, 0x49, 0x53, 0x54], [4, 5]⟩, 0),
      (⟨[0x4E, 0x4F, 0x4E, 0x45], []⟩, 0)]
  declared := 27
  file := [0x4D, 0x54, 0x68, 0x64, 0, 0, 0, 6, 0, 0, 0, 1, 0, 96, 0x4D, 0x54, 0x72, 0x6B, 0, 0, 0, 5, 0x80, 0, 0xFF, 0x2F, 0]
  behind := [0, 0x44, 0x4C, 0x53, 0x20, 1, 0, 0, 0, 7]

/-- The same file as the last thing there is, with a larger length than its own. -/
private def cutContainer : Rmid.Container := { titledContainer with declared := 40, behind := [] }

theorem read_container_titled :
    (titledContainer.WellFormed ∧ Rmid.isWrapped titledContainer.file = false ∧
      (read .strict 0 titledContainer.bytes : Report Float (Song Float)) = read .strict 0 titledContainer.file) ∧
    (cutContainer.WellFormed ∧ Rmid.isWrapped cutContainer.file = false ∧
      (read .strict 0 cutContainer.bytes : Report Float (Song Float)) = read .strict 0 cutContainer.file) ∧
    (read .strict 0 titledContainer.file : Report Float (Song Float)).result.toOption.map (·.tracks.length) = some 1 := by
  have whole : titledContainer.WellFormed := by constructor <;> decide
  have cut : cutContainer.WellFormed := by constructor <;> decide
  exact ⟨⟨whole, by decide, (read_container .strict 0 0 whole (by decide)).1⟩,
    ⟨cut, by decide, (read_container .strict 0 0 cut (by decide)).1⟩, by decide +kernel⟩

end Song

end MidiFile
