import MidiFile.Proofs.Song.RoundTrip

/-! # The shortest way to store a track

Storing leaves bytes out and adds none: a delta time and a length lose the bytes in front that add
nothing, and a status goes where it is the running one. A reader that has meta and system exclusive
messages end the running status is in step with the writer all along (`Message.leaves_strict`), so that
it never does without a status that the writer states. What is stored of a body that such a reader
accepted is therefore a part of it (`Body.Reads.encode_sublist`): no longer, and the same where it is as
long.
-/

namespace MidiFile

variable {S : Type}

/-- To a strict reader a message leaves the running status that it leaves to the writer. -/
theorem Message.leaves_strict (message : Message) (running? : Option UInt8) :
    message.leaves .strict running? = message.running? := by
  cases message <;> rfl

/-- An item is stored with no other bytes than it was read from, when the running status is the same. -/
theorem Item.Written.encode_sublist {running? : Option UInt8} {item : Item} (written : item.Written running?)
    (tick number : Nat) : ∃ bytes, (item.event tick number : Event S).encode running? = .ok bytes item.message.running? ∧
      bytes.Sublist item.bytes := by
  cases written with
  | @stated time body message isForm spelled =>
    obtain ⟨stored, encoded, part⟩ := spelled.storable running?
    refine ⟨_, Event.encode_ok_iff.mpr ⟨⟨_, Vlq.value_lt isForm⟩, stored, rfl, encoded, rfl, rfl⟩, ?_⟩
    rw [Vlq.encode_eq_trimmed isForm rfl]
    exact (Vlq.trimmed_sublist time).append part
  | @running time data status isForm spelled runs =>
    have encoded : (Message.voice status data).encode running? = .ok data := by rw [Message.encode, if_pos runs]
    refine ⟨_, Event.encode_ok_iff.mpr ⟨⟨_, Vlq.value_lt isForm⟩, data, rfl, encoded, rfl, rfl⟩, ?_⟩
    rw [Vlq.encode_eq_trimmed isForm rfl]
    exact (Vlq.trimmed_sublist time).append (.refl data)

/-- What a track is stored as, where its events can be stored one after the other. -/
theorem Track.encode_of_parts {track : Track S} {parts : List (List UInt8)} {after? : Option UInt8}
    (stored : (track.events.mapM Event.encode) none = .ok parts after?) :
    track.encode =
      if parts.flatten.length < 0x100000000 then .ok parts.flatten else .error (.misuse .chunkLength) := by
  unfold encode EStateM.run
  rw [stored]

namespace Body

variable {running? : Option UInt8} {tick : Nat} {raw rest : List UInt8} {items : List Item}

/-- Items that a strict reader takes from bytes are stored with no others. -/
theorem Reads.encode_sublist (reads : Reads .strict running? tick raw items rest) (number : Nat) :
    ∃ parts after?, ((Item.events tick number items : List (Event S)).mapM Event.encode) running? = .ok parts after? ∧
      (parts.flatten ++ rest).Sublist raw := by
  induction reads generalizing number with
  | exhausted => exact ⟨[], _, rfl, .refl _⟩
  | @last running? tick item rest written within isEnd =>
    obtain ⟨bytes, encoded, part⟩ := written.encode_sublist (S := S) (tick + item.delta) number
    refine ⟨[bytes], _, encodeAll_cons_iff.mpr ⟨bytes, _, [], encoded, rfl, rfl⟩, ?_⟩
    rw [List.flatten_singleton]
    exact part.append (.refl rest)
  | @next running? tick item items left rest written within open_ later ih =>
    obtain ⟨bytes, encoded, part⟩ := written.encode_sublist (S := S) (tick + item.delta) number
    obtain ⟨parts, after?, encodedLater, partLater⟩ := ih (number + 1)
    rw [Message.leaves_strict] at encodedLater
    refine ⟨bytes :: parts, after?, encodeAll_cons_iff.mpr ⟨bytes, _, parts, encoded, encodedLater, rfl⟩, ?_⟩
    rw [List.flatten_cons, List.append_assoc]
    exact part.append partLater

/-- The events of a body that a strict reader accepts are stored, unless even this takes more bytes than
    a chunk has room for, as a body that is no longer than the one that was read, and that is the same
    where it is as long. Reading it gives the same events again, so that no body with these events is
    shorter, and no other as short. -/
theorem encode_shortest {raw : List UInt8} {body : Body S} (done : Body.read .strict raw = .ok body) :
    ∃ bytes, body.track.encode = (if bytes.length < 0x100000000 then .ok bytes else .error (.misuse .chunkLength)) ∧
      (raw.length < 0x100000000 → body.track.encode = .ok bytes) ∧
      bytes.length ≤ raw.length ∧ (bytes.length = raw.length → bytes = raw) ∧
      Body.read .strict bytes = .ok { body with size := bytes.length } := by
  obtain ⟨inOrder, ended, same, _⟩ := of_read done
  obtain ⟨items, rest, parse, made⟩ := read_ok_iff.mp done
  obtain ⟨reads, strict⟩ := parse_iff.mp parse
  obtain ⟨isEnd, rfl⟩ := strict rfl
  rw [ofItems, if_pos isEnd] at made
  obtain ⟨parts, after?, encoded, part⟩ := reads.encode_sublist (S := S) 0
  rw [List.append_nil] at part
  have events : body.events = Item.events 0 0 items := by rw [made]
  have whole : body.endAdded = false ∧ body.ignored = 0 := by rw [made]; exact ⟨rfl, rfl⟩
  rw [← events] at encoded
  have stored : body.track.encode = _ := Track.encode_of_parts encoded
  refine ⟨parts.flatten, stored, ?_, part.length_le, part.eq_of_length, ?_⟩
  · intro fits
    rw [stored, if_pos (Nat.lt_of_le_of_lt part.length_le fits)]
  · have again := read_encode .strict inOrder ended encoded
    rw [map_eq_self same] at again
    rw [again, whole.1, whole.2]

/-- A note with a padded delta time, one that states the running status, and an end with a padded length. -/
private def wordyBody : List UInt8 := [0x80, 0, 0x90, 60, 64, 5, 0x90, 60, 0, 0, 0xFF, 0x2F, 0x80, 0]

private def wordyItems : List Item :=
  [⟨[0x80, 0, 0x90, 60, 64], 0, .voice 0x90 [60, 64]⟩, ⟨[5, 0x90, 60, 0], 5, .voice 0x90 [60, 0]⟩,
    ⟨[0, 0xFF, 0x2F, 0x80, 0], 0, .metadata 0x2F [0]⟩]

theorem encode_shortest_wordy :
    ∃ body : Body Float, Body.read .strict wordyBody = .ok body ∧
      ∃ bytes, body.track.encode = .ok bytes ∧ bytes = [0, 0x90, 60, 64, 5, 60, 0, 0, 0xFF, 0x2F, 0] ∧
        bytes.length ≤ wordyBody.length ∧ (bytes.length = wordyBody.length → bytes = wordyBody) := by
  have padded : Vlq.IsForm [0x80, 0] := ⟨[0x80], 0, rfl, by decide, by simp, by decide⟩
  have row : Item.IsRow .strict none wordyItems :=
    ⟨.stated padded (.voice rfl rfl (by simp)), .stated (Vlq.isForm_byte (by decide)) (.voice rfl rfl (by simp)),
      .stated (Vlq.isForm_byte (by decide)) (.metadata padded rfl), trivial⟩
  have parse : Parse .strict wordyBody wordyItems [] :=
    ⟨rfl, row, by decide, by decide, .inl ⟨⟨_, rfl, rfl⟩, fun _ => rfl⟩⟩
  have done : Body.read .strict wordyBody = .ok (ofItems wordyBody wordyItems [] : Body Float) :=
    read_ok_iff.mpr ⟨wordyItems, [], parse, rfl⟩
  have stored : (ofItems wordyBody wordyItems [] : Body Float).track.encode =
      .ok [0, 0x90, 60, 64, 5, 60, 0, 0, 0xFF, 0x2F, 0] := rfl
  obtain ⟨bytes, _, fits, shorter, same, _⟩ := encode_shortest done
  have encoded := fits (by decide)
  have bytes_eq := Except.ok.inj (encoded.symm.trans stored)
  exact ⟨_, done, bytes, encoded, bytes_eq, shorter, same⟩

end Body

end MidiFile
