import MidiFile.Proofs.Song.Cursors
import MidiFile.Proofs.Song.RoundTrip

/-! # Where the next event is stored

A cursor counts the bytes of the events that it passes, one at a time and with a running status of
its own, and never sees the stored track. What it has counted is the bytes of the events behind it,
whatever was done to the song (`Track.cursorLaw_measures`). So the event that a cursor is at starts
in the stored track where the cursor says (`Song.session_offsets_stored`).
-/

namespace MidiFile

variable {S : Type}

namespace Event

/-- The count of bytes with one event more, and the running status behind it. -/
def count (front : Nat × Option UInt8) (event : Event S) : Nat × Option UInt8 :=
  (front.1 + (event.encodedSize front.2).1, (event.encodedSize front.2).2)

/-- The bytes that events take one behind the other, and the running status behind them. -/
def counted (events : List (Event S)) : Nat × Option UInt8 := events.foldl count (0, none)

theorem counted_concat (events : List (Event S)) (last : Event S) :
    counted (events ++ [last]) = count (counted events) last := by
  rw [counted, List.foldl_append]
  rfl

theorem counted_of_core {events others : List (Event S)} (same : others.map core = events.map core) :
    counted others = counted events := by
  -- Of an event no more is counted than its core.
  have own (events : List (Event S)) : counted events =
      (events.map core).foldl (fun front core => count front (⟨core.1, core.2.1, 0, none, none, none⟩ : Event S)) (0, none) := by
    rw [List.foldl_map]
    rfl
  rw [own, same, ← own]

/-- Counting comes to what is stored. -/
theorem foldl_count {events : List (Event S)} {running? after? : Option UInt8} {parts : List (List UInt8)}
    (stored : (events.mapM encode) running? = .ok parts after?) (size : Nat) :
    events.foldl count (size, running?) = (size + parts.flatten.length, after?) := by
  induction events generalizing running? parts size with
  | nil =>
    cases stored
    rfl
  | cons event rest ih =>
    obtain ⟨bytes, between?, others, first, later, rfl⟩ := encodeAll_cons_iff.mp stored
    have here : count (size, running?) event = (size + bytes.length, between?) := by
      simp [count, encodedSize, first]
    rw [List.foldl_cons, here, ih later, List.flatten_cons, List.length_append, Nat.add_assoc]

end Event

namespace Track

/-- The cursor has counted the bytes of the events that it has passed. -/
def Measures (track : Track S) : Prop := (track.cursor.offset, track.cursor.running?) = Event.counted track.behind

theorem behind_of_cores {track other : Track S} (cursor : other.cursor = track.cursor)
    (cores : other.events.map Event.core = track.events.map Event.core) :
    other.behind.map Event.core = track.behind.map Event.core := by
  have length : other.events.length = track.events.length := by simpa using congrArg List.length cores
  rw [behind, behind, List.map_take, List.map_take, cores, cursor, length]

/-- Playing an event puts it behind the cursor. -/
theorem behind_advance? {track after : Track S} {event : Event S} (done : track.advance? = some (event, after)) :
    after.behind = track.behind ++ [event] ∧
      (after.cursor.offset, after.cursor.running?) = Event.count (track.cursor.offset, track.cursor.running?) event := by
  obtain ⟨number, next, here, rfl⟩ := advance?_some done
  obtain ⟨inside, rfl⟩ := List.getElem?_eq_some_iff.mp here
  have front : track.behind = track.events.take number := by rw [behind, next]; rfl
  have whole : track.events.take number ++ [track.events[number]] = track.events.take (number + 1) :=
    (List.take_succ_eq_append_getElem inside).symm
  rw [front, whole]
  cases following : track.events[number + 1]? with
  | none =>
    rw [List.getElem?_eq_none_iff] at following
    simp [behind, cursorBehind, following, List.take_of_length_le following, Event.count]
  | some other => simp [behind, cursorBehind, following, Event.count]

theorem cursorLaw_measures : CursorLaw (S := S) Measures where
  rewound track := by
    cases events : track.events <;> simp [Measures, behind, rewind, events, Cursor.nowhere, Event.counted]
  advanced track event after measures done := by
    obtain ⟨behind, counted⟩ := behind_advance? done
    rw [Measures, counted, measures, behind, Event.counted_concat]
  blind track other measures cursor cores := by
    rw [Measures, cursor, measures, Event.counted_of_core (behind_of_cores cursor cores)]

/-- What a cursor has counted is the length of the parts of the stored track in front of it. -/
theorem Measures.offset_eq {track : Track S} (measures : track.Measures) {parts : List (List UInt8)} {after? : Option UInt8}
    (stored : (track.events.mapM Event.encode) none = .ok parts after?) :
    track.cursor.offset = (parts.take (track.cursor.next?.getD track.events.length)).flatten.length := by
  obtain ⟨between?, front⟩ := encodeAll_take stored (track.cursor.next?.getD track.events.length)
  have counted : Event.counted track.behind = _ := Event.foldl_count front 0
  rw [Measures, counted, Nat.zero_add] at measures
  exact congrArg Prod.fst measures

end Track

namespace Song

variable [Clock S]

/-- Wherever the cursor of a track stands, in a song of a session or after the track was taken out,
    it knows the tick of the next event, and if all events can be stored, one part each, then the
    stored track has the part of the next event, or its own end, where the cursor says. -/
theorem session_offsets_stored [Workers] (mode : Mode) (commands : List (Command S)) {track : Track S}
    (place : (∃ song ∈ (Workspace.session mode commands).songs, track ∈ song.tracks) ∨
      track ∈ (Workspace.session mode commands).tracks) :
    (∀ number, track.cursor.next? = some number →
      ∃ event, track.events[number]? = some event ∧ event.tick = track.cursor.tick) ∧
    ((∀ event ∈ track.events, ∃ running? bytes after?, event.encode running? = .ok bytes after?) →
      ∃ parts after?, (track.events.mapM Event.encode) none = .ok parts after? ∧
        parts.length = track.events.length ∧
        track.cursor.offset = (parts.take (track.cursor.next?.getD track.events.length)).flatten.length ∧
        (track.cursor.next? = none → track.cursor.offset = parts.flatten.length) ∧
        track.encode = if parts.flatten.length < 0x100000000 then .ok parts.flatten else .error (.misuse .chunkLength)) := by
  have keeps {law : Track S → Prop} (lawful : Track.CursorLaw law) : law track := by
    have kept := Workspace.session_keeps (lasting_obeys lawful mode) commands
    rcases place with ⟨song, member, among⟩ | removed
    · exact kept.songs song member track among
    · exact kept.tracks track removed
  refine ⟨keeps Track.cursorLaw_aligned, fun storable => ?_⟩
  obtain ⟨parts, after?, stored⟩ := exists_encodeAll_iff.mpr fun event member => by
    obtain ⟨running?, encoded⟩ := storable event member
    exact Event.exists_encode_iff.mp encoded
  have length := length_encodeAll stored
  have offset := (keeps Track.cursorLaw_measures).offset_eq stored
  refine ⟨parts, after?, stored, length, offset, fun exhausted => ?_, ?_⟩
  · rw [offset, exhausted, Option.getD_none, ← length, List.take_length]
  · simp only [Track.encode, EStateM.run, stored]

/-- Two notes, the second with the status of the first, which were both played, and what ends the first. -/
private def offsetCommands : List (Command Float) :=
  [.create, .change 0 (.addTrack .new), .change 0 (.addEvent 0 (.new (.bytes [0x90, 60, 64])) (.tick 0)),
    .change 0 (.addEvent 0 (.new (.bytes [0x90, 62, 64])) (.tick 96)),
    .change 0 (.addEvent 0 (.new (.bytes [0x80, 60, 0])) (.tick 192)), .change 0 .next, .change 0 .next]

theorem session_offsets_stored_running :
    ∃ song ∈ (Workspace.session .strict offsetCommands).songs, ∃ track ∈ song.tracks,
      track.cursor.next? = some 2 ∧ track.cursor.offset = 7 ∧ ∃ parts after?,
        (track.events.mapM Event.encode) none = .ok parts after? ∧ (parts.take 2).flatten.length = 7 := by
  obtain ⟨song, track, songs, tracks, next, offset, encoded⟩ :
      ∃ song track, (Workspace.session .strict offsetCommands).songs = [song] ∧ song.tracks = [track] ∧
        track.cursor.next? = some 2 ∧ track.cursor.offset = 7 ∧
        (track.events.map fun event => (event.delta, event.message)) =
          [(0, .voice 0x90 [60, 64]), (96, .voice 0x90 [62, 64]), (96, .voice 0x80 [60, 0])] :=
    ⟨_, _, rfl, rfl, rfl, rfl, rfl⟩
  have member : song ∈ (Workspace.session .strict offsetCommands).songs := songs ▸ List.mem_singleton_self song
  have among : track ∈ song.tracks := tracks ▸ List.mem_singleton_self track
  have storable : ∀ event ∈ track.events, ∃ running? bytes after?, event.encode running? = .ok bytes after? := by
    intro event inside
    have listed := List.mem_map_of_mem (f := fun event => (event.delta, event.message)) inside
    refine ⟨none, Event.exists_encode_iff.mpr ?_⟩
    simp only [encoded, List.mem_cons, Prod.mk.injEq, List.not_mem_nil, or_false] at listed
    rcases listed with ⟨delta, message⟩ | ⟨delta, message⟩ | ⟨delta, message⟩ <;>
      exact ⟨by rw [delta]; decide, by rw [message]; trivial⟩
  obtain ⟨parts, after?, stored, _, start, _⟩ :=
    (session_offsets_stored .strict offsetCommands (.inl ⟨song, member, among⟩)).2 storable
  refine ⟨song, member, track, among, next, offset, parts, after?, stored, ?_⟩
  rw [next, offset] at start
  exact start.symm

end Song

end MidiFile
