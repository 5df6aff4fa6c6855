import MidiFile.Proofs.Event.Item
import MidiFile.Proofs.Message.Wire
import MidiFile.Track.Body

/-! # Events in order

The events of a track follow one another: each is at the tick of the one before and its delta time,
numbers count up, only the last may be the end of the track, and every message is well formed
(`InOrder`). Storing forgets where an event belongs and what its time in seconds is, and writes its
message in canonical form (`Event.stored`).
-/

namespace MidiFile

variable {S : Type}

/-- Each event is at the tick of the one before it and its delta time. -/
def Spaced (tick : Nat) : List (Event S) → Prop
  | [] => True
  | event :: rest => event.tick = tick + event.delta ∧ Spaced event.tick rest

/-- Events that follow one another from a tick on, the first with the given number, of which only the
    last may be the end of the track. -/
structure Regular (tick number : Nat) (events : List (Event S)) : Prop where
  spaced : Spaced tick events
  numbered : events.map (·.number?) = (List.range' number events.length).map some
  ends : events.Pairwise fun earlier _ => earlier.message.isEnd = false

/-- Events that follow one another from a tick on, the first with the given number. -/
structure InOrder (tick number : Nat) (events : List (Event S)) : Prop where
  spaced : Spaced tick events
  within : ∀ event ∈ events, event.tick ≤ greatestTick
  numbered : events.map (·.number?) = (List.range' number events.length).map some
  ends : events.Pairwise fun earlier _ => earlier.message.isEnd = false
  wellFormed : ∀ event ∈ events, event.message.WellFormed

section
variable {tick number : Nat} {event : Event S} {events rest : List (Event S)}

theorem InOrder.regular (inOrder : InOrder tick number events) : Regular tick number events :=
  ⟨inOrder.spaced, inOrder.numbered, inOrder.ends⟩

/-- What is in order beyond following one another is a matter of each event alone. -/
theorem inOrder_iff : InOrder tick number events ↔
    Regular tick number events ∧ ∀ event ∈ events, event.tick ≤ greatestTick ∧ event.message.WellFormed := by
  constructor
  · intro inOrder
    exact ⟨inOrder.regular, fun event member => ⟨inOrder.within event member, inOrder.wellFormed event member⟩⟩
  · rintro ⟨⟨spaced, numbered, ends⟩, formed⟩
    exact ⟨spaced, fun event member => (formed event member).1, numbered, ends, fun event member => (formed event member).2⟩

theorem regular_cons_iff : Regular tick number (event :: rest) ↔
    (event.tick = tick + event.delta ∧ event.number? = some number ∧ (rest ≠ [] → event.message.isEnd = false)) ∧
      Regular event.tick (number + 1) rest := by
  constructor
  · rintro ⟨⟨at_, spaced⟩, numbered, ends⟩
    obtain ⟨first, others⟩ := List.pairwise_cons.mp ends
    rw [List.length_cons, List.range'_succ, List.map_cons, List.map_cons, List.cons.injEq] at numbered
    refine ⟨⟨at_, numbered.1, ?_⟩, spaced, numbered.2, others⟩
    intro more
    obtain ⟨next, among⟩ := List.exists_mem_of_ne_nil _ more
    exact first next among
  · rintro ⟨⟨at_, number, first⟩, spaced, numbered, others⟩
    refine ⟨⟨at_, spaced⟩, ?_, List.pairwise_cons.mpr ⟨?_, others⟩⟩
    · rw [List.length_cons, List.range'_succ, List.map_cons, List.map_cons, number, numbered]
    · intro next among
      exact first (List.ne_nil_of_mem among)

theorem inOrder_cons_iff : InOrder tick number (event :: rest) ↔
    (event.tick = tick + event.delta ∧ event.tick ≤ greatestTick ∧ event.number? = some number ∧
      (rest ≠ [] → event.message.isEnd = false) ∧ event.message.WellFormed) ∧ InOrder event.tick (number + 1) rest := by
  rw [inOrder_iff, inOrder_iff, regular_cons_iff, List.forall_mem_cons]
  tauto

end

theorem inOrder_nil (tick number : Nat) : InOrder tick number ([] : List (Event S)) :=
  ⟨trivial, by simp, rfl, .nil, by simp⟩

/-- One more event behind others that are in order, none of them the end of the track. -/
theorem InOrder.concat {tick number : Nat} {events : List (Event S)} (inOrder : InOrder tick number events)
    (open_ : ∀ event ∈ events, event.message.isEnd = false) {last : Event S}
    (at_ : last.tick = events.getLast?.elim tick (·.tick) + last.delta) (within : last.tick ≤ greatestTick)
    (number? : last.number? = some (number + events.length)) (wellFormed : last.message.WellFormed) :
    InOrder tick number (events ++ [last]) := by
  induction events generalizing tick number with
  | nil => exact inOrder_cons_iff.mpr ⟨⟨at_, within, number?, fun none => absurd rfl none, wellFormed⟩, inOrder_nil _ _⟩
  | cons event rest ih =>
    obtain ⟨⟨atFirst, withinFirst, numberFirst, _, wellFormedFirst⟩, later⟩ := inOrder_cons_iff.mp inOrder
    obtain ⟨openFirst, openLater⟩ := List.forall_mem_cons.mp open_
    refine inOrder_cons_iff.mpr ⟨⟨atFirst, withinFirst, numberFirst, fun _ => openFirst, wellFormedFirst⟩,
      ih later openLater ?_ ?_⟩
    · rw [at_, List.getLast?_cons]
      cases rest.getLast? <;> rfl
    · rw [number?, List.length_cons]
      congr 1
      omega

/-- What an event looks like when it is stored and read. -/
def Event.stored (event : Event S) : Event S :=
  { event with message := event.message.canonical, track? := none, cached? := none }

namespace Event

theorem encode_ok_iff {event : Event S} {running? after? : Option UInt8} {bytes : List UInt8} :
    event.encode running? = .ok bytes after? ↔
      ∃ (delta : Vlq.Number) (body : List UInt8), delta.toNat = event.delta ∧ event.message.encode running? = .ok body ∧
        bytes = Vlq.encode delta ++ body ∧ after? = event.message.running? := by
  rw [encode]
  cases found : Narrow.ofNat? 28 event.delta with
  | none =>
    simp only [reduceCtorEq, false_iff, not_exists, not_and]
    intro delta _ same
    rw [← Narrow.ofNat?_eq_some_iff, found] at same
    cases same
  | some delta =>
    rw [Narrow.ofNat?_eq_some_iff] at found
    have only (other : Vlq.Number) : other.toNat = event.delta ↔ other = delta :=
      ⟨fun same => Narrow.ext (same.trans found.symm), fun same => same ▸ found⟩
    cases event.message.encode running? with
    | error fault => simp
    | ok body =>
      simp only [only, EStateM.Result.ok.injEq, exists_and_left, exists_eq_left, Except.ok.injEq, exists_eq_left']
      simp [eq_comm]

end Event

/-- A payload that is stored behind its length is not too long for that. -/
def Message.Storable : Message → Prop
  | .sysex payload | .escape payload => payload.length < 0x10000000
  | _ => True

theorem Message.exists_encode_iff {message : Message} {running? : Option UInt8} :
    (∃ bytes, message.encode running? = .ok bytes) ↔ message.Storable := by
  have block (payload : List UInt8) (status : UInt8) :
      (∃ bytes, ((Vlq.block payload).bind fun written => .ok (status :: written)) = .ok bytes) ↔
        payload.length < 0x10000000 := by
    simp only [bind_ok_iff, ← Vlq.exists_block_iff]
    constructor
    · rintro ⟨_, written, made, _⟩
      exact ⟨written, made⟩
    · rintro ⟨written, made⟩
      exact ⟨_, written, made, rfl⟩
  cases message with
  | voice status data => exact ⟨fun _ => trivial, fun _ => ⟨_, rfl⟩⟩
  | metadata kind field => exact ⟨fun _ => trivial, fun _ => ⟨_, rfl⟩⟩
  | sysex payload => exact block payload Status.sysex
  | escape payload => exact block payload Status.escape

/-- An event can be stored when there is a form of its delta time and its message can be. Whatever
    comes in front of it has no part in that. -/
theorem Event.exists_encode_iff {event : Event S} {running? : Option UInt8} :
    (∃ bytes after?, event.encode running? = .ok bytes after?) ↔ event.delta < 0x10000000 ∧ event.message.Storable := by
  constructor
  · rintro ⟨_, _, stored⟩
    obtain ⟨delta, body, same, encoded, _⟩ := encode_ok_iff.mp stored
    exact ⟨same ▸ delta.toNat_lt, Message.exists_encode_iff.mp ⟨body, encoded⟩⟩
  · rintro ⟨small, storable⟩
    obtain ⟨body, encoded⟩ := Message.exists_encode_iff.mpr storable
    exact ⟨_, _, encode_ok_iff.mpr ⟨⟨event.delta, small⟩, body, rfl, encoded, rfl, rfl⟩⟩

/-- What a reader takes for the running status is what the writer does, where the writer has one. -/
def RunsOn (written? read? : Option UInt8) : Prop := ∀ status, written? = some status → read? = some status

theorem runsOn_none (read? : Option UInt8) : RunsOn none read? := fun _ same => nomatch same

/-- What a stored event leaves as the running status, a reader takes for it. -/
theorem runsOn_leaves (mode : Mode) (message : Message) (running? : Option UInt8) :
    RunsOn message.running? (message.canonical.leaves mode running?) := by
  cases message with
  | voice status data => exact fun _ same => same
  | metadata kind field => exact runsOn_none _
  | sysex payload => exact runsOn_none _
  | escape payload => exact runsOn_none _

/-- A stored event among the bytes that were made of it. -/
def Event.item (event : Event S) (bytes : List UInt8) : Item := ⟨bytes, event.delta, event.message.canonical⟩

theorem Event.event_item {event : Event S} {tick number : Nat} (at_ : event.tick = tick)
    (here : event.number? = some number) (bytes : List UInt8) :
    (event.item bytes).event tick number = event.stored := by
  rw [Item.event, item, stored, at_, here]

/-- A stored event is one that can be read, whichever status runs on in front of it. -/
theorem Event.written_of_encode {event : Event S} (wellFormed : event.message.WellFormed)
    {written? read? after? : Option UInt8} {bytes : List UInt8} (runs : RunsOn written? read?)
    (stored : event.encode written? = .ok bytes after?) :
    (event.item bytes).Written read? := by
  obtain ⟨delta, message, same, encoded, rfl, rfl⟩ := encode_ok_iff.mp stored
  have isForm := Vlq.isForm_encode delta
  rw [item, ← same, ← Vlq.value_encode delta]
  rcases Message.spelled_of_encode wellFormed encoded with ⟨body, spelled, rfl⟩ | ⟨status, voice, spelled, runsHere⟩
  · rw [← Message.status_canonical]
    exact .stated isForm spelled
  · rw [voice] at spelled ⊢
    exact .running isForm spelled (runs status runsHere)

namespace Item.Written

variable {running? : Option UInt8} {item : Item}

theorem wellFormed (written : item.Written running?) : item.message.WellFormed := by
  obtain ⟨_, _, _, spelled, _⟩ := written.exists_spelled
  exact spelled.wellFormed

theorem stored_event (written : item.Written running?) (tick number : Nat) :
    (item.event tick number : Event S).stored = item.event tick number := by
  obtain ⟨_, _, _, spelled, _⟩ := written.exists_spelled
  rw [Event.stored, event, spelled.canonical_eq]

/-- What was read as an event can be stored, in at most twice its bytes. -/
theorem storable (written : item.Written running?) (tick number : Nat) (before? : Option UInt8) :
    ∃ bytes, (item.event tick number : Event S).encode before? = .ok bytes item.message.running? ∧
      bytes.length ≤ 2 * item.bytes.length := by
  obtain ⟨time, body, isForm, spelled, delta, enough⟩ := written.exists_spelled
  obtain ⟨stored, encoded, most⟩ := spelled.storable before?
  refine ⟨_, Event.encode_ok_iff.mpr ⟨⟨_, Vlq.value_lt isForm⟩, stored, delta, encoded, rfl, rfl⟩, ?_⟩
  have begun := isForm.length_pos
  have shorter := Vlq.length_trimmed_le time
  have room : stored.length ≤ body.length + 1 := most.length_le
  rw [List.length_append, Vlq.encode_eq_trimmed isForm rfl]
  omega

end Item.Written

end MidiFile
