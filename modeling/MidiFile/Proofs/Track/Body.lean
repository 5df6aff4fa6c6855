import MidiFile.Proofs.Track.Grammar
import MidiFile.Proofs.Track.Order

/-! # Track bodies, stored and read

The events of a body that was stored are read back, by a reader of either kind (`read_encode`).
Those of a body that was read are in order and end with the end of the track, and they can be
stored in at most twice the bytes that they took, and four more for an end that was added
(`of_read`).
-/

namespace MidiFile

variable {S : Type}

theorem encodeAll_cons_iff {event : Event S} {rest : List (Event S)} {running? after? : Option UInt8}
    {parts : List (List UInt8)} :
    ((event :: rest).mapM Event.encode) running? = .ok parts after? ↔
      ∃ bytes between? others, event.encode running? = .ok bytes between? ∧
        (rest.mapM Event.encode) between? = .ok others after? ∧ parts = bytes :: others := by
  simp only [List.mapM_cons, step_bind_ok_iff]
  constructor
  · rintro ⟨bytes, between?, first, others, _, later, made⟩
    cases made
    exact ⟨bytes, between?, others, first, later, rfl⟩
  · rintro ⟨bytes, between?, others, first, later, rfl⟩
    exact ⟨bytes, between?, first, others, _, later, rfl⟩

theorem encodeAll_concat {events : List (Event S)} {last : Event S} {running? between? after? : Option UInt8}
    {parts : List (List UInt8)} {bytes : List UInt8}
    (front : (events.mapM Event.encode) running? = .ok parts between?) (back : last.encode between? = .ok bytes after?) :
    ((events ++ [last]).mapM Event.encode) running? = .ok (parts ++ [bytes]) after? := by
  induction events generalizing running? parts with
  | nil =>
    cases front
    exact encodeAll_cons_iff.mpr ⟨bytes, after?, [], back, rfl, rfl⟩
  | cons event rest ih =>
    obtain ⟨first, mid?, others, encoded, later, rfl⟩ := encodeAll_cons_iff.mp front
    exact encodeAll_cons_iff.mpr ⟨first, mid?, others ++ [bytes], encoded, ih later, rfl⟩

theorem encodeAll_take {events : List (Event S)} {running? after? : Option UInt8} {parts : List (List UInt8)}
    (stored : (events.mapM Event.encode) running? = .ok parts after?) (count : Nat) :
    ∃ between?, ((events.take count).mapM Event.encode) running? = .ok (parts.take count) between? := by
  induction events generalizing running? parts count with
  | nil =>
    cases stored
    exact ⟨after?, by cases count <;> rfl⟩
  | cons event rest ih =>
    obtain ⟨bytes, between?, others, first, later, rfl⟩ := encodeAll_cons_iff.mp stored
    cases count with
    | zero => exact ⟨running?, rfl⟩
    | succ count =>
      obtain ⟨end?, front⟩ := ih later count
      exact ⟨end?, encodeAll_cons_iff.mpr ⟨bytes, between?, _, first, front, rfl⟩⟩

theorem length_encodeAll {events : List (Event S)} {running? after? : Option UInt8} {parts : List (List UInt8)}
    (stored : (events.mapM Event.encode) running? = .ok parts after?) : parts.length = events.length := by
  induction events generalizing running? parts with
  | nil =>
    cases stored
    rfl
  | cons event rest ih =>
    obtain ⟨bytes, between?, others, _, later, rfl⟩ := encodeAll_cons_iff.mp stored
    rw [List.length_cons, List.length_cons, ih later]

/-- Events can be stored one after the other when each of them can be stored. -/
theorem exists_encodeAll_iff {events : List (Event S)} {running? : Option UInt8} :
    (∃ parts after?, (events.mapM Event.encode) running? = .ok parts after?) ↔
      ∀ event ∈ events, event.delta < 0x10000000 ∧ event.message.Storable := by
  induction events generalizing running? with
  | nil => exact ⟨fun _ => List.forall_mem_nil _, fun _ => ⟨[], running?, rfl⟩⟩
  | cons event rest ih =>
    simp only [encodeAll_cons_iff, List.forall_mem_cons]
    constructor
    · rintro ⟨_, after?, bytes, between?, others, first, later, _⟩
      exact ⟨Event.exists_encode_iff.mp ⟨bytes, between?, first⟩, ih.mp ⟨others, after?, later⟩⟩
    · rintro ⟨here, storable⟩
      obtain ⟨bytes, between?, first⟩ := Event.exists_encode_iff.mpr here
      obtain ⟨others, after?, later⟩ := ih.mpr storable
      exact ⟨_, after?, bytes, between?, others, first, later, rfl⟩

/-- The last of the events is the end of the track. -/
def Ended (events : List (Event S)) : Prop := ∃ ending ∈ events.getLast?, ending.message.isEnd = true

theorem ended_cons_iff {event : Event S} {rest : List (Event S)} :
    Ended (event :: rest) ↔ rest = [] ∧ event.message.isEnd = true ∨ rest ≠ [] ∧ Ended rest := by
  cases rest with
  | nil => simp [Ended]
  | cons next rest => simp [Ended, List.getLast?_cons]

namespace Body

/-- Events that were stored can be read, by a reader of either kind, as what was stored of them. -/
theorem exists_reads_of_encode (mode : Mode) {events : List (Event S)} {tick number : Nat}
    (inOrder : InOrder tick number events) (ended : Ended events) {written? read? after? : Option UInt8}
    {parts : List (List UInt8)} (runs : RunsOn written? read?)
    (stored : (events.mapM Event.encode) written? = .ok parts after?) :
    ∃ items, Reads mode read? tick parts.flatten items [] ∧ Item.events tick number items = events.map Event.stored ∧
      Item.ended items = true := by
  induction events generalizing tick number written? read? parts with
  | nil =>
    obtain ⟨ending, last, _⟩ := ended
    cases last
  | cons event rest ih =>
    obtain ⟨bytes, between?, others, first, later, rfl⟩ := encodeAll_cons_iff.mp stored
    obtain ⟨⟨at_, within, here, onlyLast, wellFormed⟩, inOrderLater⟩ := inOrder_cons_iff.mp inOrder
    have written := event.written_of_encode wellFormed runs first
    have same : (event.item bytes).message.isEnd = event.message.isEnd := Message.isEnd_canonical event.message
    have made := event.event_item at_ here bytes
    rw [at_] at within inOrderLater
    rcases ended_cons_iff.mp ended with ⟨rfl, isEnd⟩ | ⟨more, endedLater⟩
    · cases later
      refine ⟨[event.item bytes], .last written within (same.trans isEnd), ?_, ?_⟩
      · exact congrArg (· :: []) made
      · simp [Item.ended, same, isEnd]
    · obtain ⟨_, _, _, _, _, rfl⟩ := Event.encode_ok_iff.mp first
      obtain ⟨items, reads, events, endedItems⟩ :=
        ih inOrderLater endedLater (runsOn_leaves mode event.message read?) later
      have open_ := same.trans (onlyLast more)
      refine ⟨event.item bytes :: items, .next written within open_ reads, ?_, ?_⟩
      · rw [Item.events, List.map_cons, ← made, ← events]
        rfl
      · rw [Item.ended_cons_of_open open_, endedItems]

/-- The body of a track that ends is read back as its events, by a reader of either kind. -/
theorem read_encode (mode : Mode) {events : List (Event S)} (inOrder : InOrder 0 0 events) (ended : Ended events)
    {after? : Option UInt8} {parts : List (List UInt8)} (stored : (events.mapM Event.encode) none = .ok parts after?) :
    Body.read mode parts.flatten = .ok (⟨events.map Event.stored, parts.flatten.length, false, 0⟩ : Body S) := by
  obtain ⟨items, reads, same, isEnd⟩ := exists_reads_of_encode mode inOrder ended (runsOn_none none) stored
  exact (read_of_reads reads).mpr ⟨fun _ => ⟨isEnd, rfl⟩, by rw [ofItems, if_pos isEnd, same]; rfl⟩

section
variable {mode : Mode} {running? : Option UInt8} {tick : Nat} {raw rest : List UInt8} {items : List Item}

theorem Reads.inOrder (reads : Reads mode running? tick raw items rest) (number : Nat) :
    InOrder tick number (Item.events tick number items : List (Event S)) := by
  induction reads generalizing number with
  | exhausted => exact inOrder_nil _ _
  | last written within isEnd =>
    exact inOrder_cons_iff.mpr ⟨⟨rfl, within, rfl, fun more => absurd rfl more, written.wellFormed⟩, inOrder_nil _ _⟩
  | next written within open_ later ih =>
    exact inOrder_cons_iff.mpr ⟨⟨rfl, within, rfl, fun _ => open_, written.wellFormed⟩, ih _⟩

theorem Reads.stored (reads : Reads mode running? tick raw items rest) (number : Nat) :
    ∀ event ∈ (Item.events tick number items : List (Event S)), event.stored = event := by
  induction reads generalizing number with
  | exhausted => exact List.forall_mem_nil _
  | last written within isEnd => exact List.forall_mem_singleton.mpr (written.stored_event _ _)
  | next written within open_ later ih => exact List.forall_mem_cons.mpr ⟨written.stored_event _ _, ih _⟩

/-- The items can be stored, in at most twice their bytes. -/
theorem Reads.storable (reads : Reads mode running? tick raw items rest) (number : Nat) (before? : Option UInt8) :
    ∃ parts after?, ((Item.events tick number items : List (Event S)).mapM Event.encode) before? = .ok parts after? ∧
      parts.flatten.length + 2 * rest.length ≤ 2 * raw.length := by
  induction reads generalizing number before? with
  | exhausted => exact ⟨[], before?, rfl, Nat.le_refl _⟩
  | @last running? tick item rest written within isEnd =>
    obtain ⟨bytes, encoded, most⟩ := written.storable (tick + item.delta) number before?
    refine ⟨[bytes], _, encodeAll_cons_iff.mpr ⟨bytes, _, [], encoded, rfl, rfl⟩, ?_⟩
    rw [List.flatten_singleton, List.length_append]
    omega
  | @next running? tick item items left rest written within open_ later ih =>
    obtain ⟨bytes, encoded, most⟩ := written.storable (tick + item.delta) number before?
    obtain ⟨parts, after?, encodedLater, mostLater⟩ := ih (number + 1) item.message.running?
    refine ⟨bytes :: parts, after?, encodeAll_cons_iff.mpr ⟨bytes, _, parts, encoded, encodedLater, rfl⟩, ?_⟩
    rw [List.flatten_cons, List.length_append, List.length_append]
    omega

end

theorem ended_events {tick number : Nat} {items : List Item} (isEnd : Item.ended items = true) :
    Ended (Item.events tick number items : List (Event S)) := by
  obtain ⟨last, among, isLast⟩ := Item.ended_iff.mp isEnd
  have messages := congrArg List.getLast? (Item.map_message_events (S := S) tick number items)
  rw [List.getLast?_map, List.getLast?_map, Option.mem_def.mp among] at messages
  obtain ⟨ending, found, same⟩ := Option.map_eq_some_iff.mp messages
  exact ⟨ending, found, same ▸ isLast⟩

theorem open_events {items : List Item} (open_ : ∀ item ∈ items, item.message.isEnd = false) (tick number : Nat) :
    ∀ event ∈ (Item.events tick number items : List (Event S)), event.message.isEnd = false := by
  intro event member
  have listed := List.mem_map_of_mem (f := (·.message)) member
  rw [Item.map_message_events] at listed
  obtain ⟨item, inside, same⟩ := List.mem_map.mp listed
  exact same ▸ open_ item inside

theorem inOrder_addedEnd {events : List (Event S)} (inOrder : InOrder 0 0 events)
    (open_ : ∀ event ∈ events, event.message.isEnd = false) : InOrder 0 0 (events ++ [addedEnd events]) := by
  refine inOrder.concat open_ rfl ?_ (by simp [addedEnd]) ⟨[], rfl⟩
  cases last : events.getLast? with
  | none => simp [addedEnd, last]
  | some event => simpa [addedEnd, last] using inOrder.within event (List.mem_of_getLast? last)

theorem encode_addedEnd (events : List (Event S)) (running? : Option UInt8) :
    (addedEnd events).encode running? = .ok [0, 0xFF, 0x2F, 0] none :=
  Event.encode_ok_iff.mpr ⟨Narrow.zero 28, [0xFF, 0x2F, 0], rfl, rfl, by decide, rfl⟩

/-- What was read of a body can be stored, with its end, in at most twice the bytes of the body and
    four more. -/
theorem of_read {mode : Mode} {bytes : List UInt8} {body : Body S} (done : Body.read mode bytes = .ok body) :
    InOrder 0 0 body.events ∧ Ended body.events ∧ (∀ event ∈ body.events, event.stored = event) ∧
      ∃ parts after?, (body.events.mapM Event.encode) none = .ok parts after? ∧
        parts.flatten.length ≤ 2 * bytes.length + 4 := by
  obtain ⟨items, rest, parse, rfl⟩ := read_ok_iff.mp done
  have reads := (parse_iff.mp parse).1
  have inOrder := reads.inOrder (S := S) 0
  have stored := reads.stored (S := S) 0
  obtain ⟨parts, after?, encoded, most⟩ := reads.storable (S := S) 0 none
  rcases parse.ends with ⟨isEnd, _⟩ | ⟨_, _, open_⟩
  · rw [← Item.ended_iff] at isEnd
    rw [ofItems, if_pos isEnd]
    exact ⟨inOrder, ended_events isEnd, stored, parts, after?, encoded, by omega⟩
  · have notEnd : ¬ Item.ended items = true := by
      rw [Item.ended_iff]
      rintro ⟨last, among, isLast⟩
      rw [open_ last (List.mem_of_getLast? among)] at isLast
      cases isLast
    rw [ofItems, if_neg notEnd]
    have openEvents := open_events (S := S) open_ 0 0
    refine ⟨inOrder_addedEnd inOrder openEvents, ⟨_, List.getLast?_concat, rfl⟩, ?_,
      parts ++ [[0, 0xFF, 0x2F, 0]], none, encodeAll_concat encoded (encode_addedEnd _ _), ?_⟩
    · exact List.forall_mem_append.mpr ⟨stored, List.forall_mem_singleton.mpr rfl⟩
    · rw [List.flatten_append, List.length_append]
      simp only [List.flatten_cons, List.flatten_nil, List.append_nil, List.length_cons, List.length_nil]
      omega

end Body

end MidiFile
