import MidiFile.Proofs.Event.Stream

/-! # The grammar of track bodies

A body is a row of items, each a delta time and a message, and bytes behind the end of the track
(`Body.Parse`). An item may leave out its status where that is the running one (`Item.Written`), and
its message decides on the running status of the next (`Item.IsRow`). The grammar says so of the
whole body; `Body.Reads` says it of one item after the other, as a reader takes them. A body is read
exactly when it is in the grammar; it is so in one way, and what is read are its items
(`Body.read_exactly_grammar`).
-/

namespace MidiFile

variable {S : Type}

namespace Item

/-- Items that are written one after the other, given the running status in front of them. -/
def IsRow (mode : Mode) : Option UInt8 → List Item → Prop
  | _, [] => True
  | running?, item :: rest => Written running? item ∧ IsRow mode (item.message.leaves mode running?) rest

/-- The sum of the delta times. -/
def span : List Item → Nat
  | [] => 0
  | item :: rest => item.delta + span rest

/-- Whether the last of the items is the end of the track. -/
def ended (items : List Item) : Bool := items.getLast?.any (·.message.isEnd)

/-- The events that the items are, from a tick and a number on. -/
def events (tick number : Nat) : List Item → List (Event S)
  | [] => []
  | item :: rest => item.event (tick + item.delta) number :: events (tick + item.delta) (number + 1) rest

theorem ended_iff {items : List Item} :
    ended items = true ↔ ∃ item ∈ items.getLast?, item.message.isEnd = true := by
  simp [ended, Option.any_eq_true]

theorem ended_cons_of_open {item : Item} (open_ : item.message.isEnd = false) (rest : List Item) :
    ended (item :: rest) = ended rest := by
  cases rest with
  | nil => simpa [ended] using open_
  | cons next rest => simp [ended, List.getLast?_cons]

theorem map_message_events (tick number : Nat) (items : List Item) :
    (events tick number items : List (Event S)).map (·.message) = items.map (·.message) := by
  induction items generalizing tick number with
  | nil => rfl
  | cons item rest ih => rw [events, List.map_cons, ih, List.map_cons, event]

end Item

namespace Body

/-- Items are read from the bytes, given the running status and the tick in front of them. This stops
    at the end of the track or of the bytes. -/
inductive Reads (mode : Mode) : Option UInt8 → Nat → List UInt8 → List Item → List UInt8 → Prop
  | exhausted {running? : Option UInt8} {tick : Nat} : Reads mode running? tick [] [] []
  | last {running? : Option UInt8} {tick : Nat} {item : Item} {rest : List UInt8} (written : item.Written running?)
      (within : tick + item.delta ≤ greatestTick) (isEnd : item.message.isEnd = true) :
      Reads mode running? tick (item.bytes ++ rest) [item] rest
  | next {running? : Option UInt8} {tick : Nat} {item : Item} {items : List Item} {left rest : List UInt8}
      (written : item.Written running?) (within : tick + item.delta ≤ greatestTick) (open_ : item.message.isEnd = false)
      (later : Reads mode (item.message.leaves mode running?) (tick + item.delta) left items rest) :
      Reads mode running? tick (item.bytes ++ left) (item :: items) rest

theorem next?_written {mode : Mode} {running? : Option UInt8} {tick number : Nat} {item : Item}
    (written : item.Written running?) (within : tick + item.delta ≤ greatestTick) (left : List UInt8) :
    EventStream.next? mode ⟨⟨item.bytes ++ left, running?⟩, tick, number, false⟩ =
      some (.ok (item.event (tick + item.delta) number : Event S),
        ⟨⟨left, item.message.leaves mode running?⟩, tick + item.delta, number + 1, false⟩) := by
  simp [EventStream.next?, EventStream.unread, written.bytes_ne_nil, Wire.read_written mode written, within, Item.event]

theorem exists_of_next? {mode : Mode} {stream after : EventStream} {event : Event S}
    (voiced : Message.Voiced stream.running?) (found : stream.next? mode = some (.ok event, after)) :
    ∃ item, Item.Written stream.running? item ∧ stream.unread = item.bytes ++ after.unread ∧
      stream.tick + item.delta ≤ greatestTick ∧ item.message = event.message ∧
      after.running? = item.message.leaves mode stream.running? ∧ after.tick = stream.tick + item.delta ∧
      after.failed = false ∧ Message.Voiced after.running? := by
  cases EventStream.gives_of_next? found with
  | event read within =>
    obtain ⟨item, written, whole, rfl, rfl, running, voicedAfter⟩ := Wire.exists_written voiced read
    exact ⟨item, written, whole, within, rfl, running, rfl, rfl, voicedAfter⟩

theorem scanFrom_next {mode : Mode} {before : List (Event S)} {stream after : EventStream} {event : Event S}
    (next : stream.next? mode = some (.ok event, after)) :
    scanFrom mode before stream =
      if event.message.isEnd then .ok ⟨(event :: before).reverse, true, after.unread⟩
      else scanFrom mode (event :: before) after := by
  rw [scanFrom]
  split
  · rename_i exhausted
    rw [next] at exhausted
    cases exhausted
  · rename_i fault _ failed
    rw [next] at failed
    cases failed
  · rename_i found left here
    rw [next] at here
    cases here
    rfl

theorem scanFrom_exhausted (mode : Mode) (before : List (Event S)) (running? : Option UInt8) (tick number : Nat) :
    scanFrom mode before ⟨⟨[], running?⟩, tick, number, false⟩ = .ok ⟨before.reverse, false, []⟩ := by
  have none : EventStream.next? (S := S) mode ⟨⟨[], running?⟩, tick, number, false⟩ = none := rfl
  rw [scanFrom]
  split
  · rfl
  · rename_i failed
    rw [none] at failed
    cases failed
  · rename_i found
    rw [none] at found
    cases found

/-- What can be read is read, as the events that the items are. -/
theorem scanFrom_reads {mode : Mode} {running? : Option UInt8} {tick : Nat} {raw rest : List UInt8} {items : List Item}
    (reads : Reads mode running? tick raw items rest) (before : List (Event S)) (number : Nat) :
    scanFrom mode before ⟨⟨raw, running?⟩, tick, number, false⟩ =
      .ok ⟨before.reverse ++ Item.events tick number items, Item.ended items, rest⟩ := by
  induction reads generalizing before number with
  | exhausted =>
    rw [scanFrom_exhausted]
    simp [Item.events, Item.ended]
  | @last running? tick item rest written within isEnd =>
    rw [scanFrom_next (next?_written written within rest), Item.event, if_pos isEnd]
    simp [Item.events, Item.ended, Item.event, isEnd, EventStream.unread]
  | @next running? tick item items left rest written within open_ later ih =>
    rw [scanFrom_next (next?_written written within left), if_neg (by simp [Item.event, open_]), ih,
      Item.ended_cons_of_open open_]
    simp [Item.events]

/-- Nothing else can be read. -/
theorem exists_reads {mode : Mode} {before : List (Event S)} {stream : EventStream} {found : Scan S}
    (going : stream.failed = false) (voiced : Message.Voiced stream.running?)
    (done : scanFrom mode before stream = .ok found) :
    ∃ items, Reads mode stream.running? stream.tick stream.unread items found.unread := by
  fun_induction scanFrom mode before stream with
  | case1 before stream none =>
    cases done
    -- A stream that met no fault gives no event only where nothing is left.
    have empty : stream.unread = [] := (EventStream.ended_of_next? none).resolve_left (by simp [going])
    rw [empty]
    exact ⟨[], .exhausted⟩
  | case2 before stream fault left failed => cases done
  | case3 before stream event after next shorter isEnd =>
    cases done
    obtain ⟨item, written, whole, within, message, _⟩ := exists_of_next? voiced next
    rw [whole]
    exact ⟨[item], .last written within (message ▸ isEnd)⟩
  | case4 before stream event after next shorter notEnd ih =>
    obtain ⟨item, written, whole, within, message, running, tick, goingAfter, voicedAfter⟩ :=
      exists_of_next? voiced next
    obtain ⟨items, later⟩ := ih goingAfter voicedAfter done
    have open_ : item.message.isEnd = false := by rw [message]; simpa using notEnd
    rw [whole]
    rw [running, tick] at later
    exact ⟨item :: items, .next written within open_ later⟩

/-- What is read of bytes is settled by them. -/
theorem Reads.unique {mode : Mode} {running? : Option UInt8} {tick : Nat} {raw raw' rest rest' : List UInt8}
    {items items' : List Item} (reads : Reads mode running? tick raw items rest)
    (reads' : Reads mode running? tick raw' items' rest') (same : raw = raw') : items = items' ∧ rest = rest' := by
  -- The bytes of the second reading have a name of their own, so that it can be taken apart, too.
  induction reads generalizing raw' items' with
  | exhausted =>
    cases reads' with
    | exhausted => exact ⟨rfl, rfl⟩
    | last written' _ _ | next written' _ _ _ =>
      exact absurd (List.append_eq_nil_iff.mp same.symm).1 written'.bytes_ne_nil
  | last written within isEnd =>
    cases reads' with
    | exhausted => exact absurd (List.append_eq_nil_iff.mp same).1 written.bytes_ne_nil
    | last written' _ _ =>
      obtain ⟨rfl, rfl⟩ := written.unique written' same
      exact ⟨rfl, rfl⟩
    | next written' _ open_ _ =>
      obtain ⟨rfl, _⟩ := written.unique written' same
      exact absurd isEnd (by simp [open_])
  | next written within open_ later ih =>
    cases reads' with
    | exhausted => exact absurd (List.append_eq_nil_iff.mp same).1 written.bytes_ne_nil
    | last written' _ isEnd =>
      obtain ⟨rfl, _⟩ := written.unique written' same
      exact absurd isEnd (by simp [open_])
    | next written' _ _ later' =>
      obtain ⟨rfl, rfl⟩ := written.unique written' same
      obtain ⟨rfl, rfl⟩ := ih later' rfl
      exact ⟨rfl, rfl⟩

/-- Reading stops behind the end of the track or behind all bytes. -/
theorem reads_iff {mode : Mode} {running? : Option UInt8} {tick : Nat} {raw rest : List UInt8} {items : List Item}
    (room : tick ≤ greatestTick) :
    Reads mode running? tick raw items rest ↔
      raw = items.flatMap (·.bytes) ++ rest ∧ Item.IsRow mode running? items ∧ tick + Item.span items ≤ greatestTick ∧
        (∀ item ∈ items.dropLast, item.message.isEnd = false) ∧ (Item.ended items = true ∨ rest = []) := by
  constructor
  · intro reads
    induction reads with
    | exhausted => exact ⟨rfl, trivial, room, by simp, .inr rfl⟩
    | last written within isEnd =>
      exact ⟨by simp, ⟨written, trivial⟩, within, by simp, .inl (by simp [Item.ended, isEnd])⟩
    | @next running? tick item items left rest written within open_ later ih =>
      obtain ⟨rfl, row, withinLater, openLater, ends⟩ := ih within
      refine ⟨by simp, ⟨written, row⟩, by rw [Item.span]; omega, ?_, by rwa [Item.ended_cons_of_open open_]⟩
      cases items with
      | nil => simp
      | cons next items => exact List.forall_mem_cons.mpr ⟨open_, openLater⟩
  · rintro ⟨rfl, row, within, openFront, ends⟩
    induction items generalizing running? tick with
    | nil =>
      obtain rfl : rest = [] := by simpa [Item.ended] using ends
      exact .exhausted
    | cons item items ih =>
      obtain ⟨written, rowLater⟩ := row
      rw [Item.span, ← Nat.add_assoc] at within
      have here : tick + item.delta ≤ greatestTick := Nat.le_trans (Nat.le_add_right _ _) within
      rw [List.flatMap_cons, List.append_assoc]
      cases isEnd : item.message.isEnd with
      | true =>
        have alone : items = [] := by
          cases items with
          | nil => rfl
          | cons next items => exact absurd isEnd (by simp [openFront item])
        subst alone
        exact .last written here isEnd
      | false =>
        rw [Item.ended_cons_of_open isEnd] at ends
        have openLater : ∀ item ∈ items.dropLast, item.message.isEnd = false := by
          cases items with
          | nil => simp
          | cons next items => exact (List.forall_mem_cons.mp openFront).2
        exact .next written here isEnd (ih here rowLater within openLater ends)

/-! ## Bodies -/

/-- How a body is in the grammar. Its items are a row with no running status in front, the delta times
    add up to a tick that there is room for, and no item but the last ends the track. If the last one does,
    a lenient reader allows any bytes behind it; only such a reader does without an end, and then
    there are no other bytes. -/
structure Parse (mode : Mode) (raw : List UInt8) (items : List Item) (rest : List UInt8) : Prop where
  whole : raw = items.flatMap (·.bytes) ++ rest
  row : Item.IsRow mode none items
  within : Item.span items ≤ greatestTick
  open_ : ∀ item ∈ items.dropLast, item.message.isEnd = false
  ends : (∃ item ∈ items.getLast?, item.message.isEnd = true) ∧ (mode = .strict → rest = []) ∨
    mode = .lenient ∧ rest = [] ∧ ∀ item ∈ items, item.message.isEnd = false

/-- What is made of a body: its items as events and, where none of them ends the track, one more that does. -/
def ofItems (raw : List UInt8) (items : List Item) (rest : List UInt8) : Body S :=
  let events := Item.events 0 0 items
  if Item.ended items then ⟨events, raw.length, false, rest.length⟩
  else ⟨events ++ [addedEnd events], raw.length, true, 0⟩

theorem parse_iff {mode : Mode} {raw rest : List UInt8} {items : List Item} :
    Parse mode raw items rest ↔
      Reads mode none 0 raw items rest ∧ (mode = .strict → Item.ended items = true ∧ rest = []) := by
  rw [reads_iff (Nat.zero_le _), Nat.zero_add, Item.ended_iff]
  constructor
  · rintro ⟨whole, row, within, open_, ⟨isEnd, strict⟩ | ⟨rfl, none, _⟩⟩
    · exact ⟨⟨whole, row, within, open_, .inl isEnd⟩, fun isStrict => ⟨isEnd, strict isStrict⟩⟩
    · exact ⟨⟨whole, row, within, open_, .inr none⟩, nofun⟩
  · rintro ⟨⟨whole, row, within, open_, ends⟩, strict⟩
    refine ⟨whole, row, within, open_, ?_⟩
    by_cases isEnd : ∃ item ∈ items.getLast?, item.message.isEnd = true
    · exact .inl ⟨isEnd, fun isStrict => (strict isStrict).2⟩
    · refine .inr ⟨?_, ends.resolve_left isEnd, ?_⟩
      · cases mode with
        | lenient => rfl
        | strict => exact absurd (strict rfl).1 isEnd
      · intro item member
        rcases List.eq_nil_or_concat' items with rfl | ⟨front, last, rfl⟩
        · cases member
        · rw [List.dropLast_concat] at open_
          rcases List.mem_append.mp member with inFront | isLast
          · exact open_ item inFront
          · rw [List.mem_singleton.mp isLast]
            simpa using isEnd

theorem read_of_reads {mode : Mode} {raw rest : List UInt8} {items : List Item} {body : Body S}
    (reads : Reads mode none 0 raw items rest) :
    Body.read mode raw = .ok body ↔
      (mode = .strict → Item.ended items = true ∧ rest = []) ∧ body = ofItems raw items rest := by
  have scanned : scan mode raw = .ok (⟨Item.events 0 0 items, Item.ended items, rest⟩ : Scan S) :=
    scanFrom_reads reads [] 0
  have whole : Body.read mode raw = (do
      Fault.ensure (mode == .lenient || Item.ended items && rest.isEmpty)
        (.malformed (if Item.ended items then .eventsAfterEnd else .endMissing))
      return (ofItems raw items rest : Body S)) := by
    rw [read, scanned]
    cases isEnd : Item.ended items <;> simp [ofItems, isEnd, bind, Except.bind]
  rw [whole]
  constructor
  · intro done
    obtain ⟨_, allowed, made⟩ := bind_ok_iff.mp done
    cases made
    rw [ensure_ok_iff] at allowed
    refine ⟨?_, rfl⟩
    rintro rfl
    simpa using allowed
  · rintro ⟨allowed, rfl⟩
    refine bind_ok_iff.mpr ⟨(), ensure_ok_iff.mpr ?_, rfl⟩
    cases mode with
    | lenient => rfl
    | strict => simpa using allowed rfl

theorem read_ok_iff {mode : Mode} {raw : List UInt8} {body : Body S} :
    Body.read mode raw = .ok body ↔ ∃ items rest, Parse mode raw items rest ∧ body = ofItems raw items rest := by
  simp only [parse_iff]
  constructor
  · intro done
    obtain ⟨⟨events, isEnded, rest⟩, scanned, _⟩ := bind_ok_iff.mp done
    obtain ⟨items, reads⟩ := exists_reads rfl (EventStream.voiced_ofBytes raw) scanned
    obtain ⟨allowed, made⟩ := (read_of_reads reads).mp done
    exact ⟨items, rest, ⟨reads, allowed⟩, made⟩
  · rintro ⟨items, rest, ⟨reads, allowed⟩, made⟩
    exact (read_of_reads reads).mpr ⟨allowed, made⟩

/-- A body is read exactly when it is in the grammar. It is so in one way, and the events that are read
    before an end is added are the items of that. -/
theorem read_exactly_grammar (mode : Mode) (raw : List UInt8) :
    (∀ body : Body S, Body.read mode raw = .ok body ↔
      ∃ items rest, Parse mode raw items rest ∧ body = ofItems raw items rest) ∧
    (∀ items rest, Parse mode raw items rest →
      scan mode raw = .ok (⟨Item.events 0 0 items, Item.ended items, rest⟩ : Scan S)) ∧
    ∀ items items' rest rest', Parse mode raw items rest → Parse mode raw items' rest' →
      items = items' ∧ rest = rest' := by
  refine ⟨fun body => read_ok_iff, ?_, ?_⟩
  · intro items rest parse
    exact scanFrom_reads (parse_iff.mp parse).1 [] 0
  · intro items items' rest rest' parse parse'
    exact (parse_iff.mp parse).1.unique (parse_iff.mp parse').1 rfl

/-- A note with a padded delta time, one that runs on, an end with a padded length and a byte behind it. -/
private def looseBody : List UInt8 := [0x80, 0, 0x90, 60, 64, 5, 60, 0, 0, 0xFF, 0x2F, 0x80, 0, 7]

private def looseItems : List Item :=
  [⟨[0x80, 0, 0x90, 60, 64], 0, .voice 0x90 [60, 64]⟩, ⟨[5, 60, 0], 5, .voice 0x90 [60, 0]⟩,
    ⟨[0, 0xFF, 0x2F, 0x80, 0], 0, .metadata 0x2F [0]⟩]

theorem read_exactly_grammar_loose :
    Parse .lenient looseBody looseItems [7] ∧
      Body.read .lenient looseBody = .ok (⟨Item.events 0 0 looseItems, 14, false, 1⟩ : Body Float) ∧
      ∀ items rest, Parse .lenient looseBody items rest → looseItems = items := by
  have short (byte : UInt8) (low : byte.toNat < 0x80) : Vlq.IsForm [byte] :=
    ⟨[], byte, rfl, by decide, List.forall_mem_nil _, low⟩
  have padded : Vlq.IsForm [0x80, 0] := ⟨[0x80], 0, rfl, by decide, by simp, by decide⟩
  have row : Item.IsRow .lenient none looseItems :=
    ⟨.stated padded (.voice rfl rfl (by simp)), .running (short 5 (by decide)) (.voice rfl rfl (by simp)) rfl,
      .stated (short 0 (by decide)) (.metadata padded rfl), trivial⟩
  have parse : Parse .lenient looseBody looseItems [7] :=
    ⟨rfl, row, by decide, by decide, .inl ⟨⟨_, rfl, rfl⟩, nofun⟩⟩
  obtain ⟨accepted, _, unique⟩ := read_exactly_grammar (S := Float) .lenient looseBody
  exact ⟨parse, (accepted _).mpr ⟨looseItems, [7], parse, rfl⟩,
    fun items rest other => (unique looseItems items [7] rest parse other).1⟩

end Body

end MidiFile
