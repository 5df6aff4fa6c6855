import MidiFile.Proofs.Event.Item
import MidiFile.Song.Play
import MidiFile.Track.Body

/-! # One call for an event after the other

`EventStream.Gives` says all that a call for the next event can do: give an event, give the fault that
stops the stream, or give nothing and leave the stream as it is. What holds of one call holds of any
number of them (`EventStream.after`): nothing is read but from the front, and the running status stays
one of a channel. An event takes two bytes at least, one for its delta time and one for its status or,
where that is left out, for its data. So there are no more calls that give something than half the bytes
and one, and reading a body, which makes no other calls, needs no more (`EventStream.calls_come_to_end`).
-/

namespace MidiFile

variable {S : Type}

theorem Song.total_concat {α : Type} (measure : α → Nat) (xs : List α) (last : α) :
    total measure (xs ++ [last]) = total measure xs + measure last := by
  induction xs with
  | nil => simp [total]
  | cons first rest ih =>
    simp only [total, List.cons_append, List.foldr_cons] at ih ⊢
    rw [ih, Nat.add_assoc]

namespace Decode

variable {α : Type} {step : Decode α} {bytes rest : List UInt8}

theorem Takes.suffix_of_ok (takes : step.Takes) {value : α} (done : step bytes = .ok value rest) : rest <:+ bytes :=
  left_of_ok done ▸ takes bytes

theorem Takes.suffix_of_error (takes : step.Takes) {fault : Fault} (failed : step bytes = .error fault rest) :
    rest <:+ bytes :=
  left_of_error failed ▸ takes bytes

end Decode

theorem Message.voiced_runningAfter (mode : Mode) (status : UInt8) {running? : Option UInt8} (voiced : Voiced running?) :
    Voiced (mode.runningAfter status running?) := by
  unfold Mode.runningAfter
  split_ifs with isVoice
  · rintro other same
    cases same
    exact isVoice
  · cases mode with
    | strict => exact voiced_none
    | lenient => exact voiced
  · exact voiced

namespace Wire

theorem takes_readHead (running? : Option UInt8) : (readHead running?).Takes :=
  Decode.takes_bind (Decode.takes_within Vlq.takes_read) fun delta => takes_readRest delta.toNat running?

/-- Where an event cannot be read, either the status of its message is not known, and the running
    status stays as it was, or the rest of the message cannot be read. -/
theorem read_error_cases {mode : Mode} {wire after : Wire} {fault : Fault} (failed : read mode wire = .error fault after) :
    (readHead wire.running? wire.unread = .error fault after.unread ∧ after.running? = wire.running?) ∨
      ∃ delta status left, readHead wire.running? wire.unread = .ok (delta, status) left ∧
        Message.readBody status left = .error fault after.unread ∧
        after.running? = mode.runningAfter status wire.running? := by
  rw [read] at failed
  rcases head : readHead wire.running? wire.unread with ⟨⟨delta, status⟩, left⟩ | ⟨early, left⟩
  · rcases body : Message.readBody status left with ⟨message, rest⟩ | ⟨late, rest⟩
    · simp [head, body] at failed
    · simp only [head, body] at failed
      cases failed
      exact .inr ⟨delta, status, left, rfl, body, rfl⟩
  · simp only [head] at failed
    cases failed
    exact .inl ⟨rfl, rfl⟩

variable {mode : Mode} {wire after : Wire}

theorem suffix_of_read {event : Nat × Message} (done : read mode wire = .ok event after) : after.unread <:+ wire.unread := by
  obtain ⟨status, left, head, body, _⟩ := read_ok_iff.mp done
  exact ((Message.takes_readBody status).suffix_of_ok body).trans ((takes_readHead _).suffix_of_ok head)

theorem suffix_of_failed {fault : Fault} (failed : read mode wire = .error fault after) : after.unread <:+ wire.unread := by
  obtain ⟨head, _⟩ | ⟨delta, status, left, head, body, _⟩ := read_error_cases failed
  · exact (takes_readHead _).suffix_of_error head
  · exact ((Message.takes_readBody status).suffix_of_error body).trans ((takes_readHead _).suffix_of_ok head)

theorem voiced_of_read (voiced : Message.Voiced wire.running?) {event : Nat × Message}
    (done : read mode wire = .ok event after) : Message.Voiced after.running? := by
  obtain ⟨status, _, _, _, running⟩ := read_ok_iff.mp done
  exact running ▸ Message.voiced_runningAfter mode status voiced

theorem voiced_of_failed (voiced : Message.Voiced wire.running?) {fault : Fault}
    (failed : read mode wire = .error fault after) : Message.Voiced after.running? := by
  obtain ⟨_, running⟩ | ⟨_, status, _, _, _, running⟩ := read_error_cases failed
  · exact running ▸ voiced
  · exact running ▸ Message.voiced_runningAfter mode status voiced

end Wire

/-- An item takes a byte for its delta time, and one more for its status or for its data. -/
theorem Item.Written.two_le_length {running? : Option UInt8} {item : Item} (written : item.Written running?) :
    2 ≤ item.bytes.length := by
  cases written with
  | @stated time body message isForm spelled =>
    have positive := isForm.length_pos
    rw [List.length_append, List.length_cons]
    omega
  | @running time data status isForm spelled runs =>
    have positive := isForm.length_pos
    cases spelled with
    | voice isVoice length low =>
      have filled := length ▸ Status.dataLength_pos status
      rw [List.length_append]
      omega

theorem Wire.length_add_two_le {mode : Mode} {wire after : Wire} {event : Nat × Message}
    (voiced : Message.Voiced wire.running?) (done : read mode wire = .ok event after) :
    after.unread.length + 2 ≤ wire.unread.length := by
  obtain ⟨item, written, whole, _⟩ := exists_written voiced done
  have two := written.two_le_length
  rw [whole, List.length_append]
  omega

namespace EventStream

/-- The stream behind a call for the next event. It stays as it is where there is none. -/
def advance (S : Type) (mode : Mode) (stream : EventStream) : EventStream :=
  match stream.next? (S := S) mode with
  | none => stream
  | some (_, after) => after

/-- What a call for the next event gives, and the stream behind it. -/
inductive Gives (mode : Mode) (stream : EventStream) : Option (Except Fault (Event S)) → EventStream → Prop
  /-- The stream has come to its end. -/
  | nothing (ended : stream.failed = true ∨ stream.unread = []) : Gives mode stream none stream
  /-- The next event is there. -/
  | event {delta : Nat} {message : Message} {wire : Wire} (read : Wire.read mode stream.wire = .ok (delta, message) wire)
      (within : stream.tick + delta ≤ greatestTick) :
      Gives mode stream (some (.ok ⟨message, delta, stream.tick + delta, none, some stream.number, none⟩))
        ⟨wire, stream.tick + delta, stream.number + 1, false⟩
  /-- The next event cannot be read. -/
  | malformed {fault : Fault} {wire : Wire} (failed : Wire.read mode stream.wire = .error fault wire) :
      Gives mode stream (some (.error (fault.within .event))) { stream with wire, failed := true }
  /-- The next event is at a tick that there is no room for. -/
  | beyond {delta : Nat} {message : Message} {wire : Wire} (read : Wire.read mode stream.wire = .ok (delta, message) wire)
      (late : greatestTick < stream.tick + delta) :
      Gives mode stream (some (.error ((Fault.malformed .tickOverflow).within .event))) { stream with wire, failed := true }

theorem gives_next (mode : Mode) (stream : EventStream) :
    Gives (S := S) mode stream ((stream.next? mode).map Prod.fst) (stream.advance S mode) := by
  rw [advance]
  by_cases ended : (stream.failed || stream.unread.isEmpty) = true
  · rw [next?, if_pos ended]
    exact .nothing (by simpa using ended)
  · rw [next?, if_neg ended]
    rcases read : Wire.read mode stream.wire with ⟨⟨delta, message⟩, wire⟩ | ⟨fault, wire⟩
    · by_cases within : stream.tick + delta ≤ greatestTick
      · simp only [if_pos within]
        exact .event read within
      · simp only [if_neg within]
        exact .beyond read (Nat.lt_of_not_le within)
    · exact .malformed read

section
variable {mode : Mode} {stream after : EventStream} {event : Event S} {item? : Option (Except Fault (Event S))}

theorem gives_of_next? {item : Except Fault (Event S)} (next : stream.next? mode = some (item, after)) :
    Gives mode stream (some item) after := by
  have gives := gives_next (S := S) mode stream
  rw [advance, next] at gives
  exact gives

theorem Gives.suffix (gives : Gives mode stream item? after) : after.unread <:+ stream.unread := by
  cases gives with
  | nothing ended => exact List.suffix_refl _
  | event read within => exact Wire.suffix_of_read read
  | malformed failed => exact Wire.suffix_of_failed failed
  | beyond read late => exact Wire.suffix_of_read read

theorem Gives.voiced (gives : Gives mode stream item? after) (voiced : Message.Voiced stream.running?) :
    Message.Voiced after.running? := by
  cases gives with
  | nothing ended => exact voiced
  | event read within => exact Wire.voiced_of_read voiced read
  | malformed failed => exact Wire.voiced_of_failed voiced failed
  | beyond read late => exact Wire.voiced_of_read voiced read

theorem Gives.ended (gives : Gives (S := S) mode stream none after) :
    after = stream ∧ (stream.failed = true ∨ stream.unread = []) := by
  cases gives with
  | nothing ended => exact ⟨rfl, ended⟩

theorem ended_of_next? (nothing : stream.next? (S := S) mode = none) : stream.failed = true ∨ stream.unread = [] := by
  have gives := gives_next (S := S) mode stream
  rw [nothing] at gives
  exact gives.ended.2

/-- A fault stops the stream. -/
theorem Gives.failed_of_fault {fault : Fault} (gives : Gives (S := S) mode stream (some (.error fault)) after) :
    after.failed = true := by
  cases gives <;> rfl

/-- An event takes the number and the tick of the stream on, and two bytes or more from it. -/
theorem Gives.of_event (gives : Gives mode stream (some (.ok event)) after) (voiced : Message.Voiced stream.running?) :
    after.unread.length + 2 ≤ stream.unread.length ∧ event.number? = some stream.number ∧
      after.number = stream.number + 1 ∧ event.tick = stream.tick + event.delta ∧ after.tick = event.tick := by
  cases gives with
  | event read within => exact ⟨Wire.length_add_two_le voiced read, rfl, rfl, rfl, rfl⟩

end

/-! ## Any number of calls -/

/-- The stream behind so many calls. -/
def after (S : Type) (mode : Mode) (stream : EventStream) : Nat → EventStream
  | 0 => stream
  | count + 1 => (stream.after S mode count).advance S mode

/-- What is given by the call behind so many others. -/
def item? (mode : Mode) (stream : EventStream) (count : Nat) : Option (Except Fault (Event S)) :=
  ((stream.after S mode count).next? mode).map Prod.fst

/-- The events that so many calls give. -/
def given (mode : Mode) (stream : EventStream) (count : Nat) : List (Event S) :=
  (List.range count).filterMap fun call => (stream.item? mode call).bind Except.toOption

variable {mode : Mode} {stream : EventStream} {event : Event S} {count : Nat}

theorem gives (mode : Mode) (stream : EventStream) (count : Nat) :
    Gives (S := S) mode (stream.after S mode count) (stream.item? mode count) (stream.after S mode (count + 1)) :=
  gives_next mode _

theorem unread_after (mode : Mode) (stream : EventStream) (count : Nat) :
    (stream.after S mode count).unread <:+ stream.unread := by
  induction count with
  | zero => exact List.suffix_refl _
  | succ count ih => exact (gives mode stream count).suffix.trans ih

theorem voiced_after (mode : Mode) (voiced : Message.Voiced stream.running?) (count : Nat) :
    Message.Voiced (stream.after S mode count).running? := by
  induction count with
  | zero => exact voiced
  | succ count ih => exact (gives mode stream count).voiced ih

theorem item?_eq_none_iff : (stream.item? mode count : Option (Except Fault (Event S))) = none ↔
    (stream.after S mode count).failed = true ∨ (stream.after S mode count).unread = [] := by
  constructor
  · intro exhausted
    exact ended_of_next? (Option.map_eq_none_iff.mp exhausted)
  · intro ended
    rw [item?, next?, if_pos (by simpa using ended)]
    rfl

/-- A call that gives nothing changes nothing, so neither does any later one. -/
theorem item?_of_none (exhausted : (stream.item? mode count : Option (Except Fault (Event S))) = none) {later : Nat}
    (le : count ≤ later) : (stream.item? mode later : Option (Except Fault (Event S))) = none := by
  induction later, le using Nat.le_induction with
  | base => exact exhausted
  | succ later _ ih =>
    have gives := gives (S := S) mode stream later
    rw [ih] at gives
    rw [item?, gives.ended.1]
    exact ih

theorem item?_of_fault {fault : Fault} (found : stream.item? mode count = some (.error fault : Except Fault (Event S)))
    {later : Nat} (lt : count < later) : (stream.item? mode later : Option (Except Fault (Event S))) = none := by
  have gives := gives (S := S) mode stream count
  rw [found] at gives
  exact item?_of_none (item?_eq_none_iff.mpr (.inl gives.failed_of_fault)) lt

/-- A call that gives something comes behind calls that all gave events. -/
theorem exists_event_of_item? {item : Except Fault (Event S)} (found : stream.item? mode (count + 1) = some item) :
    ∃ event : Event S, stream.item? mode count = some (.ok event) := by
  rcases before : (stream.item? mode count : Option (Except Fault (Event S))) with _ | fault | event
  · rw [item?_of_none before (Nat.le_succ count)] at found
    cases found
  · rw [item?_of_fault before (Nat.lt_succ_self count)] at found
    cases found
  · exact ⟨event, rfl⟩

theorem given_succ (found : stream.item? mode count = some (.ok event)) :
    stream.given mode (count + 1) = stream.given mode count ++ [event] := by
  have last : [count].filterMap (fun call => (stream.item? mode call).bind Except.toOption) = [event] := by
    rw [List.filterMap_cons, found]
    rfl
  rw [given, List.range_succ, List.filterMap_append, last, given]

/-- Where a stream stands that has given events and nothing else: at their count and at the sum of their
    delta times, with two bytes gone for each. -/
structure Stands (bytes : List UInt8) (stream : EventStream) (events : List (Event S)) : Prop where
  number : stream.number = events.length
  tick : stream.tick = Song.total Event.delta events
  room : stream.unread.length + 2 * events.length ≤ bytes.length

theorem Stands.next {bytes : List UInt8} {stream after : EventStream} {events : List (Event S)}
    (stands : Stands bytes stream events) (voiced : Message.Voiced stream.running?)
    (gives : Gives mode stream (some (.ok event)) after) : Stands bytes after (events ++ [event]) := by
  obtain ⟨two, _, number, tick, same⟩ := gives.of_event voiced
  have room := stands.room
  refine ⟨?_, ?_, ?_⟩
  · rw [number, stands.number, List.length_append, List.length_singleton]
  · rw [same, tick, stands.tick, Song.total_concat]
  · rw [List.length_append, List.length_singleton]
    omega

theorem voiced_ofBytes (bytes : List UInt8) : Message.Voiced (ofBytes bytes).running? := Message.voiced_none

/-- Wherever a call gives something, all calls in front of it gave events. -/
theorem stands_of_item? {bytes : List UInt8} {item : Except Fault (Event S)}
    (found : (ofBytes bytes).item? mode count = some item) :
    Stands (S := S) bytes ((ofBytes bytes).after S mode count) ((ofBytes bytes).given mode count) ∧
      ((ofBytes bytes).given mode count : List (Event S)).length = count := by
  induction count generalizing item with
  | zero => exact ⟨⟨rfl, rfl, Nat.le_refl _⟩, rfl⟩
  | succ count ih =>
    obtain ⟨event, before⟩ := exists_event_of_item? found
    obtain ⟨stands, length⟩ := ih before
    have gives := gives (S := S) mode (ofBytes bytes) count
    rw [before] at gives
    rw [given_succ before, List.length_append, length]
    exact ⟨stands.next (voiced_after mode (voiced_ofBytes bytes) count) gives, rfl⟩

/-- The calls that give something are no more than half the bytes and one. -/
theorem item?_of_half_lt {bytes : List UInt8} (half : bytes.length / 2 < count) :
    ((ofBytes bytes).item? mode count : Option (Except Fault (Event S))) = none := by
  rcases found : ((ofBytes bytes).item? mode count : Option (Except Fault (Event S))) with _ | item
  · rfl
  · obtain ⟨stands, length⟩ := stands_of_item? found
    have room := stands.room
    omega

end EventStream

namespace Body

/-- Read on behind the events already read, with no more calls that give something than the limit. -/
def scanWithin (mode : Mode) (limit : Nat) (before : List (Event S)) (stream : EventStream) :
    Option (Except Fault (Scan S)) :=
  match stream.next? (S := S) mode with
  | none => some (.ok ⟨before.reverse, false, stream.unread⟩)
  | some (item, after) =>
    match limit, item with
    | 0, _ => none
    | _ + 1, .error fault => some (.error fault)
    | limit + 1, .ok event =>
      if event.message.isEnd then some (.ok ⟨(event :: before).reverse, true, after.unread⟩)
      else scanWithin mode limit (event :: before) after

/-- A limit of more than half the bytes that are left is never reached. -/
theorem scanWithin_eq_scanFrom {mode : Mode} {limit : Nat} {before : List (Event S)} {stream : EventStream}
    (voiced : Message.Voiced stream.running?) (room : stream.unread.length < 2 * limit) :
    scanWithin mode limit before stream = some (scanFrom mode before stream) := by
  fun_induction scanFrom mode before stream generalizing limit with
  | case1 before stream exhausted =>
    unfold scanWithin
    rw [exhausted]
  | case2 before stream fault left failed =>
    obtain ⟨limit, rfl⟩ := Nat.exists_eq_add_one.mpr (by omega : 0 < limit)
    unfold scanWithin
    rw [failed]
  | case3 before stream event after next shorter isEnd =>
    obtain ⟨limit, rfl⟩ := Nat.exists_eq_add_one.mpr (by omega : 0 < limit)
    unfold scanWithin
    rw [next]
    exact if_pos isEnd
  | case4 before stream event after next shorter notEnd ih =>
    obtain ⟨limit, rfl⟩ := Nat.exists_eq_add_one.mpr (by omega : 0 < limit)
    have gives := EventStream.gives_of_next? next
    obtain ⟨two, _⟩ := gives.of_event voiced
    have room : after.unread.length < 2 * limit := by omega
    unfold scanWithin
    rw [next, ← ih (gives.voiced voiced) room]
    exact if_neg notEnd

end Body

namespace EventStream

/-- However often a stream of a body is asked for the next event, what it has not read is an end of the
    body. Each event takes two bytes or more, has the count of the calls in front of its own for its number
    and is at the sum of all delta times up to its own. Behind a fault nothing is given any more, and
    neither is behind a call that gave nothing; no call gives anything behind as many as half the bytes and
    one, and no more of them are needed to read the body. -/
theorem calls_come_to_end (mode : Mode) (bytes : List UInt8) :
    let stream := ofBytes bytes
    (∀ count, (stream.after S mode count).unread <:+ bytes) ∧
    (∀ count (event : Event S), stream.item? mode count = some (.ok event) →
      (stream.after S mode (count + 1)).unread.length + 2 ≤ (stream.after S mode count).unread.length ∧
        event.number? = some count ∧ (stream.given mode (count + 1) : List (Event S)).length = count + 1 ∧
        event.tick = Song.total Event.delta (stream.given (S := S) mode (count + 1))) ∧
    (∀ count fault, stream.item? mode count = some (.error fault : Except Fault (Event S)) →
      ∀ later, count < later → (stream.item? mode later : Option (Except Fault (Event S))) = none) ∧
    (∀ count, (stream.item? mode count : Option (Except Fault (Event S))) = none →
      ∀ later, count ≤ later → (stream.item? mode later : Option (Except Fault (Event S))) = none) ∧
    (∀ count, bytes.length / 2 + 1 ≤ count → (stream.item? mode count : Option (Except Fault (Event S))) = none) ∧
    Body.scanWithin mode (bytes.length / 2 + 1) [] stream = some (Body.scan mode bytes : Except Fault (Body.Scan S)) := by
  intro stream
  refine ⟨unread_after mode stream, fun count event found => ?_, fun _ _ found _ => item?_of_fault found,
    fun _ exhausted _ => item?_of_none exhausted, fun _ => item?_of_half_lt, ?_⟩
  · have voiced := voiced_after (S := S) mode (voiced_ofBytes bytes) count
    have gives := gives (S := S) mode stream count
    rw [found] at gives
    obtain ⟨two, number, _, tick, _⟩ := gives.of_event voiced
    obtain ⟨stands, length⟩ := stands_of_item? found
    refine ⟨two, ?_, ?_, ?_⟩
    · rw [number, stands.number, length]
    · rw [given_succ found, List.length_append, length, List.length_singleton]
    · rw [tick, stands.tick, given_succ found, Song.total_concat]
  · exact Body.scanWithin_eq_scanFrom (voiced_ofBytes bytes)
      (show bytes.length < 2 * (bytes.length / 2 + 1) by omega)

/-- A note, one that leaves out its status, a byte that opens nothing, and three bytes that could be a note. -/
private def brokenBody : List UInt8 := [0x81, 0x00, 0x90, 60, 64, 96, 60, 0, 0, 0xF8, 60, 64, 60]

theorem calls_come_to_end_broken :
    (∃ event : Event Float, (ofBytes brokenBody).item? .lenient 1 = some (.ok event) ∧
      ((ofBytes brokenBody).after Float .lenient 2).unread.length + 2 ≤
        ((ofBytes brokenBody).after Float .lenient 1).unread.length ∧
      event.number? = some 1 ∧ event.tick = 0x80 + 96) ∧
    (ofBytes brokenBody).item? .lenient 2 = some (.error ⟨.malformed .systemRealtime, [.event]⟩ : Except Fault (Event Float)) ∧
    ((ofBytes brokenBody).after Float .lenient 3).unread = [60, 64, 60] ∧
    (∀ later, 2 < later → ((ofBytes brokenBody).item? .lenient later : Option (Except Fault (Event Float))) = none) := by
  obtain ⟨_, events, faults, _⟩ := calls_come_to_end (S := Float) .lenient brokenBody
  have second : (ofBytes brokenBody).item? .lenient 1 =
      some (.ok ⟨.voice 0x90 [60, 0], 96, 224, none, some 1, none⟩ : Except Fault (Event Float)) := rfl
  have third : (ofBytes brokenBody).item? .lenient 2 =
      some (.error ⟨.malformed .systemRealtime, [.event]⟩ : Except Fault (Event Float)) := rfl
  obtain ⟨two, number, _, tick⟩ := events 1 _ second
  exact ⟨⟨_, second, two, number, tick⟩, third, rfl, faults 2 _ third⟩

end EventStream

end MidiFile
