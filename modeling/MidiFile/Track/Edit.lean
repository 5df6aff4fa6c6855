import MidiFile.Track

/-! # Changing the events of a track

An event is placed by its tick; the delta times around it follow. An ordinary event never comes
behind the end of the track: when it is placed later than the end, the end moves with it.
-/

namespace MidiFile.Track

variable {S : Type}

def renumbered (events : List (Event S)) : List (Event S) :=
  events.mapIdx fun number event => { event with number? := some number }

def respaced (events : List (Event S)) : List (Event S) :=
  List.zipWith (fun event before => { event with delta := event.tick - before }) events (0 :: events.map (·.tick))

/-- The ticks that the delta times add up to. -/
def summedTicks (events : List (Event S)) : List Nat := ((events.map (·.delta)).scanl (· + ·) 0).tail

/-- Derive the ticks from the delta times and number the events. -/
def retime (track : Track S) : Except Fault (Track S) :=
  let ticks := summedTicks track.events
  if ticks.all (· ≤ greatestTick) then
    .ok { track with
      events := renumbered (List.zipWith (fun event tick => { event with tick := tick }) track.events ticks) }
  else .error (.misuse .tickOverflow)

/-- The events that a new one is placed among, and the end of the track if that has to stay
    behind it, no earlier than the given tick. -/
def withoutEnd (track : Track S) (tick : Nat) : List (Event S) × List (Event S) :=
  if track.isEnded then
    (track.events.dropLast, track.last?.toList.map fun ending => { ending with tick := max ending.tick tick })
  else (track.events, [])

/-- Place an event behind all that come at its tick or before. The result is its number. -/
def place (message : Message) (tick : Nat) (track : Track S) : Nat × Track S :=
  let (events, ending) := if message.isEnd then (track.events, []) else track.withoutEnd tick
  let before := events.takeWhile (·.tick ≤ tick)
  let event : Event S := { Event.ofMessage message with tick := tick, track? := track.number? }
  let after := events.dropWhile (·.tick ≤ tick) ++ ending
  (before.length, { track with events := renumbered (respaced (before ++ event :: after)) })

/-- Place a message at a tick. A track has one end, which is its last event. -/
def insert (message : Message) (tick : Nat) (track : Track S) : Except Fault (Nat × Track S) :=
  if message.isEnd && track.isEnded then .error (.misuse .endRepeated)
  else if message.isEnd && tick < track.endTick then .error (.misuse .endTooEarly)
  else .ok (track.place message tick)

/-- Let the first of the events come later by the given count of ticks. -/
def delayed (delta : Nat) : List (Event S) → List (Event S)
  | [] => []
  | event :: rest => { event with delta := event.delta + delta } :: rest

/-- Take out the event of the given number. The next one takes over its delta time, so that all
    others keep their ticks. -/
def remove (number : Nat) (track : Track S) : Except Fault (Event S × Track S) :=
  match track.events[number]? with
  | none => .error (.misuse .eventRange)
  | some event =>
    let events := track.events.take number ++ delayed event.delta (track.events.drop (number + 1))
    .ok (event.detach, { track with events := renumbered events })

end MidiFile.Track
