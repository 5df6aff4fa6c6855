import MidiFile.Proofs.Song.Reached

/-! # Arithmetic that always fits

Ticks and delta times have thirty-two bits, and nothing that is counted goes below zero. Here are the
operations on tracks and tempo maps with every such sum and difference checked: `sum?` and `difference?`
give nothing where the result would not fit, and then neither does the operation. In a track in order
and a tempo map whose ticks never go back the checks are always passed, and what comes out is what the
operations give without them. So it is for every song of every session (`session_arithmetic_fits`), even
where a count of references started over.
-/

namespace MidiFile

variable {S : Type}

/-- The sum of two counts of ticks, if it is one. -/
def sum? (left right : Nat) : Option Nat := if left + right ≤ greatestTick then some (left + right) else none

/-- What is left of a count when another is taken away from it, if that is no more. -/
def difference? (whole part : Nat) : Option Nat := if part ≤ whole then some (whole - part) else none

theorem Spaced.delta_add_le {tick : Nat} {front back : List (Event S)} {event next : Event S}
    (spaced : Spaced tick (front ++ event :: next :: back)) : next.delta + event.delta ≤ next.tick := by
  induction front generalizing tick with
  | nil =>
    obtain ⟨here, there, _⟩ := spaced
    omega
  | cons first rest ih => exact ih spaced.2

namespace Track

/-- `delayed` with the sum checked. -/
def checkedDelayed (delta : Nat) : List (Event S) → Option (List (Event S))
  | [] => some []
  | event :: rest => (sum? event.delta delta).map fun delta => { event with delta } :: rest

/-- `remove` with the sum checked. -/
def checkedRemove (number : Nat) (track : Track S) : Option (Except Fault (Event S × Track S)) :=
  match track.events[number]? with
  | none => some (.error (.misuse .eventRange))
  | some event =>
    (checkedDelayed event.delta (track.events.drop (number + 1))).map fun later =>
      .ok (event.detach, { track with events := renumbered (track.events.take number ++ later) })

/-- `respaced` with the differences checked, given the tick in front of the first event. -/
def checkedRespaced (before : Nat) : List (Event S) → Option (List (Event S))
  | [] => some []
  | event :: rest => do
    let delta ← difference? event.tick before
    let rest ← checkedRespaced event.tick rest
    return { event with delta } :: rest

/-- `insert` with the differences checked. -/
def checkedInsert (message : Message) (tick : Nat) (track : Track S) : Option (Except Fault (Nat × Track S)) :=
  if message.isEnd && track.isEnded then some (.error (.misuse .endRepeated))
  else if message.isEnd && tick < track.endTick then some (.error (.misuse .endTooEarly))
  else
    (checkedRespaced 0 (track.arranged message tick)).map fun events =>
      .ok ((track.place message tick).1, { track with events := renumbered events })

/-- The event behind one that is taken out is at the tick that both delta times reach together. -/
theorem checkedRemove_eq {track : Track S} (inOrder : InOrder 0 0 track.events) (number : Nat) :
    track.checkedRemove number = some (track.remove number) := by
  rw [checkedRemove, remove]
  cases here : track.events[number]? with
  | none => rfl
  | some event =>
    obtain ⟨inside, rfl⟩ := List.getElem?_eq_some_iff.mp here
    have whole : track.events = track.events.take number ++ track.events[number] :: track.events.drop (number + 1) := by
      rw [← List.drop_eq_getElem_cons inside, List.take_append_drop]
    cases behind : track.events.drop (number + 1) with
    | nil => rfl
    | cons next rest =>
      rw [behind] at whole
      have reached := (whole ▸ inOrder.spaced : Spaced 0 _).delta_add_le
      have within := inOrder.within next (whole ▸ by simp)
      simp only [checkedDelayed, sum?, if_pos (Nat.le_trans reached within), Option.map_some, delayed]

theorem checkedRespaced_eq {before : Nat} {events : List (Event S)}
    (sorted : (before :: events.map (·.tick)).Pairwise (· ≤ ·)) :
    checkedRespaced before events =
      some (List.zipWith (fun event before => { event with delta := event.tick - before }) events
        (before :: events.map (·.tick))) := by
  induction events generalizing before with
  | nil => rfl
  | cons event rest ih =>
    obtain ⟨first, later⟩ := List.pairwise_cons.mp sorted
    have ahead : before ≤ event.tick := first event.tick List.mem_cons_self
    simp only [checkedRespaced, difference?, if_pos ahead, ih later]
    rfl

/-- Where an event is placed the ticks do not go back. -/
theorem sorted_arranged {message : Message} {tick : Nat} {track : Track S} (regular : Regular 0 0 track.events)
    (last : message.isEnd = true → track.isEnded = false ∧ track.endTick ≤ tick) :
    (0 :: (track.arranged message tick).map (·.tick)).Pairwise (· ≤ ·) := by
  have sorted := (regular_place regular last).spaced.sorted
  rw [place_track] at sorted
  rwa [map_renumbered fun _ _ => rfl, map_respaced fun _ _ => rfl] at sorted

theorem checkedInsert_eq {track : Track S} (inOrder : InOrder 0 0 track.events) (message : Message) (tick : Nat) :
    track.checkedInsert message tick = some (track.insert message tick) := by
  rw [checkedInsert, insert]
  by_cases repeated : (message.isEnd && track.isEnded) = true
  · rw [if_pos repeated, if_pos repeated]
  · by_cases early : (message.isEnd && tick < track.endTick) = true
    · rw [if_neg repeated, if_neg repeated, if_pos early, if_pos early]
    · have last : message.isEnd = true → track.isEnded = false ∧ track.endTick ≤ tick := by
        intro isEnd
        simpa [isEnd] using And.intro repeated early
      rw [if_neg repeated, if_neg repeated, if_neg early, if_neg early,
        checkedRespaced_eq (sorted_arranged inOrder.regular last)]
      rfl

end Track

section
variable [Clock S]

/-- `secondsFrom` with the difference checked. -/
def Division.checkedSecondsFrom (division : Division) (pace : Pace S) (tick : Nat) : Option S :=
  match division with
  | metrical ticks => (difference? tick pace.tick).map fun passed => pace.seconds + quarterSeconds ticks passed pace.tempo
  | timecode rate resolution => some (frameSeconds rate resolution tick)

theorem Division.checkedSecondsFrom_eq (division : Division) {pace : Pace S} {tick : Nat} (reached : pace.tick ≤ tick) :
    division.checkedSecondsFrom pace tick = some (division.secondsFrom pace tick) := by
  cases division with
  | metrical ticks => simp only [checkedSecondsFrom, difference?, if_pos reached, Option.map_some, secondsFrom]
  | timecode rate resolution => rfl

/-- `follow` with the difference checked. -/
def Entry.checkedFollow (division : Division) (before : Pace S) (entry : Entry S) : Option (Entry S) :=
  (division.checkedSecondsFrom before entry.tick).map fun seconds => { entry.follow division before with seconds }

/-- `followAll` with the differences checked. -/
def checkedFollowAll (division : Division) (before : Pace S) : List (Entry S) → Option (List (Entry S))
  | [] => some []
  | entry :: rest =>
    if entry.retired then (checkedFollowAll division before rest).map (entry :: ·)
    else do
      let entry ← entry.checkedFollow division before
      let rest ← checkedFollowAll division entry.pace rest
      return entry :: rest

theorem checkedFollowAll_eq (division : Division) {before : Pace S} {entries : List (Entry S)}
    (sorted : (before.tick :: entries.map (·.tick)).Pairwise (· ≤ ·)) :
    checkedFollowAll division before entries = some (followAll division before entries) := by
  induction entries generalizing before with
  | nil => rfl
  | cons entry rest ih =>
    obtain ⟨first, later⟩ := List.pairwise_cons.mp sorted
    rw [checkedFollowAll, followAll]
    split
    · have passedOver := List.pairwise_cons.mpr
        ⟨fun tick member => first tick (List.mem_cons_of_mem _ member), (List.pairwise_cons.mp later).2⟩
      rw [ih passedOver, Option.map_some]
    · have reached : before.tick ≤ entry.tick := first entry.tick List.mem_cons_self
      have followed : entry.checkedFollow division before = some (entry.follow division before) := by
        rw [Entry.checkedFollow, division.checkedSecondsFrom_eq reached]
        rfl
      have others : checkedFollowAll division (entry.follow division before).pace rest = _ := ih later
      simp only [followed, others, Option.bind_eq_bind, Option.bind_some, Option.pure_def]

namespace TempoMap

/-- `resolve` with the differences checked. -/
def checkedResolve (division : Division) (map : TempoMap S) : Option (TempoMap S) :=
  (checkedFollowAll division .start map.entries).map fun entries => { map with entries }

/-- `register` with the differences checked. -/
def checkedRegister (division : Division) (tick : Nat) (message : Message) (map : TempoMap S) : Option (TempoMap S) :=
  if message.changesTempo then (map.set tick message.tempo? message.timeSignature?).checkedResolve division else some map

/-- `registerAll` with the differences checked. -/
def checkedRegisterAll (division : Division) (events : List (Event S)) (map : TempoMap S) : Option (TempoMap S) :=
  events.foldlM (fun map event => map.checkedRegister division event.tick event.message) map

/-- `release` with the differences checked, those in ticks and that of references. -/
def checkedRelease (division : Division) (handle : Handle) (map : TempoMap S) : Option (Option (Entry S × TempoMap S)) :=
  match map.live? handle with
  | none => some none
  | some entry => do
    let references ← difference? entry.references 1
    let left := { entry with references }
    if !left.retired then return some (entry, map.put left)
    else if left.dependents = 0 then
      let map ← { map with entries := map.entries.filter (·.id != entry.id) }.checkedResolve division
      return some (entry, map)
    else
      let map ← (map.put left).checkedResolve division
      return some (entry, map)

/-- `timeOf` with the difference checked. -/
def checkedTimeOf (division : Division) (tick : Nat) (map : TempoMap S) : Option (Cached S) :=
  match division with
  | .metrical ticks =>
    match map.at? tick with
    | some entry => (division.checkedSecondsFrom entry.pace tick).map fun seconds => ⟨seconds, some entry.id⟩
    | none => some ⟨Division.quarterSeconds ticks tick defaultTempo, none⟩
  | .timecode rate resolution => some ⟨Division.frameSeconds rate resolution tick, none⟩

variable {map : TempoMap S}

theorem checkedResolve_eq (rising : map.Rising) (division : Division) :
    map.checkedResolve division = some (map.resolve division) := by
  have sorted : ((Pace.start : Pace S).tick :: map.entries.map (·.tick)).Pairwise (· ≤ ·) :=
    List.pairwise_cons.mpr ⟨fun _ _ => Nat.zero_le _, rising.ticks⟩
  rw [checkedResolve, checkedFollowAll_eq division sorted]
  rfl

theorem checkedRegister_eq (rising : map.Rising) (division : Division) (tick : Nat) (message : Message) :
    map.checkedRegister division tick message = some (map.register division tick message) := by
  rw [checkedRegister, register]
  split
  · exact checkedResolve_eq (rising.set _ _ _) division
  · rfl

theorem checkedRegisterAll_eq (rising : map.Rising) (division : Division) (events : List (Event S)) :
    map.checkedRegisterAll division events = some (map.registerAll division events) := by
  induction events generalizing map with
  | nil => rfl
  | cons event rest ih =>
    rw [checkedRegisterAll, List.foldlM_cons, checkedRegister_eq rising]
    exact ih (rising.register division event.tick event.message)

/-- An entry that is not retired has a reference to give back. -/
theorem checkedRelease_eq (rising : map.Rising) (division : Division) (handle : Handle) :
    map.checkedRelease division handle = some (map.release division handle) := by
  rw [checkedRelease, release]
  cases found : map.live? handle with
  | none => rfl
  | some entry =>
    obtain ⟨member, positive⟩ := mem_of_live? found
    have left : (map.put entry.drop).Rising := rising.put member rfl rfl
    have without := checkedResolve_eq (rising.filter (·.id != entry.id)) division
    have dropped : ({ entry with references := entry.references - 1 } : Entry S) = entry.drop := rfl
    have dependents : entry.drop.dependents = entry.dependents := rfl
    simp only [difference?, if_pos (show 1 ≤ entry.references from positive), Option.bind_eq_bind, Option.bind_some,
      Option.map_some, dropped, dependents, without, checkedResolve_eq left division, Option.pure_def]
    split
    · rfl
    · split <;> rfl

/-- The entry in effect at a tick does not come behind it. -/
theorem checkedTimeOf_eq (division : Division) (tick : Nat) (map : TempoMap S) :
    map.checkedTimeOf division tick = some (map.timeOf division tick) := by
  cases division with
  | timecode rate resolution => rfl
  | metrical ticks =>
    simp only [checkedTimeOf, timeOf]
    cases found : map.at? tick with
    | none => rfl
    | some entry =>
      have reached : entry.pace.tick ≤ tick := (mem_of_at? found).2
      simp only [Division.checkedSecondsFrom_eq _ reached, Option.map_some]

end TempoMap

namespace Song

/-- The checked operations on the tracks and the tempo map of every song of every session are never
    refused and give what the unchecked ones give, whatever is asked of them. So do those on maps that
    are made while a file is read, and a time can be worked out from any map. -/
theorem session_arithmetic_fits [Workers] (mode : Mode) (commands : List (Command S)) :
    (∀ song ∈ (Workspace.session mode commands).songs,
      (∀ track ∈ song.tracks,
        (∀ number, track.checkedRemove number = some (track.remove number)) ∧
        ∀ message tick, track.checkedInsert message tick = some (track.insert message tick)) ∧
      ∀ division,
        song.tempoMap.checkedResolve division = some (song.tempoMap.resolve division) ∧
        (∀ events, song.tempoMap.checkedRegisterAll division events = some (song.tempoMap.registerAll division events)) ∧
        ∀ handle, song.tempoMap.checkedRelease division handle = some (song.tempoMap.release division handle)) ∧
    (∀ identity division (events : List (Event S)),
      (TempoMap.empty identity).checkedRegisterAll division events =
        some ((TempoMap.empty identity).registerAll division events)) ∧
    ∀ (map : TempoMap S) division tick, map.checkedTimeOf division tick = some (map.timeOf division tick) := by
  refine ⟨fun song member => ⟨fun track inSong => ?_, fun division => ?_⟩, fun identity division events => ?_,
    fun map division tick => map.checkedTimeOf_eq division tick⟩
  · have inOrder := (session_sound mode commands member).inOrder track inSong
    exact ⟨Track.checkedRemove_eq inOrder, Track.checkedInsert_eq inOrder⟩
  · have rising := (session_reached mode commands member).rising
    exact ⟨TempoMap.checkedResolve_eq rising division, TempoMap.checkedRegisterAll_eq rising division,
      TempoMap.checkedRelease_eq rising division⟩
  · exact TempoMap.checkedRegisterAll_eq (TempoMap.ordered_empty identity).rising division events

/-- Two notes at the last ticks that there are. -/
private def latestCommands : List (Command Float) :=
  [.create, .change 0 (.addTrack .new), .change 0 (.addEvent 0 (.new (.bytes [0x90, 60, 64])) (.tick 0xFFFFFFFE)),
    .change 0 (.addEvent 0 (.new (.bytes [0x80, 60, 64])) (.after 1))]

/-- The delta times that are put together where the first of them is taken out just make a delta time. -/
theorem session_arithmetic_fits_latest :
    ∃ song ∈ (Workspace.session .strict latestCommands).songs, ∃ track ∈ song.tracks,
      track.events.map (·.delta) = [0xFFFFFFFE, 1] ∧ track.checkedRemove 0 = some (track.remove 0) ∧
        (track.remove 0).toOption.map (fun (_, after) => after.events.map (·.delta)) = some [0xFFFFFFFF] := by
  have member : _ ∈ (Workspace.session .strict latestCommands).songs := List.mem_singleton.mpr rfl
  refine ⟨_, member, _, List.mem_singleton.mpr rfl, rfl, ?_, rfl⟩
  exact (((session_arithmetic_fits .strict latestCommands).1 _ member).1 _ (List.mem_singleton.mpr rfl)).1 0

end Song

end

end MidiFile
