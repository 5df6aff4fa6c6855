import MidiFile.Proofs.Rows
import MidiFile.Song.Encode
import MidiFile.Song.Play

/-! # What each edit does

An edit that is not refused met the conditions that it checks, and its result is given here in
full. All that is proved of edits elsewhere starts from these statements. An edit that is refused
leaves the song as it was (`Song.Atomic`).
-/

set_option linter.unusedSectionVars false

namespace MidiFile

variable {S : Type}

namespace Track

/-- The track with the size of a body. -/
def measured (track : Track S) (body : List UInt8) : Track S := { track with bodySize := body.length }

@[simp] theorem events_rewind (track : Track S) : track.rewind.events = track.events := by
  cases track with
  | mk number? events size cursor => cases events <;> rfl

/-- Whether a message may be placed: a track has one end, which is its last event. -/
def Accepts (message : Message) (tick : Nat) (track : Track S) : Prop :=
  message.isEnd = true → track.isEnded = false ∧ track.endTick ≤ tick

theorem insert_ok {message : Message} {tick place : Nat} {track after : Track S}
    (done : track.insert message tick = .ok (place, after)) :
    track.Accepts message tick ∧
      place = (track.place message tick).1 ∧ after = (track.place message tick).2 := by
  by_cases repeated : (message.isEnd && track.isEnded) = true
  · rw [insert, if_pos repeated] at done
    cases done
  · by_cases early : (message.isEnd && tick < track.endTick) = true
    · rw [insert, if_neg repeated, if_pos early] at done
      cases done
    · rw [insert, if_neg repeated, if_neg early] at done
      have placed := Except.ok.inj done
      refine ⟨?_, by rw [placed], by rw [placed]⟩
      intro ends
      simp_all

/-- Any message but the end may be placed anywhere. -/
theorem accepts_of_not_end {message : Message} {tick : Nat} {track : Track S} (notEnd : message.isEnd = false) :
    track.Accepts message tick := by
  simp [Accepts, notEnd]

theorem exists_insert_iff {message : Message} {tick place : Nat} {track after : Track S} :
    track.insert message tick = .ok (place, after) ↔
      track.Accepts message tick ∧ place = (track.place message tick).1 ∧ after = (track.place message tick).2 := by
  constructor
  · exact insert_ok
  · rintro ⟨accepts, rfl, rfl⟩
    rw [insert]
    by_cases isEnd : message.isEnd = true
    · obtain ⟨open_, late⟩ := accepts isEnd
      simp [open_, Nat.not_lt.mpr late]
    · simp [isEnd]

/-- The track with a message added to it, and its cursor back at the start. -/
def put (message : Message) (tick : Nat) (track : Track S) : Track S := (track.place message tick).2.rewind

theorem remove_ok {number : Nat} {removed : Event S} {track after : Track S}
    (done : track.remove number = .ok (removed, after)) :
    ∃ event, track.events[number]? = some event ∧ removed = event.detach ∧
      after = { track with
        events := renumbered (track.events.take number ++ delayed event.delta (track.events.drop (number + 1))) } := by
  cases here : track.events[number]? with
  | none => simp [remove, here] at done
  | some event =>
    simp only [remove, here] at done
    cases done
    exact ⟨event, rfl, rfl, rfl⟩

theorem retime_ok {track after : Track S} (done : track.retime = .ok after) :
    (∀ tick ∈ summedTicks track.events, tick ≤ greatestTick) ∧
      after = { track with
        events := renumbered (List.zipWith (fun event tick => { event with tick := tick }) track.events
          (summedTicks track.events)) } := by
  by_cases within : (summedTicks track.events).all (· ≤ greatestTick) = true
  · simp only [retime, within, if_true] at done
    cases done
    exact ⟨by simpa using within, rfl⟩
  · simp [retime, within] at done

theorem advance?_some {track after : Track S} {event : Event S} (done : track.advance? = some (event, after)) :
    ∃ number, track.cursor.next? = some number ∧ track.events[number]? = some event ∧
      after = { track with cursor := track.cursorBehind number event } := by
  cases next : track.cursor.next? with
  | none => simp [advance?, next] at done
  | some number =>
    cases here : track.events[number]? with
    | none => simp [advance?, next, here] at done
    | some found =>
      simp only [advance?, next, here] at done
      cases done
      exact ⟨number, rfl, here, rfl⟩

end Track

namespace Song

theorem next?_some {song after : Song S} {event : Event S} (done : song.next? = some (event, after)) :
    ∃ number track advanced, song.nextTrack? = some number ∧ song.tracks[number]? = some track ∧
      track.advance? = some (event, advanced) ∧ after = { song with tracks := song.tracks.set number advanced } := by
  cases chosen : song.nextTrack? with
  | none => simp [next?, chosen] at done
  | some number =>
    cases here : song.tracks[number]? with
    | none => simp [next?, chosen, here] at done
    | some track =>
      cases step : track.advance? with
      | none => simp [next?, chosen, here, step] at done
      | some found =>
        simp only [next?, chosen, here, step] at done
        cases done
        exact ⟨number, track, found.2, rfl, here, step, rfl⟩

/-- The tracks, each with the size of its body. -/
def measured (bodies : List (List UInt8)) (song : Song S) : Song S :=
  { song with tracks := List.zipWith Track.measured song.tracks bodies }

section
variable [Clock S] {song after : Song S}

theorem setFormat_ok {format : Format} (done : setFormat format song = .ok () after) :
    (format = .single → song.tracks.length ≤ 1) ∧ after = { song with header := { song.header with format := format } } := by
  by_cases many : (format = .single && 1 < song.tracks.length) = true
  · rw [setFormat, if_pos many] at done
    cases done
  · rw [setFormat, if_neg many] at done
    cases done
    refine ⟨?_, rfl⟩
    intro single
    simp only [single, decide_true, Bool.true_and, decide_eq_true_eq] at many
    omega

theorem setTicksPerQuarter_ok {ticks : Nat} (done : setTicksPerQuarter ticks song = .ok () after) :
    ∃ narrow : Narrow 15, narrow.toNat ≠ 0 ∧ after = song.withDivision (.metrical narrow) := by
  cases found : Narrow.ofNat? 15 ticks with
  | none => simp [setTicksPerQuarter, found] at done
  | some narrow =>
    by_cases zero : narrow.toNat = 0
    · simp [setTicksPerQuarter, found, zero] at done
    · simp only [setTicksPerQuarter, found, zero, if_false] at done
      cases done
      exact ⟨narrow, zero, rfl⟩

theorem setTimecode_ok {rate : FrameRate} {resolution : UInt8} (done : setTimecode rate resolution song = .ok () after) :
    resolution ≠ 0 ∧ after = song.withDivision (.timecode rate resolution) := by
  by_cases zero : resolution = 0
  · rw [setTimecode, if_pos zero] at done
    cases done
  · rw [setTimecode, if_neg zero] at done
    cases done
    exact ⟨zero, rfl⟩

theorem addTrack_ok {track : Track S} {number : Nat} (done : addTrack track song = .ok number after) :
    ∃ placed, (track.attach (some song.tracks.length)).retime = .ok placed ∧ number = song.tracks.length ∧
      after = refreshFrom (placed.events.head?.elim 0 (·.tick)) { song with
        header := { song.header with format := song.format.forTracks (song.tracks ++ [placed.rewind]).length }
        tracks := song.tracks ++ [placed.rewind]
        tempoMap := song.tempoMap.registerAll song.division placed.events } := by
  cases retimed : (track.attach (some song.tracks.length)).retime with
  | error fault => simp [addTrack, retimed] at done
  | ok placed =>
    simp only [addTrack, retimed] at done
    cases done
    exact ⟨placed, rfl, rfl, rfl⟩

theorem removeTrack_ok {number : Nat} {removed : Track S} (done : removeTrack number song = .ok removed after) :
    ∃ track, song.tracks[number]? = some track ∧
      removed = { track.attach none with
        events := (track.attach none).events.map fun event => { event with cached? := none } } ∧
      after = recount { song with
        tracks := (song.tracks.eraseIdx number).mapIdx fun number track => track.attach (some number) } := by
  cases here : song.tracks[number]? with
  | none => simp [removeTrack, here] at done
  | some track =>
    simp only [removeTrack, here] at done
    cases done
    exact ⟨track, rfl, rfl, rfl⟩

theorem addEvent_ok {track tick place : Nat} {message : Message} (done : addEvent track message tick song = .ok place after) :
    ∃ old new, song.tracks[track]? = some old ∧ tick ≤ greatestTick ∧ old.insert message tick = .ok (place, new) ∧
      after = refreshFrom tick { song with
        tracks := song.tracks.set track new.rewind
        tempoMap := song.tempoMap.register song.division tick message } := by
  cases here : song.tracks[track]? with
  | none => simp [addEvent, here] at done
  | some old =>
    by_cases late : greatestTick < tick
    · simp [addEvent, here, late] at done
    · cases inserted : old.insert message tick with
      | error fault => simp [addEvent, here, late, inserted] at done
      | ok made =>
        simp only [addEvent, here, late, inserted, if_false] at done
        cases done
        exact ⟨old, made.2, rfl, Nat.le_of_not_lt late, inserted, rfl⟩

/-- The song with a message added to a track, before times are worked out. -/
def put (number : Nat) (message : Message) (tick : Nat) (song : Song S) : Song S :=
  { song with
    tracks := song.tracks.modify number (Track.put message tick)
    tempoMap := song.tempoMap.register song.division tick message }

/-- A message is added wherever its track accepts it. -/
theorem addEvent_ok_iff {number tick place : Nat} {message : Message} {track : Track S}
    (here : song.tracks[number]? = some track) (within : tick ≤ greatestTick) :
    addEvent number message tick song = .ok place after ↔
      track.Accepts message tick ∧ place = (track.place message tick).1 ∧
        after = refreshFrom tick (song.put number message tick) := by
  have put : song.put number message tick = { song with
      tracks := song.tracks.set number (track.put message tick)
      tempoMap := song.tempoMap.register song.division tick message } := by
    rw [Song.put, set_eq_modify here (Track.put message tick)]
  constructor
  · intro done
    obtain ⟨old, new, found, _, inserted, rfl⟩ := addEvent_ok done
    cases here.symm.trans found
    obtain ⟨accepts, rfl, rfl⟩ := Track.exists_insert_iff.mp inserted
    exact ⟨accepts, rfl, by rw [put]; rfl⟩
  · rintro ⟨accepts, rfl, rfl⟩
    have inserted := Track.exists_insert_iff.mpr ⟨accepts, rfl, rfl⟩
    simp only [addEvent, here, if_neg (Nat.not_lt.mpr within), inserted, put]
    rfl

theorem addEventAtSeconds_ok {track place : Nat} {message : Message} {seconds : S}
    (done : addEventAtSeconds track message seconds song = .ok place after) :
    ∃ tick, song.tickAt seconds = .ok tick ∧ addEvent track message tick song = .ok place after := by
  cases nearest : song.tickAt seconds with
  | error fault => simp [addEventAtSeconds, nearest] at done
  | ok tick =>
    simp only [addEventAtSeconds, nearest] at done
    exact ⟨tick, rfl, done⟩

theorem removeEvent_ok {track number : Nat} {removed : Event S} (done : removeEvent track number song = .ok removed after) :
    ∃ old new, song.tracks[track]? = some old ∧ old.remove number = .ok (removed, new) ∧
      after = recount { song with tracks := song.tracks.set track new.rewind } := by
  cases here : song.tracks[track]? with
  | none => simp [removeEvent, here] at done
  | some old =>
    cases taken : old.remove number with
    | error fault => simp [removeEvent, here, taken] at done
    | ok made =>
      simp only [removeEvent, here, taken] at done
      cases done
      exact ⟨old, made.2, rfl, taken, rfl⟩

theorem holdLastTempo_ok {entry : Entry S} (done : song.holdLastTempo = some (entry, after)) :
    ∃ tempoMap, song.tempoMap.acquire song.endTick = some (entry, tempoMap) ∧ after = { song with tempoMap := tempoMap } := by
  obtain ⟨⟨held, tempoMap⟩, acquired, made⟩ := Option.map_eq_some_iff.mp done
  cases made
  exact ⟨tempoMap, acquired, rfl⟩

theorem releaseTempo_ok {handle : Handle} {entry : Entry S} (done : song.releaseTempo handle = some (entry, after)) :
    ∃ tempoMap, song.tempoMap.release song.division handle = some (entry, tempoMap) ∧
      after = if (tempoMap.live? handle).isSome then { song with tempoMap := tempoMap }
        else refreshFrom 0 { song with tempoMap := tempoMap } := by
  obtain ⟨⟨released, tempoMap⟩, found, made⟩ := Option.map_eq_some_iff.mp done
  cases made
  exact ⟨tempoMap, found, rfl⟩

section
variable [Workers]

theorem encodeBodies_ok_iff {tracks : List (Track S)} {bodies : List (List UInt8)} :
    encodeBodies tracks = .ok bodies ↔ tracks.mapM Track.encode = .ok bodies := by
  rw [encodeBodies, Workers.collect_ok_iff, List.mapM_map]
  rfl

theorem encode_ok {bytes : List UInt8} (done : encode song = .ok bytes after) :
    (song.format = .single → song.tracks.length = 1) ∧ song.tracks.length < 0x10000 ∧
      ∃ closed bodies, endTracks song = .ok () closed ∧ closed.tracks.mapM Track.encode = .ok bodies ∧
        bytes = fileOf closed.header bodies ∧ after = rewind (closed.measured bodies) := by
  by_cases notOne : (song.format = .single && song.tracks.length != 1) = true
  · rw [encode, if_pos notOne] at done
    cases done
  · by_cases many : 0x10000 ≤ song.tracks.length
    · rw [encode, if_neg notOne, if_pos many] at done
      cases done
    · rw [encode, if_neg notOne, if_neg many] at done
      cases ended : endTracks song with
      | error fault left => simp [ended] at done
      | ok _ closed =>
        cases encoded : encodeBodies closed.tracks with
        | error fault => simp [ended, encoded] at done
        | ok bodies =>
          simp only [ended, encoded] at done
          cases done
          refine ⟨?_, Nat.lt_of_not_le many, closed, bodies, rfl, encodeBodies_ok_iff.mp encoded, rfl, rfl⟩
          intro single
          simpa [single] using notOne

/-- What storing comes to once the tracks have their ends. -/
theorem encode_of_ended {closed : Song S} (single : song.format = .single → song.tracks.length = 1)
    (count : song.tracks.length < 0x10000) (ended : endTracks song = .ok () closed) :
    encode song = match encodeBodies closed.tracks with
      | .error fault => .error fault closed
      | .ok bodies => .ok (fileOf closed.header bodies) (rewind (closed.measured bodies)) := by
  have one : ¬(song.format = .single && song.tracks.length != 1) = true := by simpa using single
  rw [encode, if_neg one, if_neg (Nat.not_le_of_lt count)]
  simp only [ended]
  rfl

/-- What a song is refused to be stored for, and what is left of it then. -/
theorem encode_error_cases {fault : Fault} (failed : encode song = .error fault after) :
    (song.format = .single ∧ song.tracks.length ≠ 1) ∧ fault = .misuse .singleTrackCount ∧ after = song ∨
      (song.format = .single → song.tracks.length = 1) ∧
        (0x10000 ≤ song.tracks.length ∧ fault = .misuse .trackCountRange ∧ after = song ∨
          song.tracks.length < 0x10000 ∧ (endTracks song = .error fault after ∨
            endTracks song = .ok () after ∧ encodeBodies after.tracks = .error fault)) := by
  by_cases notOne : (song.format = .single && song.tracks.length != 1) = true
  · rw [encode, if_pos notOne] at failed
    cases failed
    exact .inl ⟨by simpa using notOne, rfl, rfl⟩
  · have single : song.format = .single → song.tracks.length = 1 := by simpa using notOne
    by_cases many : 0x10000 ≤ song.tracks.length
    · rw [encode, if_neg notOne, if_pos many] at failed
      cases failed
      exact .inr ⟨single, .inl ⟨many, rfl, rfl⟩⟩
    · rw [encode, if_neg notOne, if_neg many] at failed
      refine .inr ⟨single, .inr ⟨Nat.lt_of_not_le many, ?_⟩⟩
      cases ended : endTracks song with
      | error refused left =>
        simp only [ended] at failed
        cases failed
        exact .inl rfl
      | ok _ closed =>
        cases encoded : encodeBodies closed.tracks with
        | ok bodies => simp [ended, encoded] at failed
        | error refused =>
          simp only [ended, encoded] at failed
          cases failed
          exact .inr ⟨rfl, encoded⟩

end

/-! ## Refused edits -/

/-- A refused edit leaves the song as it was. -/
def Atomic {α : Type} (edit : Edit S α) : Prop := ∀ song fault after, edit song = .error fault after → after = song

theorem atomic_setFormat (format : Format) : Atomic (setFormat format : Edit S Unit) := by
  intro song fault after failed
  rw [setFormat] at failed
  split at failed <;> cases failed
  rfl

theorem atomic_setTicksPerQuarter (ticks : Nat) : Atomic (setTicksPerQuarter ticks : Edit S Unit) := by
  intro song fault after failed
  simp only [setTicksPerQuarter] at failed
  split at failed
  · cases failed; rfl
  · split at failed <;> cases failed
    rfl

theorem atomic_setTimecode (rate : FrameRate) (resolution : UInt8) : Atomic (setTimecode rate resolution : Edit S Unit) := by
  intro song fault after failed
  simp only [setTimecode] at failed
  split at failed <;> cases failed
  rfl

theorem atomic_addTrack (track : Track S) : Atomic (addTrack track) := by
  intro song fault after failed
  simp only [addTrack] at failed
  split at failed <;> cases failed
  rfl

theorem atomic_removeTrack (number : Nat) : Atomic (removeTrack number : Edit S (Track S)) := by
  intro song fault after failed
  simp only [removeTrack] at failed
  split at failed <;> cases failed
  rfl

theorem atomic_addEvent (track : Nat) (message : Message) (tick : Nat) : Atomic (addEvent track message tick : Edit S Nat) := by
  intro song fault after failed
  simp only [addEvent] at failed
  split at failed
  · cases failed; rfl
  · split at failed
    · cases failed; rfl
    · split at failed <;> cases failed
      rfl

theorem atomic_addEventAtSeconds (track : Nat) (message : Message) (seconds : S) :
    Atomic (addEventAtSeconds track message seconds) := by
  intro song fault after failed
  cases nearest : song.tickAt seconds with
  | error refused =>
    simp only [addEventAtSeconds, nearest] at failed
    cases failed
    rfl
  | ok tick =>
    simp only [addEventAtSeconds, nearest] at failed
    exact atomic_addEvent track message tick song fault after failed

theorem atomic_removeEvent (track number : Nat) : Atomic (removeEvent track number : Edit S (Event S)) := by
  intro song fault after failed
  simp only [removeEvent] at failed
  split at failed
  · cases failed; rfl
  · split at failed <;> cases failed
    rfl

end

end Song

end MidiFile
