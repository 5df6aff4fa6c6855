import MidiFile.Proofs.Song.Untimed

/-! # Giving tracks their ends

A song is stored with an end to every track. Tracks that have none get one at the tick of their last
event, one track after the other, and every one of these edits works times out anew. What they come to
can be said at once (`Song.close`): no edit of a sound song is refused, and up to times the song is then
the closed one (`Sound.endTracks`). If its times were right it is the closed one altogether
(`Timed.endTracks`). So storing a song is a matter of the closed song (`Sound.encode_ok`,
`Timed.encode_eq`).
-/

namespace MidiFile

variable {S : Type}

namespace Track

theorem endTick_untimed (track : Track S) : track.untimed.endTick = track.endTick := by
  rw [endTick, endTick, last?, last?, untimed, List.getLast?_map]
  cases track.events.getLast? <;> rfl

theorem untimed_close (track : Track S) : track.close.untimed = track.untimed.close := by
  rw [close, close, isEnded_untimed, endTick_untimed]
  split
  · rfl
  · exact untimed_put _ _ _

theorem close_of_ended {track : Track S} (ended : track.isEnded = true) : track.close = track := by rw [close, if_pos ended]

/-- A track without an end gets one behind its last event. -/
theorem close_of_open {track : Track S} (inOrder : InOrder 0 0 track.events) (open_ : track.isEnded = false) :
    track.close = rewind { track with
      events := track.events ++ [{ Body.addedEnd track.events with track? := track.number? }] } := by
  have behind := Body.inOrder_addedEnd inOrder (open_of_not_ended inOrder.regular open_)
  have placed : (track.place Message.endOfTrack track.endTick).2 =
      { track with events := track.events ++ [{ Body.addedEnd track.events with track? := track.number? }] } :=
    congrArg Prod.snd (place_behind behind)
  rw [close, open_, if_neg Bool.false_ne_true, put, placed]

/-- The contents of a track with an end. -/
def closedContent (content : List (Nat × Message)) : List (Nat × Message) :=
  if content.getLast?.any (·.2.isEnd) then content else content ++ [(0, Message.endOfTrack)]

theorem content_close {track : Track S} (inOrder : InOrder 0 0 track.events) :
    track.close.content = closedContent track.content := by
  have last : track.content.getLast?.any (·.2.isEnd) = track.isEnded := by
    rw [content, List.getLast?_map, Option.any_map]
    rfl
  rw [closedContent, last]
  cases ended : track.isEnded with
  | true => rw [close_of_ended ended, if_pos rfl]
  | false =>
    rw [close_of_open inOrder ended, if_neg Bool.false_ne_true, content, events_rewind, List.map_append]
    rfl

end Track

namespace Song

variable [Clock S] {song after between closed : Song S}

/-- The song up to times, with an end to each of so many first tracks. -/
structure EndedUpTo (count : Nat) (song after : Song S) : Prop where
  header : after.header = song.header
  warnings : after.warnings = song.warnings
  position : after.position? = song.position?
  tracks : ∀ number : Nat, after.tracks[number]?.map Track.untimed =
    song.tracks[number]?.map fun track => (if number < count then track.close else track).untimed
  sound : after.Sound
  timed : song.Timed → after.Timed ∧ after.tempoMap.idle = song.tempoMap.idle

theorem endedUpTo_zero (sound : song.Sound) : song.EndedUpTo 0 song :=
  ⟨rfl, rfl, rfl, fun number => by simp, sound, fun timed => ⟨timed, rfl⟩⟩

/-- With the next track closed, one more of them is. -/
theorem EndedUpTo.tracks_set {count : Nat} (ended : song.EndedUpTo count between) {track new : Track S}
    (here : between.tracks[count]? = some track) (closes : new.untimed = track.close.untimed) (number : Nat) :
    (between.tracks.set count new)[number]?.map Track.untimed =
      song.tracks[number]?.map fun track => (if number < count + 1 then track.close else track).untimed := by
  by_cases place : number = count
  · subst place
    have there := ended.tracks number
    rw [here, Option.map_some, eq_comm, Option.map_eq_some_iff] at there
    obtain ⟨old, found, same⟩ := there
    rw [if_neg (Nat.lt_irrefl _)] at same
    rw [List.getElem?_set_self (List.getElem?_eq_some_iff.mp here).1, found, Option.map_some, Option.map_some,
      if_pos (Nat.lt_succ_self _), closes, Track.untimed_close, ← same, Track.untimed_close]
  · rw [List.getElem?_set_ne (Ne.symm place), ended.tracks number]
    simp only [show number < count + 1 ↔ number < count by omega]

/-- A track gets its end where it has none. -/
theorem EndedUpTo.endTrack {count : Nat} (ended : song.EndedUpTo count between) (inside : count < song.tracks.length) :
    ∃ after, endTrack count between = .ok () after ∧ song.EndedUpTo (count + 1) after := by
  obtain ⟨track, here⟩ : ∃ track, between.tracks[count]? = some track := by
    have there := ended.tracks count
    rw [List.getElem?_eq_getElem inside, Option.map_some] at there
    obtain ⟨track, here, _⟩ := Option.map_eq_some_iff.mp there
    exact ⟨track, here⟩
  by_cases isEnded : track.isEnded = true
  · have kept : between.tracks.set count track = between.tracks := by
      rw [← (List.getElem?_eq_some_iff.mp here).2, List.set_getElem_self]
    refine ⟨between, by rw [Song.endTrack, here, Option.all_some, if_pos isEnded], ended.header, ended.warnings,
      ended.position, ?_, ended.sound, ended.timed⟩
    have now := ended.tracks_set here (by rw [Track.close_of_ended isEnded])
    rwa [kept] at now
  · have within : track.endTick ≤ greatestTick := Track.endTick_le (ended.sound.inOrder track (List.mem_of_getElem? here))
    have wellFormed : Message.endOfTrack.WellFormed := ⟨[], rfl⟩
    have accepts : track.Accepts .endOfTrack track.endTick := fun _ => ⟨by simpa using isEnded, Nat.le_refl _⟩
    have added := (addEvent_ok_iff here within).mpr ⟨accepts, rfl, rfl⟩
    refine ⟨refreshFrom track.endTick (between.put count .endOfTrack track.endTick), ?_, ended.header, ended.warnings,
      ended.position, ?_, ended.sound.addEvent wellFormed added, ?_⟩
    · rw [Song.endTrack, here, Option.all_some, if_neg isEnded]
      simp only [addEventAfter, here, Option.elim_some, Nat.add_zero, added]
    · intro number
      have closes : (track.put .endOfTrack track.endTick).untimed = track.close.untimed := by
        rw [Track.close, if_neg isEnded]
      have put := ended.tracks_set here closes number
      rw [set_eq_modify here (Track.put .endOfTrack track.endTick)] at put
      rw [← List.getElem?_map, tracks_untimed_refreshFrom, List.getElem?_map]
      exact put
    · intro timed
      obtain ⟨timedBetween, idle⟩ := ended.timed timed
      refine ⟨timedBetween.addEvent added, ?_⟩
      have silent : between.tempoMap.register between.division track.endTick .endOfTrack = between.tempoMap :=
        TempoMap.register_of_silent _ _ rfl
      exact ((silent.symm ▸ timedBetween.ordered).idle_recount _).trans ((congrArg TempoMap.idle silent).trans idle)

/-- No track of a sound song is refused its end. -/
theorem Sound.endTracks (sound : song.Sound) :
    ∃ closed, Song.endTracks song = .ok () closed ∧ song.EndedUpTo song.tracks.length closed := by
  have onward : ∀ (left count : Nat) (between : Song S), count + left = song.tracks.length → song.EndedUpTo count between →
      ∃ closed, (List.range' count left).forM Song.endTrack between = .ok () closed ∧
        song.EndedUpTo song.tracks.length closed := by
    intro left
    induction left with
    | zero => exact fun count between whole ended => ⟨between, rfl, whole ▸ ended⟩
    | succ left ih =>
      intro count between whole ended
      obtain ⟨after, done, further⟩ := ended.endTrack (by omega)
      obtain ⟨closed, rest, all⟩ := ih (count + 1) after (by omega) further
      refine ⟨closed, ?_, all⟩
      change EStateM.bind (Song.endTrack count) (fun _ => (List.range' (count + 1) left).forM Song.endTrack) between = _
      simp only [EStateM.bind, done, rest]
  rw [Song.endTracks, List.range_eq_range']
  exact onward _ 0 song (Nat.zero_add _) (endedUpTo_zero sound)

/-- Where every track has an end, each is what it was when closed, up to times. -/
theorem EndedUpTo.untimed_tracks (ended : song.EndedUpTo song.tracks.length closed) :
    closed.tracks.map Track.untimed = (song.tracks.map Track.close).map Track.untimed := by
  apply List.ext_getElem?
  intro number
  rw [List.getElem?_map, ended.tracks number, List.map_map, List.getElem?_map]
  cases here : song.tracks[number]? with
  | none => rfl
  | some track =>
    rw [Option.map_some, if_pos (List.getElem?_eq_some_iff.mp here).1]
    rfl

theorem EndedUpTo.length (ended : song.EndedUpTo song.tracks.length closed) :
    closed.tracks.length = song.tracks.length := by
  simpa using congrArg List.length ended.untimed_tracks

theorem EndedUpTo.frames (ended : song.EndedUpTo song.tracks.length closed) :
    closed.tracks.map Track.frame = (song.tracks.map Track.close).map Track.frame := by
  have part (tracks : List (Track S)) :
      tracks.map Track.frame = (tracks.map Track.untimed).map fun track => (track.number?, track.events) := by
    rw [List.map_map]
    rfl
  rw [part, ended.untimed_tracks, ← part]

theorem EndedUpTo.ends (ended : song.EndedUpTo song.tracks.length closed) (sound : song.Sound) :
    ∀ track ∈ closed.tracks, Ended track.events := by
  intro track member
  have listed : track.untimed ∈ (song.tracks.map Track.close).map Track.untimed :=
    ended.untimed_tracks ▸ List.mem_map_of_mem member
  obtain ⟨close, among, same⟩ := List.mem_map.mp listed
  obtain ⟨old, oldMember, rfl⟩ := List.mem_map.mp among
  apply (Track.inOrder_close (sound.inOrder old oldMember)).2.of_messages
  have messages (track : Track S) : track.events.map (·.message) = track.untimed.events.map (·.message) := by
    rw [Track.untimed, List.map_map]
    rfl
  rw [messages, ← same, ← messages]

/-- Where all tracks have their ends there is nothing to do. -/
theorem endTracks_of_ended (ended : ∀ track ∈ song.tracks, Ended track.events) : Song.endTracks song = .ok () song := by
  have one (number : Nat) : Song.endTrack number song = .ok () song := by
    refine if_pos ?_
    cases here : song.tracks[number]? with
    | none => rfl
    | some track => exact Track.isEnded_eq_true_iff_ended.mpr (ended track (List.mem_of_getElem? here))
  rw [Song.endTracks]
  induction List.range song.tracks.length with
  | nil => rfl
  | cons number rest ih =>
    change EStateM.bind (Song.endTrack number) (fun _ => rest.forM Song.endTrack) song = _
    simp only [EStateM.bind, one, ih]

/-! ## All tracks at once -/

/-- The song with an end to every track. -/
def close (song : Song S) : Song S :=
  recount { song with tracks := song.tracks.map fun track =>
    if track.isEnded then track
    else { track.close with events := track.close.events.map (song.refreshEvent track.endTick) } }

theorem untimed_tracks_close (song : Song S) :
    song.close.tracks.map Track.untimed = (song.tracks.map Track.close).map Track.untimed := by
  simp only [close, recount, List.map_map]
  apply List.map_congr_left
  intro track _
  simp only [Function.comp_apply]
  by_cases ended : track.isEnded = true
  · rw [if_pos ended, Track.close_of_ended ended]
  · rw [if_neg ended]
    simp [Track.untimed, Function.comp_def]

theorem Timed.close (timed : song.Timed) : song.close.Timed := by
  refine timed_recount timed.ordered timed.settled ?_
  intro event member
  obtain ⟨part, among, inside⟩ := List.mem_flatMap.mp member
  obtain ⟨track, old, rfl⟩ := List.mem_map.mp among
  by_cases ended : track.isEnded = true
  · rw [if_pos ended] at inside
    exact timed.timely event (List.mem_flatMap.mpr ⟨track, old, inside⟩)
  · rw [if_neg ended] at inside
    obtain ⟨placed, placedInside, rfl⟩ := List.mem_map.mp inside
    apply isTimely_refreshEvent
    intro early
    rw [Track.close, if_neg ended, Track.put, Track.events_rewind] at placedInside
    obtain ⟨source, sourceInside, same⟩ := Track.old_of_mem_place _ _ _ placedInside early
    exact timed.dated ⟨source, List.mem_flatMap.mpr ⟨track, old, sourceInside⟩, same⟩

/-- A timed song whose tracks get their ends one after the other becomes the closed song. -/
theorem Timed.endTracks (timed : song.Timed) (sound : song.Sound) :
    Song.endTracks song = .ok () song.close ∧ song.EndedUpTo song.tracks.length song.close := by
  obtain ⟨closed, done, ended⟩ := sound.endTracks
  obtain ⟨timedClosed, idle⟩ := ended.timed timed
  have same : closed.untimed = song.close.untimed := by
    have tracks := ended.untimed_tracks.trans (untimed_tracks_close song).symm
    have idleToo : song.close.tempoMap.idle = song.tempoMap.idle := timed.ordered.idle_recount _
    rw [untimed, untimed, tracks, idle, idleToo, ended.header, ended.warnings, ended.position]
    rfl
  obtain rfl := timedClosed.eq_of_untimed timed.close same
  exact ⟨done, ended⟩

section
variable [Workers] {bytes : List UInt8}

theorem Sound.encode_ok (sound : song.Sound) (done : encode song = .ok bytes after) :
    (song.format = .single → song.tracks.length = 1) ∧ song.tracks.length < 0x10000 ∧
      ∃ closed bodies, song.EndedUpTo song.tracks.length closed ∧ closed.tracks.mapM Track.encode = .ok bodies ∧
        bytes = fileOf song.header bodies ∧ after = (closed.measured bodies).rewind := by
  obtain ⟨single, count, closed, bodies, closing, encoded, rfl, rfl⟩ := Song.encode_ok done
  obtain ⟨other, closingToo, ended⟩ := sound.endTracks
  cases closing.symm.trans closingToo
  exact ⟨single, count, closed, bodies, ended, encoded, by rw [ended.header], rfl⟩

/-- What the closed tracks are stored as is the file. -/
theorem Sound.exists_encode (sound : song.Sound) (single : song.format = .single → song.tracks.length = 1)
    (count : song.tracks.length < 0x10000) {bodies : List (List UInt8)}
    (encoded : (song.tracks.map Track.close).mapM Track.encode = .ok bodies) :
    ∃ saved, encode song = .ok (fileOf song.header bodies) saved := by
  obtain ⟨closed, done, ended⟩ := sound.endTracks
  have encodedToo := encodeBodies_ok_iff.mpr ((mapM_encode_of_frames ended.frames).trans encoded)
  refine ⟨(closed.measured bodies).rewind, ?_⟩
  rw [encode_of_ended single count done, encodedToo, ended.header]

/-- What a change results in, leaving aside what it makes of the song. -/
def outcome {α : Type} (edit : Edit S α) (song : Song S) : Except Fault α :=
  match edit song with
  | .ok value _ => .ok value
  | .error fault _ => .error fault

/-- What is stored of a sound song is a matter of its header and of its tracks with their ends. -/
theorem Sound.outcome_encode (sound : song.Sound) : outcome encode song =
    if song.format = .single && song.tracks.length != 1 then .error (.misuse .singleTrackCount)
    else if 0x10000 ≤ song.tracks.length then .error (.misuse .trackCountRange)
    else (encodeBodies (song.tracks.map Track.close)).map (fileOf song.header) := by
  obtain ⟨closed, closing, ended⟩ := sound.endTracks
  have bodies := encodeBodies_of_contents (contents_of_frames ended.frames)
  rw [outcome, encode]
  by_cases notOne : (song.format = .single && song.tracks.length != 1) = true
  · rw [if_pos notOne, if_pos notOne]
  · by_cases many : 0x10000 ≤ song.tracks.length
    · rw [if_neg notOne, if_pos many, if_neg notOne, if_pos many]
    · rw [if_neg notOne, if_neg many, if_neg notOne, if_neg many, closing, ← bodies]
      simp only [ended.header]
      cases encodeBodies closed.tracks <;> rfl

/-- Sound songs of the same header whose tracks have the same contents are stored as the same file, or
    are refused for the same fault. -/
theorem Sound.outcome_encode_of_contents {other : Song S} (sound : song.Sound) (soundToo : other.Sound)
    (headed : other.header = song.header) (contents : other.tracks.map Track.content = song.tracks.map Track.content) :
    outcome encode other = outcome encode song := by
  have length : other.tracks.length = song.tracks.length := by simpa using congrArg List.length contents
  have format : other.format = song.format := congrArg Header.format headed
  have closed {song : Song S} (sound : song.Sound) :
      (song.tracks.map Track.close).map Track.content = (song.tracks.map Track.content).map Track.closedContent := by
    rw [List.map_map, List.map_map]
    exact List.map_congr_left fun track member => Track.content_close (sound.inOrder track member)
  have bodies : encodeBodies (other.tracks.map Track.close) = encodeBodies (song.tracks.map Track.close) :=
    encodeBodies_of_contents (by rw [closed soundToo, closed sound, contents])
  rw [soundToo.outcome_encode, sound.outcome_encode, format, length, bodies, headed]

/-- A timed song is stored as the closed song. -/
theorem Timed.encode_eq (timed : song.Timed) (sound : song.Sound)
    (single : song.format = .single → song.tracks.length = 1) (count : song.tracks.length < 0x10000) :
    encode song = match encodeBodies song.close.tracks with
      | .error fault => .error fault song.close
      | .ok bodies => .ok (fileOf song.header bodies) (song.close.measured bodies).rewind :=
  encode_of_ended single count (timed.endTracks sound).1

theorem Timed.encode_ok (timed : song.Timed) (sound : song.Sound) (done : encode song = .ok bytes after) :
    (song.format = .single → song.tracks.length = 1) ∧ song.tracks.length < 0x10000 ∧
      ∃ bodies, song.close.tracks.mapM Track.encode = .ok bodies ∧ bytes = fileOf song.header bodies ∧
        after = (song.close.measured bodies).rewind := by
  obtain ⟨single, count, closed, bodies, closing, encoded, rfl, rfl⟩ := Song.encode_ok done
  cases closing.symm.trans (timed.endTracks sound).1
  exact ⟨single, count, bodies, encoded, rfl, rfl⟩

/-- What a timed song is refused for leaves it as it was, or closed. -/
theorem Timed.encode_error_cases (timed : song.Timed) (sound : song.Sound) {fault : Fault}
    (failed : encode song = .error fault after) :
    (song.format = .single ∧ song.tracks.length ≠ 1) ∧ fault = .misuse .singleTrackCount ∧ after = song ∨
      (song.format = .single → song.tracks.length = 1) ∧
        (0x10000 ≤ song.tracks.length ∧ fault = .misuse .trackCountRange ∧ after = song ∨
          song.tracks.length < 0x10000 ∧ encodeBodies song.close.tracks = .error fault ∧ after = song.close) := by
  have ended := (timed.endTracks sound).1
  refine (Song.encode_error_cases failed).imp_right (And.imp_right (Or.imp_right (And.imp_right ?_)))
  rintro (halfway | ⟨done, refused⟩)
  · cases halfway.symm.trans ended
  · cases done.symm.trans ended
    exact ⟨refused, rfl⟩

end

end Song

end MidiFile
