import MidiFile.Proofs.Song.Play

/-! # Seeking

Seeking rewinds a song and plays on as long as the next event is one to pass. It comes to stand behind
the longest row of first events that are all to be passed, in the order in which the song is played,
and in front of the first event that is not (`Song.Lands`); where there is no such event, all cursors
are at their ends. Playing is all that it does to the cursors. So what a cursor is at can be told from
its own track when the events to pass are those in front of a tick, and an event that is sought by its
place is found if and only if there is one (`Song.session_seeks_land`).
-/

namespace MidiFile

variable {S : Type}

theorem take_takeWhile_length {α : Type} (pass : α → Bool) (xs : List α) :
    xs.take (xs.takeWhile pass).length = xs.takeWhile pass :=
  (List.prefix_iff_eq_take.mp (List.takeWhile_prefix pass)).symm

theorem drop_takeWhile_length {α : Type} (pass : α → Bool) (xs : List α) :
    xs.drop (xs.takeWhile pass).length = xs.dropWhile pass := by
  have whole : xs.takeWhile pass ++ xs.drop (xs.takeWhile pass).length = xs :=
    List.prefix_iff_eq_append.mp (List.takeWhile_prefix pass)
  exact List.append_cancel_left (whole.trans List.takeWhile_append_dropWhile.symm)

namespace Track

/-- The track without its cursor. -/
def still (track : Track S) : Track S := { track with cursor := Cursor.nowhere }

@[simp] theorem still_rewind (track : Track S) : track.rewind.still = track.still := by
  cases track with
  | mk number? events size cursor => cases events <;> rfl

theorem eq_of_still {track after : Track S} (same : after.still = track.still) :
    after = { track with cursor := after.cursor } := by
  cases track
  cases after
  simpa [still] using same

/-- A cursor that has passed what it should and nothing else is at the first of all other events. -/
theorem next?_eq_findIdx? {track : Track S} (aligned : track.Aligned) {sought : Event S → Bool}
    (passed : ∀ event ∈ track.behind, sought event = false) (left : ∀ event ∈ track.ahead, sought event = true) :
    track.cursor.next? = track.events.findIdx? sought := by
  have none_ : track.behind.findIdx? sought = none := List.findIdx?_eq_none_iff.mpr passed
  rw [← track.behind_append_ahead, List.findIdx?_append, none_]
  cases next : track.cursor.next? with
  | none => simp [ahead, next]
  | some number =>
    obtain ⟨event, after, _, _, whole, _⟩ := exists_advance? aligned next
    obtain ⟨_, here, _⟩ := aligned number next
    have inside := (List.getElem?_eq_some_iff.mp here).1
    have first := left event (whole ▸ List.mem_cons_self)
    simp [whole, first, behind, next, List.findIdx?_cons]
    omega

end Track

namespace Song

variable {song : Song S}

/-- What playing an event keeps is kept however many are played. -/
theorem playFrom_keeps {good : Song S → Prop}
    (kept : ∀ song event after, good song → song.next? = some (event, after) → good after) (played : List (Event S))
    (count : Nat) (start : good song) : good (song.playFrom played count).2 := by
  induction count generalizing played song with
  | zero => exact start
  | succ count ih =>
    rw [playFrom]
    cases next : song.next? with
    | none => exact start
    | some found => exact ih _ (kept song found.1 found.2 start next)

/-- Playing moves cursors and nothing else. -/
theorem still_next? {event : Event S} {after : Song S} (done : song.next? = some (event, after)) :
    after.tracks.map Track.still = song.tracks.map Track.still := by
  obtain ⟨number, track, advanced, _, here, step, rfl⟩ := next?_some done
  have same : advanced.still = track.still := by
    obtain ⟨_, _, _, rfl⟩ := Track.advance?_some step
    rfl
  have moved : List.Forall₂ (fun old new : Track S => new.still = old.still) song.tracks (song.tracks.set number advanced) := by
    refine forall₂_set ?_ here same
    exact fun _ => rfl
  exact map_eq_of_forall₂ moved

theorem still_play (song : Song S) (count : Nat) :
    (song.play count).2.tracks.map Track.still = song.tracks.map Track.still := by
  have kept : ∀ (before : Song S) (event : Event S) (after : Song S),
      before.tracks.map Track.still = song.tracks.map Track.still → before.next? = some (event, after) →
        after.tracks.map Track.still = song.tracks.map Track.still :=
    fun _ _ _ same done => (still_next? done).trans same
  exact playFrom_keeps kept [] count rfl

theorem events_of_still {after : Song S} (same : after.tracks.map Track.still = song.tracks.map Track.still) :
    after.events = song.events := by
  have own (song : Song S) : song.events = (song.tracks.map Track.still).flatMap (·.events) := by
    rw [List.flatMap_map]
    rfl
  rw [own, same, ← own]

theorem Sound.play (sound : song.Sound) (count : Nat) : (song.play count).2.Sound :=
  playFrom_keeps (fun _ _ _ before done => before.next? done) [] count sound

theorem Aligned.play (aligned : song.Aligned) (count : Nat) : (song.play count).2.Aligned :=
  playFrom_keeps (fun _ _ _ before done => Track.cursorLaw_aligned.next? before done) [] count aligned

theorem next?_eq_none_iff (sound : song.Sound) (aligned : song.Aligned) :
    song.next? = none ↔ ∀ track ∈ song.tracks, track.cursor.next? = none := by
  constructor
  · intro silent
    rcases next?_cases sound aligned with ⟨_, empty⟩ | ⟨_, _, played, _⟩
    · intro track member
      have own : track.ahead = [] := List.flatMap_eq_nil_iff.mp empty track member
      by_contra waiting
      obtain ⟨number, next⟩ := Option.ne_none_iff_exists'.mp waiting
      obtain ⟨_, _, _, _, whole, _⟩ := Track.exists_advance? (aligned track member) next
      rw [own] at whole
      cases whole
    · rw [silent] at played
      cases played
  · intro exhausted
    rw [next?, nextTrack?_eq_none_iff.mpr exhausted]

namespace Plays

variable {events : List (Event S)}

theorem perm_ahead (plays : song.Plays events) (sound : song.Sound) (aligned : song.Aligned) : events.Perm song.ahead := by
  induction plays with
  | silence silent =>
    rcases next?_cases sound aligned with ⟨_, empty⟩ | ⟨_, _, played, _⟩
    · rw [empty]
    · rw [silent] at played
      cases played
  | next played later ih =>
    rcases next?_cases sound aligned with ⟨silent, _⟩ | ⟨_, _, same, all, _, soundAfter, alignedAfter⟩
    · rw [silent] at played
      cases played
    · rw [played] at same
      cases same
      exact ((ih soundAfter alignedAfter).cons _).trans all.symm

/-- When the events of a song are played in this order, the first of them end up behind the cursors
    and the others in front of them. -/
theorem perm_play (plays : song.Plays events) (sound : song.Sound) (aligned : song.Aligned) (all : events.Perm song.events)
    (count : Nat) :
    (song.play count).2.behind.Perm (events.take count) ∧ (song.play count).2.ahead.Perm (events.drop count) := by
  have left : (song.play count).2.ahead.Perm (events.drop count) :=
    ((plays.playFrom count []).2.perm_ahead (sound.play count) (aligned.play count)).symm
  refine ⟨(List.perm_append_right_iff (song.play count).2.ahead).mp ?_, left⟩
  have whole : ((song.play count).2.behind ++ (song.play count).2.ahead).Perm events := by
    refine (perm_behind_append_ahead _).trans ?_
    rw [events_of_still (still_play song count)]
    exact all.symm
  have parts : (events.take count ++ (song.play count).2.ahead).Perm events := by
    simpa using left.append_left (events.take count)
  exact whole.trans parts.symm

/-- Seeking plays the first events, as far as all of them are to be passed. -/
theorem seekWhile (plays : song.Plays events) (pass : Event S → Bool) (played : List (Event S)) :
    song.seekWhile pass = ((events.dropWhile pass).head?.isSome,
      { (song.playFrom played (events.takeWhile pass).length).2 with
        position? := (events.dropWhile pass).head?.bind Event.seconds? }) := by
  induction plays generalizing played with
  | silence silent =>
    rw [Song.seekWhile]
    split
    · rfl
    · rename_i found
      rw [silent] at found
      cases found
  | @next song after event events next later ih =>
    rw [Song.seekWhile]
    split
    · rename_i found
      rw [next] at found
      cases found
    · rename_i found
      rw [next] at found
      cases found
      by_cases passed : pass event = true
      · rw [if_pos passed, ih (event :: played), List.dropWhile_cons_of_pos passed, List.takeWhile_cons_of_pos passed,
          List.length_cons, Song.playFrom, next]
      · rw [if_neg passed, List.dropWhile_cons_of_neg passed, List.takeWhile_cons_of_neg passed]
        rfl

end Plays

/-! ## Where seeking ends -/

/-- Seeking played the longest row of first events that are all to be passed, in the order in which they
    are played, and shows the first event that is not. It found one if there is such an event; where
    there is none, all cursors are at their ends and the song stands nowhere. -/
structure Lands (start : Song S) (order : List (Event S)) (pass : Event S → Bool) (result : Bool × Song S) : Prop where
  played : result.2 = { (start.play (order.takeWhile pass).length).2 with position? := result.2.position? }
  shown : result.2.peek? = (order.dropWhile pass).head?
  found : result.1 = true ↔ ∃ event ∈ order, pass event = false
  missing : result.1 = false → (∀ track ∈ result.2.tracks, track.cursor.next? = none) ∧ result.2.position? = none

/-- The song stands at the time of the event that comes next. -/
def StandsAtNext (song : Song S) : Prop :=
  ∃ next seconds, song.peek? = some next ∧ next.seconds? = some seconds ∧ song.position? = some seconds

section
variable {order : List (Event S)} {pass : Event S → Bool}

/-- What is left when the events to be passed were played. -/
theorem Plays.play_takeWhile (plays : song.Plays order) (pass : Event S → Bool) :
    (song.play (order.takeWhile pass).length).2.Plays (order.dropWhile pass) := by
  rw [← drop_takeWhile_length]
  exact (plays.playFrom _ []).2

theorem Plays.peek?_seekWhile (plays : song.Plays order) (pass : Event S → Bool) :
    (song.seekWhile pass).2.peek? = (order.dropWhile pass).head? := by
  rw [plays.seekWhile pass []]
  -- Where the song stands has no part in what comes next.
  show (song.play (order.takeWhile pass).length).2.peek? = _
  rw [peek?_eq, (plays.play_takeWhile pass).next?_eq]

theorem Plays.lands (plays : song.Plays order) (sound : song.Sound) (aligned : song.Aligned) (pass : Event S → Bool) :
    song.Lands order pass (song.seekWhile pass) := by
  have shown := plays.peek?_seekWhile pass
  have left := (plays.play_takeWhile pass).next?_eq
  rw [plays.seekWhile pass []] at shown ⊢
  refine ⟨rfl, shown, ?_, ?_⟩
  · simp [List.isSome_head?]
  · intro nothing
    have none_ : order.dropWhile pass = [] := by simpa using nothing
    rw [none_, List.head?_nil, Option.map_eq_none_iff] at left
    exact ⟨(next?_eq_none_iff (sound.play _) (aligned.play _)).mp left, by rw [none_]; rfl⟩

/-- Where seeking finds an event, the song stands at its time. -/
theorem Plays.standsAtNext (plays : song.Plays order) (timed : ∀ event ∈ order, event.seconds? ≠ none)
    (found : (song.seekWhile pass).1 = true) : (song.seekWhile pass).2.StandsAtNext := by
  have shown := plays.peek?_seekWhile pass
  rw [plays.seekWhile pass []] at found shown ⊢
  obtain ⟨next, first⟩ := Option.isSome_iff_exists.mp found
  obtain ⟨seconds, known⟩ := Option.ne_none_iff_exists'.mp
    (timed next ((List.dropWhile_sublist _).subset (List.mem_of_head? first)))
  exact ⟨next, seconds, shown.trans first, known, by simp [first, known]⟩

/-- Where the song stands is no part of where its cursors are. -/
theorem Lands.stand {start : Song S} {result : Bool × Song S} (lands : start.Lands order pass result) (seconds : S) :
    start.Lands order pass (result.1, if result.1 then { result.2 with position? := some seconds } else result.2) := by
  obtain ⟨found, after⟩ := result
  cases found with
  | false => exact lands
  | true => exact ⟨by rw [if_pos rfl, lands.played], lands.shown, lands.found, nofun⟩

/-- When nothing is to be passed behind the first event that is not, every cursor is at the first event
    of its own track that is not to be passed. -/
theorem Plays.cursors_seekWhile (plays : song.Plays order) (sound : song.Sound) (aligned : song.Aligned)
    (all : order.Perm song.events) (late : ∀ event ∈ order.dropWhile pass, pass event = false) :
    List.Forall₂ (fun track after => after.still = track.still ∧
      after.cursor.next? = track.events.findIdx? fun event => !pass event) song.tracks (song.seekWhile pass).2.tracks := by
  obtain ⟨behind, ahead⟩ := plays.perm_play sound aligned all (order.takeWhile pass).length
  rw [take_takeWhile_length] at behind
  rw [drop_takeWhile_length] at ahead
  have alignedAfter := aligned.play (order.takeWhile pass).length
  have still := still_play song (order.takeWhile pass).length
  rw [plays.seekWhile pass []]
  have placed : ∀ after ∈ (song.play (order.takeWhile pass).length).2.tracks,
      after.cursor.next? = after.events.findIdx? fun event => !pass event := by
    intro after member
    apply Track.next?_eq_findIdx? (alignedAfter after member)
    · intro event passed
      have among := behind.subset (List.mem_flatMap.mpr ⟨after, member, passed⟩)
      simp [List.mem_takeWhile_imp among]
    · intro event left
      have among := ahead.subset (List.mem_flatMap.mpr ⟨after, member, left⟩)
      simp [late event among]
  refine (forall₂_and_right (forall₂_of_map_eq still) placed).imp ?_
  rintro track after ⟨same, here⟩
  have events : after.events = track.events := by rw [Track.eq_of_still same]
  exact ⟨same, events ▸ here⟩

end

theorem late_of_sorted (tick : Nat) {order : List (Event S)} (sorted : order.Pairwise Event.Precedes) {event : Event S}
    (member : event ∈ order.dropWhile (·.tick < tick)) : decide (event.tick < tick) = false := by
  refine not_of_mem_dropWhile (sorted.imp fun before late => ?_) member
  simp only [Event.Precedes, decide_eq_true_eq] at before late ⊢
  omega

/-- In a sound song an event is where it says. -/
theorem Sound.event?_eq_some_iff (sound : song.Sound) {track number : Nat} {event : Event S} :
    song.event? track number = some event ↔
      event ∈ song.events ∧ event.track? = some track ∧ event.number? = some number := by
  simp only [event?, Option.bind_eq_some_iff]
  constructor
  · rintro ⟨part, here, there⟩
    have among := List.mem_of_getElem? here
    have inside := List.mem_of_getElem? there
    exact ⟨List.mem_flatMap.mpr ⟨part, among, inside⟩, (sound.knows track part here).events event inside,
      (sound.inOrder part among).number_eq there⟩
  · rintro ⟨member, inTrack, atNumber⟩
    obtain ⟨part, among, inside⟩ := List.mem_flatMap.mp member
    obtain ⟨place, here⟩ := List.mem_iff_getElem?.mp among
    obtain ⟨spot, there⟩ := List.mem_iff_getElem?.mp inside
    have knows := (sound.knows place part here).events event inside
    have numbered := (sound.inOrder part among).number_eq there
    rw [inTrack, Option.some.injEq] at knows
    rw [atNumber, Option.some.injEq] at numbered
    exact ⟨part, knows ▸ here, numbered ▸ there⟩

/-- The first event of the given place is the one that there is. -/
theorem Sound.head?_dropWhile_place (sound : song.Sound) {order : List (Event S)} (all : order.Perm song.events)
    (track number : Nat) :
    (order.dropWhile fun event => event.track? != some track || event.number? != some number).head? =
      song.event? track number := by
  cases first : (order.dropWhile fun event => event.track? != some track || event.number? != some number).head? with
  | none =>
    rw [List.head?_eq_none_iff, List.dropWhile_eq_nil_iff] at first
    symm
    rw [Option.eq_none_iff_forall_ne_some]
    intro event here
    obtain ⟨member, inTrack, atNumber⟩ := sound.event?_eq_some_iff.mp here
    have passed := first event (all.symm.subset member)
    simp [inTrack, atNumber] at passed
  | some event =>
    have stops := List.head?_dropWhile_not (fun event : Event S => event.track? != some track || event.number? != some number) order
    have among := (List.dropWhile_sublist _).subset (List.mem_of_head? first)
    rw [first] at stops
    simp only [Bool.or_eq_false_iff, bne_eq_false_iff_eq] at stops
    exact (sound.event?_eq_some_iff.mpr ⟨all.subset among, stops⟩).symm

section
variable [Clock S]

/-- Every event has a time, whatever it was worked out from. -/
def Dated (song : Song S) : Prop := ∀ event ∈ song.events, event.cached? ≠ none

omit [Clock S] in
theorem Dated.of_dates {other : Song S} (dated : song.Dated) (dates : ∀ event ∈ other.events, song.Dates event) :
    other.Dated := by
  intro event member
  obtain ⟨old, oldMember, _, sameCached⟩ := dates event member
  exact sameCached ▸ dated old oldMember

omit [Clock S] in
theorem Dated.of_events {other : Song S} (dated : song.Dated) (events : other.events = song.events) : other.Dated :=
  fun event member => dated event (events ▸ member)

/-- What is not worked out anew has its time from before. -/
theorem dated_refreshFrom {before : Song S} {start : Nat} (dated : before.Dated)
    (early : ∀ event ∈ song.events, event.tick < start → before.Dates event) : (song.refreshFrom start).Dated := by
  intro event member
  rw [events_refreshFrom] at member
  obtain ⟨old, inside, rfl⟩ := List.mem_map.mp member
  by_cases reached : start ≤ old.tick
  · rw [refreshEvent, if_pos reached]
    exact Option.some_ne_none _
  · rw [refreshEvent, if_neg reached]
    obtain ⟨source, sourceMember, _, sameCached⟩ := early old inside (Nat.lt_of_not_le reached)
    exact sameCached ▸ dated source sourceMember

theorem Dated.refreshFrom (dated : song.Dated) (start : Nat) : (song.refreshFrom start).Dated :=
  dated_refreshFrom dated fun _ member _ => dates_of_mem member

theorem Dated.refresh (dated : song.Dated) : song.refresh.Dated := by
  have resolved : Dated { song with tempoMap := song.tempoMap.resolve song.division } := dated
  exact resolved.refreshFrom 0

theorem dated_ofTracks (identity : Nat) (header : Header) (warnings : List Warning) (tracks : List (Track S)) :
    (ofTracks identity header warnings tracks).Dated := by
  have worked : Dated (Song.refreshFrom 0 ⟨header, tracks.mapIdx fun number track => track.attach (some number),
      (TempoMap.empty identity).registerAll header.division
        ((tracks.mapIdx fun number track => track.attach (some number)).flatMap (·.events)), warnings, none⟩) := by
    have blank : Dated (empty identity : Song S) := by simp [Dated, events, empty]
    exact dated_refreshFrom blank fun _ _ early => absurd early (Nat.not_lt_zero _)
  exact worked.of_events (events_rewind _)

/-- Every event of a song of a session has a time. -/
theorem lasting_dated [Workers] (mode : Mode) : Lasting (S := S) mode (fun _ => Dated) (fun _ => True) (fun _ => True) where
  empty _ identity := by simp [Dated, events, empty]
  read _ identity bytes song result := by
    obtain ⟨_, _, _, _, _, _, rfl⟩ := read_ok_iff.mp result
    exact dated_ofTracks _ _ _ _
  copy _ identity song dated := dated
  later _ _ dated := dated
  steady _ song after dated step := by
    cases step with
    | formatted done =>
      obtain ⟨_, rfl⟩ := setFormat_ok done
      exact dated
    | metrical done =>
      obtain ⟨_, _, rfl⟩ := setTicksPerQuarter_ok done
      exact Dated.refresh dated
    | timecode done =>
      obtain ⟨_, rfl⟩ := setTimecode_ok done
      exact Dated.refresh dated
    | trackAdded _ done =>
      obtain ⟨placed, retimed, _, rfl⟩ := addTrack_ok done
      exact dated_refreshFrom dated fun _ => dates_of_append (Track.head_le_retime retimed)
    | trackRemoved done => exact dated.of_dates fun _ => dates_removeTrack done
    | eventAdded _ done =>
      obtain ⟨old, new, here, _, inserted, rfl⟩ := addEvent_ok done
      exact dated_refreshFrom dated fun _ => dates_of_insert here inserted
    | eventRemoved done => exact dated.of_dates fun _ => dates_removeEvent done
    | refreshed => exact dated.refresh
    | stored enough => exact dated.of_events ((events_rewind _).trans (events_measured song enough))
    | rewound => exact dated.of_events (events_rewind song)
    | played done =>
      obtain ⟨_, _, _, _, here, step, rfl⟩ := next?_some done
      obtain ⟨_, _, _, rfl⟩ := Track.advance?_some step
      exact dated.of_events (events_set here rfl)
    | stood position? => exact dated
  held _ _ _ _ dated done := by
    obtain ⟨_, _, rfl⟩ := holdLastTempo_ok done
    exact dated
  released _ song _ _ _ dated done := by
    obtain ⟨tempoMap, _, rfl⟩ := releaseTempo_ok done
    have released : Dated { song with tempoMap := tempoMap } := dated
    split
    · exact released
    · exact released.refreshFrom 0
  blank := trivial
  tracks _ _ _ _ _ := trivial
  removed _ _ _ _ _ _ _ := trivial
  drafts _ _ _ := trivial
  messages _ _ _ _ _ := trivial

end

variable [Clock S]

theorem position?_seekSeconds {seconds : S} (found : (song.seekSeconds seconds).1 = true) :
    (song.seekSeconds seconds).2.position? = some seconds := by
  unfold seekSeconds at found ⊢
  generalize (song.rewind.seekWhile fun event => event.seconds?.all (Clock.lt · seconds)) = result at found ⊢
  obtain ⟨first, after⟩ := result
  obtain rfl : first = true := found
  rfl

/-- Wherever the cursors of a song of a session stand, each way of seeking passes the longest row of
    first events that do not reach what is sought, in the order of ticks, tracks and numbers. Going to a
    tick leaves every cursor at the first event of its own track that does not come before the tick, and
    going to an event finds it if and only if there is one of that place, and shows that one. -/
theorem session_seeks_land [Workers] (mode : Mode) (commands : List (Command S))
    (member : song ∈ (Workspace.session mode commands).songs) :
    ∃ order, order.Perm song.events ∧ song.rewind.GoesThrough order ∧ (∀ event ∈ order, event.seconds? ≠ none) ∧
      (∀ tick, song.rewind.Lands order (·.tick < tick) (song.seekTick tick) ∧
        ((song.seekTick tick).1 = true → (song.seekTick tick).2.StandsAtNext) ∧
        List.Forall₂ (fun track after => after = { track with cursor := after.cursor } ∧
          after.cursor.next? = track.events.findIdx? (tick ≤ ·.tick)) song.tracks (song.seekTick tick).2.tracks) ∧
      (∀ seconds, song.rewind.Lands order (fun event => event.seconds?.all (Clock.lt · seconds)) (song.seekSeconds seconds) ∧
        ((song.seekSeconds seconds).1 = true → (song.seekSeconds seconds).2.position? = some seconds)) ∧
      ∀ track number,
        song.rewind.Lands order (fun event => event.track? != some track || event.number? != some number)
          (song.seekEvent track number) ∧
        ((song.seekEvent track number).1 = true → (song.seekEvent track number).2.StandsAtNext) ∧
        ((song.seekEvent track number).1 = true ↔ song.event? track number ≠ none) ∧
        (song.seekEvent track number).2.peek? = song.event? track number := by
  have sound := session_sound mode commands member
  have dated := (Workspace.session_keeps (lasting_dated mode) commands).songs song member
  have aligned := aligned_rewind song
  obtain ⟨order, plays, all, sorted⟩ := exists_plays sound.rewind aligned
  rw [ahead_rewind] at all
  have allRewound : order.Perm song.rewind.events := by rwa [events_rewind]
  have known : ∀ event ∈ order, event.seconds? ≠ none := by
    intro event among
    simpa [Event.seconds?] using dated event (all.subset among)
  have lands := plays.lands sound.rewind aligned
  refine ⟨order, all, plays.goesThrough sorted, known, fun tick => ⟨lands _, plays.standsAtNext known, ?_⟩,
    fun seconds => ⟨(lands _).stand seconds, position?_seekSeconds⟩,
    fun track number => ⟨lands _, plays.standsAtNext known, ?_, ?_⟩⟩
  · have cursors := plays.cursors_seekWhile sound.rewind aligned allRewound fun _ => late_of_sorted tick sorted
    rw [rewind, List.forall₂_map_left_iff] at cursors
    refine cursors.imp ?_
    rintro track after ⟨same, here⟩
    rw [Track.still_rewind] at same
    exact ⟨Track.eq_of_still same, by simpa only [Track.events_rewind, ← decide_not, Nat.not_lt] using here⟩
  · rw [seekEvent, plays.seekWhile _ [], sound.head?_dropWhile_place all, Option.isSome_iff_ne_none]
  · rw [seekEvent, plays.peek?_seekWhile, sound.head?_dropWhile_place all]

/-- A note in each of two tracks, of which the first was played. -/
private def soughtCommands : List (Command Float) :=
  [.create, .change 0 (.addTrack .new), .change 0 (.addTrack .new),
    .change 0 (.addEvent 0 (.new (.bytes [0x90, 60, 64])) (.tick 0)),
    .change 0 (.addEvent 0 (.new (.bytes [0x80, 60, 64])) (.tick 96)),
    .change 0 (.addEvent 1 (.new (.bytes [0x91, 48, 64])) (.tick 96)), .change 0 .next]

theorem session_seeks_land_second :
    ∃ song ∈ (Workspace.session .strict soughtCommands).songs,
      (song.seekTick 1).2.tracks.map (·.cursor.next?) = [some 1, some 0] ∧ (song.seekEvent 1 0).1 = true ∧
        (song.seekEvent 1 0).2.peek? = song.event? 1 0 ∧ (song.seekEvent 0 2).1 ≠ true := by
  obtain ⟨song, songs, present, missing, first⟩ : ∃ song, (Workspace.session .strict soughtCommands).songs = [song] ∧
      song.event? 1 0 ≠ none ∧ song.event? 0 2 = none ∧
      song.tracks.map (fun track => track.events.findIdx? (1 ≤ ·.tick)) = [some 1, some 0] :=
    ⟨_, rfl, nofun, rfl, rfl⟩
  have member : song ∈ (Workspace.session .strict soughtCommands).songs := songs ▸ List.mem_singleton_self song
  obtain ⟨_, _, _, _, ticks, _, events⟩ := session_seeks_land .strict soughtCommands member
  obtain ⟨_, _, found, shown⟩ := events 1 0
  obtain ⟨_, _, foundNot, _⟩ := events 0 2
  refine ⟨song, member, ?_, found.mpr present, shown, fun claimed => foundNot.mp claimed missing⟩
  exact (map_eq_of_forall₂ ((ticks 1).2.2.imp fun _ _ both => both.2)).trans first

end Song

end MidiFile
