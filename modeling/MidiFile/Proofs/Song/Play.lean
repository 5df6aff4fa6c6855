import MidiFile.Proofs.Song.Cursors
import MidiFile.Proofs.Song.Structure

/-! # Playing in order

The next event of a song is the least of those that no cursor has passed, in the order of ticks,
tracks and numbers (`Event.Precedes`), and playing it leaves all others in front of the cursors
(`Song.next?_cases`). So playing a song goes through what is in front of the cursors in this order
and to the end (`Song.exists_plays`), from wherever the cursors stand in a song of a session
(`Song.session_plays_in_order`).
-/

namespace MidiFile

variable {S : Type}

/-- An event is played before another one: at an earlier tick, at one tick in an earlier track, in
    one track under an earlier number. -/
def Event.Precedes (earlier later : Event S) : Prop :=
  earlier.tick < later.tick ∨ earlier.tick = later.tick ∧
    (earlier.track? < later.track? ∨ earlier.track? = later.track? ∧ earlier.number? < later.number?)

/-- The events of a track are played in the order in which they stand. -/
theorem Track.precedes_events {track : Track S} {number : Nat} (inOrder : InOrder 0 0 track.events)
    (knows : track.Knows number) : track.events.Pairwise Event.Precedes := by
  rw [List.pairwise_iff_getElem]
  intro first second inFirst inSecond before
  have ticks := List.pairwise_iff_getElem.mp (sorted_events inOrder.regular) first second inFirst inSecond before
  have numberFirst := inOrder.number_eq (List.getElem?_eq_getElem inFirst)
  have numberSecond := inOrder.number_eq (List.getElem?_eq_getElem inSecond)
  have trackFirst := knows.events _ (List.getElem_mem inFirst)
  have trackSecond := knows.events _ (List.getElem_mem inSecond)
  simp [Event.Precedes, numberFirst, numberSecond, trackFirst, trackSecond]
  omega

/-- No event that a cursor has not passed comes before the tick of the cursor. -/
theorem Track.cursor_le_of_mem_ahead {track : Track S} (inOrder : InOrder 0 0 track.events) (aligned : track.Aligned)
    {event : Event S} (member : event ∈ track.ahead) :
    track.cursor.next? ≠ none ∧ track.cursor.tick ≤ event.tick := by
  cases next : track.cursor.next? with
  | none => simp [ahead, next] at member
  | some number =>
    obtain ⟨first, _, _, tick, front, _⟩ := exists_advance? aligned next
    have ticks := (sorted_events inOrder.regular).sublist track.ahead_sublist
    rw [front] at ticks member
    refine ⟨Option.some_ne_none number, ?_⟩
    rcases List.mem_cons.mp member with rfl | behind
    · exact Nat.le_of_eq tick.symm
    · have later := (List.pairwise_cons.mp ticks).1 event behind
      omega

namespace Song

variable {song : Song S}

/-- The earliest of some candidates, the first at one tick, where they come in the order of their
    tracks. -/
theorem exists_foldl_earlier {best : Nat × Nat} {candidates : List (Nat × Nat)}
    (sorted : (best :: candidates).Pairwise fun one other => one.2 < other.2) :
    ∃ least ∈ best :: candidates, candidates.foldl earlier (some best) = some least ∧
      ∀ other ∈ best :: candidates, least.1 < other.1 ∨ least.1 = other.1 ∧ least.2 ≤ other.2 := by
  induction candidates generalizing best with
  | nil => exact ⟨best, by simp, rfl, by simp⟩
  | cons next rest ih =>
    obtain ⟨first, others⟩ := List.pairwise_cons.mp sorted
    obtain ⟨ahead, behind⟩ := List.forall_mem_cons.mp first
    by_cases earlier_ : next.1 < best.1
    · obtain ⟨least, member, found, most⟩ := ih others
      refine ⟨least, List.mem_cons_of_mem _ member, by simpa [earlier, earlier_] using found, ?_⟩
      have bound := most next List.mem_cons_self
      refine List.forall_mem_cons.mpr ⟨?_, most⟩
      omega
    · obtain ⟨least, member, found, most⟩ := ih (List.pairwise_cons.mpr ⟨behind, (List.pairwise_cons.mp others).2⟩)
      refine ⟨least, ?_, by simpa [earlier, earlier_] using found, ?_⟩
      · rcases List.mem_cons.mp member with same | later
        · simp [same]
        · simp [later]
      · have bound := most best List.mem_cons_self
        obtain ⟨_, later⟩ := List.forall_mem_cons.mp most
        refine List.forall_mem_cons.mpr ⟨bound, List.forall_mem_cons.mpr ⟨?_, later⟩⟩
        omega

theorem mem_pending_iff {tick number : Nat} :
    (tick, number) ∈ song.pending ↔
      ∃ track, song.tracks[number]? = some track ∧ track.cursor.next? ≠ none ∧ track.cursor.tick = tick := by
  simp only [pending, List.mem_filterMap, Prod.exists, List.mem_zipIdx_iff_getElem?, ← Option.ne_none_iff_isSome]
  constructor
  · rintro ⟨track, place, here, made⟩
    by_cases waiting : track.cursor.next? = none
    · simp [waiting] at made
    · simp only [waiting, ne_eq, not_false_eq_true, if_true, Option.some.injEq, Prod.mk.injEq] at made
      obtain ⟨rfl, rfl⟩ := made
      exact ⟨track, here, waiting, rfl⟩
  · rintro ⟨track, here, waiting, rfl⟩
    exact ⟨track, number, here, by simp [waiting]⟩

theorem sorted_pending (song : Song S) : song.pending.Pairwise fun one other => one.2 < other.2 := by
  have numbers : song.tracks.zipIdx.Pairwise fun one other => one.2 < other.2 := by
    rw [← List.pairwise_map (f := Prod.snd), List.zipIdx_map_snd]
    exact List.pairwise_lt_range'
  refine List.Pairwise.filterMap _ ?_ numbers
  rintro ⟨track, number⟩ ⟨other, place⟩ before found made found' made'
  simp only [Option.ite_none_right_eq_some, Option.some.injEq] at made made'
  simpa [← made.2, ← made'.2] using before

theorem nextTrack?_eq_none_iff : song.nextTrack? = none ↔ ∀ track ∈ song.tracks, track.cursor.next? = none := by
  have empty : song.pending = [] ↔ ∀ track ∈ song.tracks, track.cursor.next? = none := by
    constructor
    · intro none_ track member
      obtain ⟨number, here⟩ := List.mem_iff_getElem?.mp member
      by_contra waiting
      have pending : (track.cursor.tick, number) ∈ song.pending := mem_pending_iff.mpr ⟨track, here, waiting, rfl⟩
      simp [none_] at pending
    · intro exhausted
      rw [List.eq_nil_iff_forall_not_mem]
      rintro ⟨tick, number⟩ pending
      obtain ⟨track, here, waiting, _⟩ := mem_pending_iff.mp pending
      exact waiting (exhausted track (List.mem_of_getElem? here))
  rw [← empty, nextTrack?, Option.map_eq_none_iff]
  have sorted := sorted_pending song
  cases pending : song.pending with
  | nil => simp
  | cons best rest =>
    rw [pending] at sorted
    obtain ⟨least, _, found, _⟩ := exists_foldl_earlier sorted
    simp [earlier, found]

/-- The next track is the first of those with the lowest tick. -/
theorem nextTrack?_some {number : Nat} (chosen : song.nextTrack? = some number) :
    ∃ track, song.tracks[number]? = some track ∧ track.cursor.next? ≠ none ∧
      ∀ place other, song.tracks[place]? = some other → other.cursor.next? ≠ none →
        track.cursor.tick < other.cursor.tick ∨ track.cursor.tick = other.cursor.tick ∧ number ≤ place := by
  obtain ⟨least, found, rfl⟩ := Option.map_eq_some_iff.mp chosen
  have sorted := sorted_pending song
  cases pending : song.pending with
  | nil => simp [pending] at found
  | cons best rest =>
    rw [pending] at sorted
    obtain ⟨same, member, folded, most⟩ := exists_foldl_earlier sorted
    simp only [pending, List.foldl_cons, earlier, folded, Option.some.injEq] at found
    subst found
    have listed : (same.1, same.2) ∈ song.pending := pending ▸ member
    obtain ⟨track, here, waiting, tick⟩ := mem_pending_iff.mp listed
    refine ⟨track, here, waiting, ?_⟩
    intro place other there waitingToo
    rw [tick]
    exact most (other.cursor.tick, place) (pending ▸ mem_pending_iff.mpr ⟨other, there, waitingToo, rfl⟩)

theorem peek?_eq (song : Song S) : song.peek? = song.next?.map Prod.fst := by
  unfold peek? next?
  cases song.nextTrack? with
  | none => rfl
  | some number =>
    cases here : song.tracks[number]? with
    | none => simp [here]
    | some track =>
      simp only [Option.bind_some, here, Track.peek?_eq]
      cases track.advance? <;> rfl

/-- The events in front of the cursors when the cursor of one track goes behind an event. -/
theorem perm_ahead_set {number : Nat} {track advanced : Track S} (here : song.tracks[number]? = some track) {event : Event S}
    (whole : track.ahead = event :: advanced.ahead) :
    song.ahead.Perm (event :: ahead { song with tracks := song.tracks.set number advanced }) := by
  obtain ⟨inside, rfl⟩ := List.getElem?_eq_some_iff.mp here
  have split : song.tracks = song.tracks.take number ++ song.tracks[number] :: song.tracks.drop (number + 1) := by
    rw [← List.drop_eq_getElem_cons inside, List.take_append_drop]
  rw [ahead, ahead, List.set_eq_take_append_cons_drop, if_pos inside]
  nth_rewrite 1 [split]
  simp only [List.flatMap_append, List.flatMap_cons, whole, List.cons_append]
  exact List.perm_middle

/-- The first event in front of the cursor of the next track comes before all events of other tracks. -/
theorem precedes_of_nextTrack (sound : song.Sound) (aligned : song.Aligned) {number place : Nat} {track part : Track S}
    (chosen : song.nextTrack? = some number) (here : song.tracks[number]? = some track)
    (there : song.tracks[place]? = some part) (apart : number ≠ place) {event other : Event S} (member : event ∈ track.ahead)
    (tick : event.tick = track.cursor.tick) (among : other ∈ part.ahead) : event.Precedes other := by
  obtain ⟨_, same, _, most⟩ := nextTrack?_some chosen
  obtain rfl := Option.some.inj (same.symm.trans here)
  have inside := List.mem_of_getElem? there
  obtain ⟨waiting, late⟩ := Track.cursor_le_of_mem_ahead (sound.inOrder part inside) (aligned part inside) among
  have trackEvent := (sound.knows number _ here).events event (Track.ahead_sublist _ |>.subset member)
  have trackOther := (sound.knows place part there).events other (part.ahead_sublist.subset among)
  have bound := most place part there waiting
  simp [Event.Precedes, trackEvent, trackOther]
  omega

/-- Playing takes the least of the events that no cursor has passed and leaves all others. -/
theorem next?_cases (sound : song.Sound) (aligned : song.Aligned) :
    (song.next? = none ∧ song.ahead = []) ∨
      ∃ event after, song.next? = some (event, after) ∧ song.ahead.Perm (event :: after.ahead) ∧
        (∀ other ∈ after.ahead, event.Precedes other) ∧ after.Sound ∧ after.Aligned := by
  cases chosen : song.nextTrack? with
  | none =>
    have exhausted := nextTrack?_eq_none_iff.mp chosen
    refine .inl ⟨by simp [next?, chosen], ?_⟩
    rw [ahead, List.flatMap_eq_nil_iff]
    intro track member
    simp [Track.ahead, exhausted track member]
  | some number =>
    obtain ⟨track, here, waiting, _⟩ := nextTrack?_some chosen
    have inside := List.mem_of_getElem? here
    obtain ⟨place, next⟩ := Option.ne_none_iff_exists'.mp waiting
    obtain ⟨event, advanced, step, tick, whole, alignedAfter⟩ := Track.exists_advance? (aligned track inside) next
    have played : song.next? = some (event, { song with tracks := song.tracks.set number advanced }) := by
      simp [next?, chosen, here, step]
    refine .inr ⟨event, _, played, perm_ahead_set here whole, ?_, sound.next? played, Obeys.set aligned alignedAfter⟩
    intro other among
    obtain ⟨part, partMember, inPart⟩ := List.mem_flatMap.mp among
    obtain ⟨spot, there⟩ := List.mem_iff_getElem?.mp partMember
    by_cases same : number = spot
    · subst same
      rw [List.getElem?_set_self', here] at there
      cases there
      have sorted := (Track.precedes_events (sound.inOrder track inside) (sound.knows number track here)).sublist
        track.ahead_sublist
      rw [whole] at sorted
      exact (List.pairwise_cons.mp sorted).1 other inPart
    · rw [List.getElem?_set_ne same] at there
      exact precedes_of_nextTrack sound aligned chosen here there same (whole ▸ List.mem_cons_self) tick inPart

/-! ## Playing on -/

/-- The song is played as these events, one after the other, and then no more. -/
inductive Plays : Song S → List (Event S) → Prop
  | silence {song : Song S} (silent : song.next? = none) : Plays song []
  | next {song after : Song S} {event : Event S} {events : List (Event S)} (played : song.next? = some (event, after))
      (later : Plays after events) : Plays song (event :: events)

/-- A song is played as the events that no cursor has passed, in order. -/
theorem exists_plays (sound : song.Sound) (aligned : song.Aligned) :
    ∃ events, song.Plays events ∧ events.Perm song.ahead ∧ events.Pairwise Event.Precedes := by
  induction left : song.ahead.length generalizing song with
  | zero =>
    rcases next?_cases sound aligned with ⟨silent, none_⟩ | ⟨event, after, _, same, _⟩
    · exact ⟨[], .silence silent, by rw [none_], .nil⟩
    · have := same.length_eq
      simp [left] at this
  | succ count ih =>
    rcases next?_cases sound aligned with ⟨_, none_⟩ | ⟨event, after, played, same, first, soundAfter, alignedAfter⟩
    · simp [none_] at left
    · have fewer := same.length_eq
      obtain ⟨events, plays, all, sorted⟩ := ih soundAfter alignedAfter (by simp at fewer; omega)
      refine ⟨event :: events, .next played plays, (all.cons event).trans same.symm, List.pairwise_cons.mpr ⟨?_, sorted⟩⟩
      exact fun other member => first other (all.subset member)

namespace Plays

variable {events : List (Event S)}

theorem next?_eq (plays : song.Plays events) : song.next?.map Prod.fst = events.head? := by
  cases plays with
  | silence silent => simp [silent]
  | next played later => simp [played]

theorem playFrom (plays : song.Plays events) (count : Nat) (before : List (Event S)) :
    (song.playFrom before count).1 = before.reverse ++ events.take count ∧
      (song.playFrom before count).2.Plays (events.drop count) := by
  induction plays generalizing count before with
  | silence silent => cases count <;> simp [Song.playFrom, silent, Plays.silence silent]
  | @next song after event events played later ih =>
    cases count with
    | zero => simpa [Song.playFrom] using Plays.next played later
    | succ count => simpa [Song.playFrom, played] using ih count (event :: before)

end Plays

/-- Playing goes through these events in order: any count of them are played first, and the next one,
    which is also what a look ahead shows, is the one behind them; behind the last there is none. -/
structure GoesThrough (song : Song S) (events : List (Event S)) : Prop where
  sorted : events.Pairwise Event.Precedes
  played : ∀ count, (song.play count).1 = events.take count
  next : ∀ count, (song.play count).2.next?.map Prod.fst = events[count]?
  shown : ∀ count, (song.play count).2.peek? = events[count]?

theorem Plays.goesThrough {events : List (Event S)} (plays : song.Plays events)
    (sorted : events.Pairwise Event.Precedes) : song.GoesThrough events := by
  have next (count : Nat) : (song.play count).2.next?.map Prod.fst = events[count]? := by
    rw [play, (plays.playFrom count []).2.next?_eq, List.head?_drop]
  refine ⟨sorted, ?_, next, ?_⟩
  · intro count
    simpa [play] using (plays.playFrom count []).1
  · intro count
    rw [peek?_eq, next]

theorem exists_goesThrough (sound : song.Sound) (aligned : song.Aligned) :
    ∃ events, events.Perm song.ahead ∧ song.GoesThrough events := by
  obtain ⟨events, plays, all, sorted⟩ := exists_plays sound aligned
  exact ⟨events, all, plays.goesThrough sorted⟩

/-- Wherever the cursors of a song of a session stand, playing goes through the events that they have
    not passed, each of them once and in order; behind a rewind these are all events. -/
theorem session_plays_in_order [Workers] [Clock S] (mode : Mode) (commands : List (Command S))
    (member : song ∈ (Workspace.session mode commands).songs) :
    (∃ events, events.Perm song.ahead ∧ song.GoesThrough events) ∧
      ∃ events, events.Perm song.events ∧ song.rewind.GoesThrough events := by
  have sound := (Workspace.session_keeps (lasting_sound mode) commands).songs song member
  have aligned := (Workspace.session_keeps (lasting_aligned mode) commands).songs song member
  exact ⟨exists_goesThrough sound aligned, ahead_rewind song ▸ exists_goesThrough sound.rewind (aligned_rewind song)⟩

/-- Two tracks with notes at one tick; the first note was played and a note is added to the second
    track, whose cursor goes back to the start. -/
private def playedCommands : List (Command Float) :=
  [.create, .change 0 (.addTrack .new), .change 0 (.addTrack .new),
    .change 0 (.addEvent 0 (.new (.bytes [0x90, 60, 64])) (.tick 0)),
    .change 0 (.addEvent 0 (.new (.bytes [0x80, 60, 64])) (.tick 96)),
    .change 0 (.addEvent 1 (.new (.bytes [0x91, 48, 64])) (.tick 96)), .change 0 .next,
    .change 0 (.addEvent 1 (.new (.bytes [0x91, 50, 64])) (.tick 96))]

theorem session_plays_in_order_added :
    ∃ song ∈ (Workspace.session .strict playedCommands).songs,
      (song.ahead.map fun event => (event.tick, event.track?, event.number?)) =
          [(96, some 0, some 1), (96, some 1, some 0), (96, some 1, some 1)] ∧
        ∃ events, events.Perm song.ahead ∧ song.GoesThrough events := by
  have member : _ ∈ (Workspace.session .strict playedCommands).songs := List.mem_singleton.mpr rfl
  exact ⟨_, member, rfl, (session_plays_in_order .strict playedCommands member).1⟩

end Song

end MidiFile
