import MidiFile.Proofs.Song.Times
import MidiFile.Proofs.Track.Edit
import Mathlib.Data.List.Perm.Basic

/-! # Cursors

A cursor stands between the events that it has passed (`Track.behind`) and those that are still to be
played (`Track.ahead`). Whatever changes the events of a track rewinds it. So what holds of a cursor
behind a rewind and is kept by playing, and depends on no more than what the events are and when they
come (`Track.CursorLaw`), holds of the cursors of every session (`Song.lasting_obeys`). Such a law is
that a cursor stands at an event and has the tick of that event, or stands behind all events
(`Track.Aligned`).
-/

namespace MidiFile

variable {S : Type}

namespace Track

/-- The events that the cursor has not passed. -/
def ahead (track : Track S) : List (Event S) := track.cursor.next?.elim [] track.events.drop

/-- The events that the cursor has passed. -/
def behind (track : Track S) : List (Event S) := track.events.take (track.cursor.next?.getD track.events.length)

theorem behind_append_ahead (track : Track S) : track.behind ++ track.ahead = track.events := by
  cases next : track.cursor.next? with
  | none => simp [behind, ahead, next]
  | some number => simp [behind, ahead, next]

/-- What can be said of a cursor in its track: it holds behind a rewind, playing an event keeps it,
    and of the events no more than their cores matter to it. -/
structure CursorLaw (law : Track S → Prop) : Prop where
  rewound : ∀ track, law (rewind track)
  advanced : ∀ track event after, law track → track.advance? = some (event, after) → law after
  blind : ∀ track other, law track → other.cursor = track.cursor →
    other.events.map Event.core = track.events.map Event.core → law other

/-- The cursor stands at an event and has its tick, or it stands behind all events. -/
def Aligned (track : Track S) : Prop :=
  ∀ number, track.cursor.next? = some number →
    ∃ event, track.events[number]? = some event ∧ event.tick = track.cursor.tick

theorem aligned_rewind (track : Track S) : track.rewind.Aligned := by
  intro number next
  cases events : track.events with
  | nil => simp [rewind, events, Cursor.nowhere] at next
  | cons first rest =>
    simp only [rewind, events, Option.some.injEq] at next ⊢
    exact ⟨first, by simp [← next], rfl⟩

@[simp] theorem ahead_rewind (track : Track S) : track.rewind.ahead = track.events := by
  cases events : track.events <;> simp [ahead, rewind, events, Cursor.nowhere]

/-- Looking at the next event and playing it come to the same event. -/
theorem peek?_eq (track : Track S) : track.peek? = track.advance?.map Prod.fst := by
  unfold peek? advance?
  cases track.cursor.next? with
  | none => rfl
  | some number =>
    show track.events[number]? = _
    cases here : track.events[number]? <;> simp [here]

/-- Behind an event the cursor stands at the next one. -/
theorem exists_advance? {track : Track S} (aligned : track.Aligned) {number : Nat}
    (next : track.cursor.next? = some number) :
    ∃ event after, track.advance? = some (event, after) ∧ event.tick = track.cursor.tick ∧
      track.ahead = event :: after.ahead ∧ after.Aligned := by
  obtain ⟨event, here, tick⟩ := aligned number next
  refine ⟨event, { track with cursor := track.cursorBehind number event }, ?_, tick, ?_, ?_⟩
  · simp [advance?, next, here]
  · obtain ⟨inside, rfl⟩ := List.getElem?_eq_some_iff.mp here
    have behind : ({ track with cursor := track.cursorBehind number track.events[number] } : Track S).ahead =
        track.events.drop (number + 1) := by
      cases following : track.events[number + 1]? with
      | none =>
        rw [List.getElem?_eq_none_iff] at following
        simp [ahead, cursorBehind, following]
      | some other => simp [ahead, cursorBehind, following]
    rw [behind, ahead, next]
    exact List.drop_eq_getElem_cons inside
  · intro place at_
    cases following : track.events[number + 1]? with
    | none => simp [cursorBehind, following] at at_
    | some other =>
      simp only [cursorBehind, following, Option.some.injEq] at at_ ⊢
      exact ⟨other, at_ ▸ following, rfl⟩

theorem Aligned.advance? {track after : Track S} {event : Event S} (aligned : track.Aligned)
    (done : track.advance? = some (event, after)) : after.Aligned := by
  obtain ⟨number, next, _, _⟩ := advance?_some done
  obtain ⟨_, _, same, _, _, later⟩ := exists_advance? aligned next
  rw [done] at same
  cases same
  exact later

/-- The ticks of the events are all that an aligned cursor depends on. -/
theorem cursorLaw_aligned : CursorLaw (S := S) Aligned where
  rewound := aligned_rewind
  advanced _ _ _ aligned done := aligned.advance? done
  blind track other aligned cursor cores := by
    intro number next
    rw [cursor] at next
    obtain ⟨event, here, same⟩ := aligned number next
    have listed : (other.events.map Event.core)[number]? = some event.core := by simp [cores, here]
    rw [List.getElem?_map, Option.map_eq_some_iff] at listed
    obtain ⟨found, there, alike⟩ := listed
    exact ⟨found, there, by rw [cursor, ← same]; exact congrArg (·.2.2.1) alike⟩

theorem ahead_sublist (track : Track S) : track.ahead.Sublist track.events := by
  cases next : track.cursor.next? with
  | none => simp [ahead, next]
  | some number => simpa [ahead, next] using List.drop_sublist number track.events

end Track

namespace Song

/-- The events that no cursor has passed, track by track. -/
def ahead (song : Song S) : List (Event S) := song.tracks.flatMap Track.ahead

/-- The events that the cursors have passed, track by track. -/
def behind (song : Song S) : List (Event S) := song.tracks.flatMap Track.behind

variable {song : Song S}

theorem perm_behind_append_ahead (song : Song S) : (song.behind ++ song.ahead).Perm song.events := by
  have whole := List.flatMap_append_perm song.tracks Track.behind Track.ahead
  simpa [behind, ahead, events, Track.behind_append_ahead] using whole

/-- The cursors of all tracks are under a law. -/
def Obeys (law : Track S → Prop) (song : Song S) : Prop := ∀ track ∈ song.tracks, law track

/-- All cursors stand where they have to. -/
def Aligned (song : Song S) : Prop := ∀ track ∈ song.tracks, track.Aligned

theorem Obeys.set {law : Track S → Prop} (obeys : song.Obeys law) {number : Nat} {new : Track S} (lawNew : law new) :
    Obeys law { song with tracks := song.tracks.set number new } := by
  intro track member
  rcases List.mem_or_eq_of_mem_set member with old | rfl
  · exact obeys track old
  · exact lawNew

section
variable [Clock S]

@[simp] theorem ahead_rewind (song : Song S) : song.rewind.ahead = song.events := by
  simp [ahead, events, rewind, List.flatMap_map]

@[simp] theorem core_refreshEvent (song : Song S) (start : Nat) (event : Event S) :
    (song.refreshEvent start event).core = event.core := by
  rw [refreshEvent]
  split <;> rfl

theorem aligned_rewind (song : Song S) : song.rewind.Aligned := by
  intro track member
  obtain ⟨old, _, rfl⟩ := List.mem_map.mp member
  exact old.aligned_rewind

end

end Song

namespace Track.CursorLaw

open Song

variable {law : Track S → Prop} (lawful : CursorLaw law) {song after : Song S}
include lawful

theorem next? {event : Event S} (obeys : song.Obeys law) (done : song.next? = some (event, after)) : after.Obeys law := by
  obtain ⟨number, track, advanced, _, here, step, rfl⟩ := next?_some done
  exact obeys.set (lawful.advanced _ _ _ (obeys track (List.mem_of_getElem? here)) step)

theorem attach {track : Track S} (old : law track) (number? : Option Nat) : law (track.attach number?) :=
  lawful.blind _ _ old rfl (by simp [Track.attach, Function.comp_def, Event.core])

variable [Clock S]

theorem rewind (song : Song S) : song.rewind.Obeys law := by
  intro track member
  obtain ⟨old, _, rfl⟩ := List.mem_map.mp member
  exact lawful.rewound old

theorem refreshTrack {track : Track S} (old : law track) (song : Song S) (start : Nat) :
    law { track with events := track.events.map (song.refreshEvent start) } :=
  lawful.blind _ _ old rfl (by simp [Function.comp_def])

theorem refreshFrom (obeys : song.Obeys law) (start : Nat) : (song.refreshFrom start).Obeys law := by
  intro track member
  obtain ⟨old, among, rfl⟩ := List.mem_map.mp member
  exact lawful.refreshTrack (obeys old among) song start

theorem refresh (obeys : song.Obeys law) : song.refresh.Obeys law := by
  have resolved : Obeys law { song with tempoMap := song.tempoMap.resolve song.division } := obeys
  exact lawful.refreshFrom resolved 0

theorem withDivision (obeys : song.Obeys law) (division : Division) : (song.withDivision division).Obeys law := by
  have divided : Obeys law { song with header := { song.header with division := division } } := obeys
  exact lawful.refresh divided

theorem addTrack {track : Track S} {number : Nat} (obeys : song.Obeys law)
    (done : addTrack track song = .ok number after) : after.Obeys law := by
  obtain ⟨placed, _, _, rfl⟩ := addTrack_ok done
  refine lawful.refreshFrom ?_ _
  intro part member
  rcases List.mem_append.mp member with old | added
  · exact obeys part old
  · rw [List.mem_singleton.mp added]
    exact lawful.rewound placed

/-- The track that is taken out keeps its cursor. -/
theorem removeTrack {number : Nat} {removed : Track S} (obeys : song.Obeys law)
    (done : removeTrack number song = .ok removed after) : after.Obeys law ∧ law removed := by
  obtain ⟨track, here, rfl, rfl⟩ := removeTrack_ok done
  constructor
  · intro part member
    obtain ⟨place, inside, rfl⟩ := List.mem_mapIdx.mp member
    exact lawful.attach (obeys _ (List.mem_of_mem_eraseIdx (List.getElem_mem inside))) _
  · exact lawful.blind _ _ (lawful.attach (obeys track (List.mem_of_getElem? here)) none) rfl
      (by simp [Function.comp_def, Event.core])

theorem addEvent {number tick place : Nat} {message : Message} (obeys : song.Obeys law)
    (done : addEvent number message tick song = .ok place after) : after.Obeys law := by
  obtain ⟨_, new, _, _, _, rfl⟩ := addEvent_ok done
  have mapped : Obeys law { song with
      tracks := song.tracks.set number new.rewind
      tempoMap := song.tempoMap.register song.division tick message } := obeys.set (lawful.rewound new)
  exact lawful.refreshFrom mapped tick

theorem removeEvent {number place : Nat} {removed : Event S} (obeys : song.Obeys law)
    (done : removeEvent number place song = .ok removed after) : after.Obeys law := by
  obtain ⟨_, new, _, _, rfl⟩ := removeEvent_ok done
  exact obeys.set (lawful.rewound new)

end Track.CursorLaw

namespace Song

variable [Clock S] [Workers]

/-- A law of cursors holds in every song of every session, and of the tracks that were taken out. -/
theorem lasting_obeys {law : Track S → Prop} (lawful : Track.CursorLaw law) (mode : Mode) :
    Lasting mode (fun _ => Obeys law) law (fun _ => True) where
  empty _ identity := by simp [Obeys, empty]
  read _ identity bytes song result := by
    obtain ⟨_, _, _, _, _, _, rfl⟩ := read_ok_iff.mp result
    exact lawful.rewind _
  copy _ identity song obeys := obeys
  later _ _ obeys := obeys
  steady _ song after obeys step := by
    cases step with
    | formatted done =>
      obtain ⟨_, rfl⟩ := setFormat_ok done
      exact obeys
    | metrical done =>
      obtain ⟨_, _, rfl⟩ := setTicksPerQuarter_ok done
      exact lawful.withDivision obeys _
    | timecode done =>
      obtain ⟨_, rfl⟩ := setTimecode_ok done
      exact lawful.withDivision obeys _
    | trackAdded _ done => exact lawful.addTrack obeys done
    | trackRemoved done => exact (lawful.removeTrack obeys done).1
    | eventAdded _ done => exact lawful.addEvent obeys done
    | eventRemoved done => exact lawful.removeEvent obeys done
    | refreshed => exact lawful.refresh obeys
    | stored enough => exact lawful.rewind _
    | rewound => exact lawful.rewind song
    | played done => exact lawful.next? obeys done
    | stood position? => exact obeys
  held _ _ _ _ obeys done := by
    obtain ⟨_, _, rfl⟩ := holdLastTempo_ok done
    exact obeys
  released _ song _ _ _ obeys done := by
    obtain ⟨tempoMap, _, rfl⟩ := releaseTempo_ok done
    have released : Obeys law { song with tempoMap := tempoMap } := obeys
    split
    · exact released
    · exact lawful.refreshFrom released 0
  blank := lawful.rewound Track.empty
  tracks _ song obeys track member := obeys track member
  removed _ song number part after obeys done := (lawful.removeTrack obeys done).2
  drafts _ _ _ := trivial
  messages _ _ _ _ _ := trivial

/-- The cursors of every song of every session stand where they have to. -/
theorem lasting_aligned (mode : Mode) : Lasting (S := S) mode (fun _ => Aligned) Track.Aligned (fun _ => True) :=
  lasting_obeys Track.cursorLaw_aligned mode

end Song

end MidiFile
