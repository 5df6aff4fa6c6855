import MidiFile.Proofs.Song.Edit
import MidiFile.Workspace.Run
import Mathlib.Data.List.Induction
import Mathlib.Logic.Relation

/-! # Sessions

A session carries out commands one after the other in a workspace that is empty at first
(`Workspace.session`). Apart from the two changes that are about references, whatever a command does
to a song is a row of steady steps (`Song.SteadyStep`): each is one successful edit, a song that was
encoded, or a move of the cursors. A property that every step keeps, and that new, read and copied
songs have, therefore holds of every song of every session (`Workspace.session_keeps`); what tracks
and messages the steps may bring in from elsewhere is part of the property (`Lasting`).

References are counted in 32 bits, and nothing stops the count where they end. What rests on counts
that do not start over is a property for sessions in which fewer references were taken than that: it
may depend on how many were (`Workspace.acquisitions`).
-/

set_option linter.unusedSectionVars false

namespace MidiFile

variable {S : Type} [Clock S]

namespace Workspace

variable [Workers]

/-- The workspace after a command; what is no command here changes nothing. -/
def after (mode : Mode) (workspace : Workspace S) (command : Command S) : Workspace S :=
  (workspace.run mode command).elim workspace Prod.snd

/-- The workspace after a row of commands, empty in front of the first. -/
def session (mode : Mode) (commands : List (Command S)) : Workspace S := commands.foldl (after mode) empty

theorem session_concat (mode : Mode) (commands : List (Command S)) (command : Command S) :
    session mode (commands ++ [command]) = after mode (session mode commands) command := by
  rw [session, List.foldl_append]
  rfl

/-- What is kept beside a session: behind each command it follows from the workspace in front of the
    command and from what was kept up to there. -/
def beside {β : Type} (mode : Mode) (step : Workspace S → Command S → β → β) (begun : β) (commands : List (Command S)) : β :=
  (commands.foldl (fun (workspace, kept) command => (after mode workspace command, step workspace command kept))
    (empty, begun)).2

theorem beside_concat {β : Type} (mode : Mode) (step : Workspace S → Command S → β → β) (begun : β)
    (commands : List (Command S)) (command : Command S) :
    beside mode step begun (commands ++ [command]) =
      step (session mode commands) command (beside mode step begun commands) := by
  have workspace : ∀ (start : Workspace S) (kept : β),
      (commands.foldl (fun (workspace, kept) command => (after mode workspace command, step workspace command kept))
        (start, kept)).1 = commands.foldl (after mode) start := by
    induction commands with
    | nil => exact fun _ _ => rfl
    | cons first rest ih => exact fun _ _ => ih _ _
  rw [beside, List.foldl_append, session, ← workspace]
  rfl

/-- What a command has to do with references. -/
inductive Booking
  | nothing
  | acquired (song id : Nat)
  | released (song id : Nat)
  | copied (song : Nat)
deriving DecidableEq, Repr

/-- The answer to a command, if it is one. -/
def answer? (mode : Mode) (workspace : Workspace S) (command : Command S) : Option (Except Fault (Answer S)) :=
  (workspace.run mode command).map fun done => done.1.result

/-- What a command has to do with references, as its answer tells. -/
def booking (mode : Mode) (workspace : Workspace S) (command : Command S) : Booking :=
  match command, workspace.answer? mode command with
  | .change number .holdLastTempo, some (.ok (.tempo (some (_, entry)))) => .acquired number entry.id
  | .change number (.releaseTempo place), some (.ok (.flag true)) =>
    workspace.handles[place]?.elim .nothing fun handle => .released number handle.entry
  | .copy number, some _ => .copied number
  | _, _ => .nothing

/-- How many references were taken. -/
def Booking.acquisitions : Booking → Nat
  | .acquired .. => 1
  | _ => 0

/-- How many references to tempo entries were taken in a session, in all of its songs together. -/
def acquisitions (mode : Mode) (commands : List (Command S)) : Nat :=
  beside mode (fun workspace command count => count + (workspace.booking mode command).acquisitions) 0 commands

/-- A reference that is given out is taken. -/
theorem acquisitions_of_held {mode : Mode} {workspace : Workspace S} {number : Nat} {song : Song S} {result : Entry S × Song S}
    (here : workspace.songs[number]? = some song) (held : song.holdLastTempo = some result) :
    (workspace.booking mode (.change number .holdLastTempo)).acquisitions = 1 := by
  simp only [booking, answer?, run, here, Option.bind_some, Change.run, Option.map_some, Outcome.holdLastTempo, held,
    Booking.acquisitions]

theorem acquisitions_concat (mode : Mode) (commands : List (Command S)) (command : Command S) :
    acquisitions mode (commands ++ [command]) =
      acquisitions mode commands + ((session mode commands).booking mode command).acquisitions :=
  beside_concat mode _ 0 commands command

theorem acquisitions_le_append (mode : Mode) (commands later : List (Command S)) :
    acquisitions mode commands ≤ acquisitions mode (commands ++ later) := by
  induction later using List.reverseRecOn with
  | nil => exact Nat.le_of_eq (congrArg _ (List.append_nil _).symm)
  | append_singleton later command ih =>
    rw [← List.append_assoc, acquisitions_concat]
    exact Nat.le_trans ih (Nat.le_add_right _ _)

end Workspace

namespace Song

/-- What can become of a song at once without a reference to its tempo map being taken or given back,
    given which tracks and messages may get into the song. -/
inductive SteadyStep (track : Track S → Prop) (message : Message → Prop) (song : Song S) : Song S → Prop
  | formatted {format : Format} {after : Song S} (done : setFormat format song = .ok () after) :
    SteadyStep track message song after
  | metrical {ticks : Nat} {after : Song S} (done : setTicksPerQuarter ticks song = .ok () after) :
    SteadyStep track message song after
  | timecode {rate : FrameRate} {resolution : UInt8} {after : Song S}
    (done : setTimecode rate resolution song = .ok () after) : SteadyStep track message song after
  | trackAdded {added : Track S} {number : Nat} {after : Song S} (known : track added)
    (done : addTrack added song = .ok number after) : SteadyStep track message song after
  | trackRemoved {number : Nat} {removed : Track S} {after : Song S}
    (done : removeTrack number song = .ok removed after) : SteadyStep track message song after
  | eventAdded {number tick place : Nat} {added : Message} {after : Song S} (known : message added)
    (done : addEvent number added tick song = .ok place after) : SteadyStep track message song after
  | eventRemoved {number place : Nat} {removed : Event S} {after : Song S}
    (done : removeEvent number place song = .ok removed after) : SteadyStep track message song after
  | refreshed : SteadyStep track message song song.refresh
  | stored {bodies : List (List UInt8)} (enough : song.tracks.length ≤ bodies.length) :
    SteadyStep track message song (rewind (song.measured bodies))
  | rewound : SteadyStep track message song song.rewind
  | played {event : Event S} {after : Song S} (done : song.next? = some (event, after)) :
    SteadyStep track message song after
  | stood (position? : Option S) : SteadyStep track message song { song with position? := position? }

/-- What can become of a song in any number of such steps. -/
abbrev SteadySteps (track : Track S → Prop) (message : Message → Prop) : Song S → Song S → Prop :=
  Relation.ReflTransGen (SteadyStep track message)

/-! ## Rows of steps -/

theorem atomic_addMessage (track : Nat) (message : Message) (moment : Moment S) :
    Atomic (Outcome.addMessage track message moment) := by
  cases moment with
  | after delta => exact fun song => atomic_addEvent _ _ _ song
  | tick tick => exact atomic_addEvent track message tick
  | seconds seconds => exact atomic_addEventAtSeconds track message seconds

/-- Whatever the moment, a message is added at some tick. -/
theorem addMessage_ok {number place : Nat} {added : Message} {moment : Moment S} {song after : Song S}
    (done : Outcome.addMessage number added moment song = .ok place after) :
    ∃ tick, addEvent number added tick song = .ok place after := by
  cases moment with
  | after delta => exact ⟨_, done⟩
  | tick tick => exact ⟨tick, done⟩
  | seconds seconds =>
    obtain ⟨tick, _, done⟩ := addEventAtSeconds_ok done
    exact ⟨tick, done⟩

section
variable {track : Track S → Prop} {message : Message → Prop}

/-- The song that an edit leaves, made or refused. -/
def left {α : Type} : EStateM.Result Fault (Song S) α → Song S
  | .ok _ after => after
  | .error _ after => after

theorem steady_endTrack (ending : message .endOfTrack) (number : Nat) (song : Song S) :
    SteadySteps track message song (left (endTrack number song)) := by
  by_cases ended : song.tracks[number]?.all Track.isEnded = true
  · rw [endTrack, if_pos ended]
    exact .refl
  · cases added : addEventAfter number .endOfTrack 0 song with
    | ok place after =>
      simp only [endTrack, if_neg ended, added]
      exact .single (.eventAdded ending added)
    | error fault after =>
      simp only [endTrack, if_neg ended, added]
      exact atomic_addEvent _ _ _ song fault after added ▸ .refl

/-- Giving tracks their ends is a row of edits, also where it stops halfway. -/
theorem steady_endTracks (ending : message .endOfTrack) (numbers : List Nat) (song : Song S) :
    SteadySteps track message song (left (numbers.forM endTrack song)) := by
  induction numbers generalizing song with
  | nil => exact .refl
  | cons number rest ih =>
    have begun : SteadySteps track message song (left (endTrack number song)) := steady_endTrack ending number song
    change SteadySteps track message song (left (EStateM.bind (endTrack number) (fun _ => rest.forM endTrack) song))
    cases first : endTrack number song with
    | error fault after =>
      rw [first] at begun
      simp only [EStateM.bind, first]
      exact begun
    | ok _ between =>
      rw [first] at begun
      simp only [EStateM.bind, first]
      exact begun.trans (ih between)

theorem steady_playFrom (played : List (Event S)) (count : Nat) (song : Song S) :
    SteadySteps track message song (song.playFrom played count).2 := by
  induction count generalizing played song with
  | zero => exact .refl
  | succ count ih =>
    rcases found : song.next? with _ | ⟨event, after⟩
    · simp only [playFrom, found]
      exact .refl
    · simp only [playFrom, found]
      exact .head (.played found) (ih _ after)

theorem steady_seekWhile (pass : Event S → Bool) (song : Song S) :
    SteadySteps track message song (song.seekWhile pass).2 := by
  fun_induction seekWhile pass song with
  | case1 song exhausted => exact .single (.stood none)
  | case2 song event after found shorter passed ih => exact .head (.played found) ih
  | case3 song event after found shorter stops => exact .single (.stood event.seconds?)

theorem steady_addMessage {number place : Nat} {added : Message} {moment : Moment S} {song after : Song S}
    (known : message added) (done : Outcome.addMessage number added moment song = .ok place after) :
    SteadySteps track message song after := by
  obtain ⟨tick, done⟩ := addMessage_ok done
  exact .single (.eventAdded known done)

theorem steady_ofEdit {α : Type} {edit : Edit S α} {song : Song S} (answer : α → Answer S) (taken : α → Taken S)
    (records : α → Song S → List (Record S))
    (made : ∀ value after, edit song = .ok value after → SteadySteps track message song after)
    (refused : ∀ fault after, edit song = .error fault after → SteadySteps track message song after) :
    SteadySteps track message song (Outcome.ofEdit edit song answer taken records).song := by
  cases done : edit song with
  | ok value after =>
    rw [Outcome.ofEdit, done]
    exact made value after done
  | error fault after =>
    rw [Outcome.ofEdit, done]
    exact refused fault after done

theorem Atomic.steady {α : Type} {edit : Edit S α} (atomic : Atomic edit) {song after : Song S} {fault : Fault}
    (failed : edit song = .error fault after) : SteadySteps track message song after :=
  atomic song fault after failed ▸ .refl

/-- What is taken out of a song may be brought in again. -/
def Allowed (track : Track S → Prop) (message : Message → Prop) : Taken S → Prop
  | .track removed => track removed
  | .event removed => message removed.message
  | .nothing | .handle _ => True

theorem allowed_ofEdit {α : Type} {edit : Edit S α} {song : Song S} {taken : α → Taken S} (answer : α → Answer S)
    (records : α → Song S → List (Record S))
    (made : ∀ value after, edit song = .ok value after → Allowed track message (taken value)) :
    Allowed track message (Outcome.ofEdit edit song answer taken records).taken := by
  cases done : edit song with
  | ok value after =>
    rw [Outcome.ofEdit, done]
    exact made value after done
  | error fault after =>
    rw [Outcome.ofEdit, done]
    trivial

/-- What is taken out of a track is one of its events. -/
theorem exists_of_removeEvent {number place : Nat} {removed : Event S} {song after : Song S}
    (done : removeEvent number place song = .ok removed after) : ∃ event ∈ song.events, removed = event.detach := by
  obtain ⟨old, new, here, taken, _⟩ := removeEvent_ok done
  obtain ⟨event, found, rfl, _⟩ := Track.remove_ok taken
  exact ⟨event, List.mem_flatMap.mpr ⟨old, List.mem_of_getElem? here, List.mem_of_getElem? found⟩, rfl⟩

variable [Workers]

theorem steady_encode_ok (ending : message .endOfTrack) {song after : Song S} {bytes : List UInt8}
    (done : encode song = .ok bytes after) : SteadySteps track message song after := by
  obtain ⟨_, _, closed, bodies, ended, encoded, _, rfl⟩ := encode_ok done
  have steps : SteadySteps track message song (left (endTracks song)) := steady_endTracks ending _ song
  rw [ended] at steps
  exact steps.tail (.stored (Nat.le_of_eq (length_of_mapM_ok encoded)))

theorem steady_encode_error (ending : message .endOfTrack) {song after : Song S} {fault : Fault}
    (failed : encode song = .error fault after) : SteadySteps track message song after := by
  have steps : SteadySteps track message song (left (endTracks song)) := steady_endTracks ending _ song
  obtain ⟨_, _, rfl⟩ | ⟨_, ⟨_, _, rfl⟩ | ⟨_, halfway | ⟨ended, _⟩⟩⟩ := encode_error_cases failed
  · exact .refl
  · exact .refl
  · rwa [halfway] at steps
  · rwa [ended] at steps

/-- Saving leaves the song as storing it does, wherever the file goes. -/
theorem song_save {folder? : Option Folder} {name? : Option String} {song after : Song S} {bytes : List UInt8}
    (made : encode song = .ok bytes after) : (Outcome.save folder? name? song).song = after := by
  simp only [Outcome.save, Song.save, made]
  repeat' split
  all_goals rfl

/-- Whatever a change does to a song is a row of steady steps, unless it is one of the two that are
    about references. -/
theorem steady_run (ending : message .endOfTrack) {workspace : Workspace S} {song : Song S} {change : Change S}
    {outcome : Outcome S}
    (tracks : ∀ source, change = .addTrack source → ∀ found, workspace.track? source = some found → track found)
    (messages : ∀ number source moment, change = .addEvent number source moment →
      ∀ event, workspace.event? source = some (.ok event) → message event.message)
    (held : change ≠ .holdLastTempo) (released : ∀ number, change ≠ .releaseTempo number)
    (done : change.run workspace song = some outcome) : SteadySteps track message song outcome.song := by
  cases change with
  | setFormat format =>
    cases done
    exact steady_ofEdit _ _ _ (fun _ _ made => .single (.formatted made)) fun _ _ => (atomic_setFormat format).steady
  | setTicksPerQuarter ticks =>
    cases done
    exact steady_ofEdit _ _ _ (fun _ _ made => .single (.metrical made)) fun _ _ =>
      (atomic_setTicksPerQuarter ticks).steady
  | setTimecode rate resolution =>
    cases done
    exact steady_ofEdit _ _ _ (fun _ _ made => .single (.timecode made)) fun _ _ =>
      (atomic_setTimecode rate resolution).steady
  | addTrack source =>
    simp only [Change.run, Option.map_eq_some_iff] at done
    obtain ⟨added, found, rfl⟩ := done
    exact steady_ofEdit _ _ _ (fun _ _ made => .single (.trackAdded (tracks source rfl added found) made)) fun _ _ =>
      (atomic_addTrack added).steady
  | removeTrack number =>
    cases done
    exact steady_ofEdit _ _ _ (fun _ _ made => .single (.trackRemoved made)) fun _ _ =>
      (atomic_removeTrack number).steady
  | addEvent number source moment =>
    simp only [Change.run, Option.map_eq_some_iff] at done
    obtain ⟨made, found, rfl⟩ := done
    cases made with
    | error fault => exact .refl
    | ok event =>
      exact steady_ofEdit _ _ _ (fun _ _ => steady_addMessage (messages number source moment rfl event found)) fun _ _ =>
        (atomic_addMessage number event.message moment).steady
  | removeEvent number place =>
    cases done
    exact steady_ofEdit _ _ _ (fun _ _ made => .single (.eventRemoved made)) fun _ _ =>
      (atomic_removeEvent number place).steady
  | holdLastTempo => exact absurd rfl held
  | releaseTempo number => exact absurd rfl (released number)
  | refresh =>
    cases done
    exact .single .refreshed
  | encode =>
    cases done
    exact steady_ofEdit _ _ _ (fun _ _ => steady_encode_ok ending) fun _ _ => steady_encode_error ending
  | save folder? name? =>
    cases done
    cases made : encode song with
    | error fault after =>
      simp only [Outcome.save, Song.save, made]
      exact steady_encode_error ending made
    | ok bytes after =>
      exact song_save made ▸ steady_encode_ok ending made
  | rewind =>
    cases done
    exact .single .rewound
  | next =>
    cases done
    rcases found : song.next? with _ | ⟨event, after⟩
    · simp only [Outcome.next, found]
      exact .refl
    · simp only [Outcome.next, found]
      exact .single (.played found)
  | play limit? =>
    cases done
    exact steady_playFrom _ _ _
  | seekTick tick =>
    cases done
    exact .head .rewound (steady_seekWhile _ _)
  | seekSeconds seconds =>
    cases done
    have sought : SteadySteps track message song.rewind _ :=
      steady_seekWhile (fun event => event.seconds?.all (Clock.lt · seconds)) song.rewind
    simp only [Outcome.ofSearch, Song.seekSeconds]
    split
    · exact .head .rewound (sought.tail (.stood (some seconds)))
    · exact .head .rewound sought
  | seekEvent number place =>
    cases done
    exact .head .rewound (steady_seekWhile _ _)

theorem allowed_run {workspace : Workspace S} {song : Song S} {change : Change S} {outcome : Outcome S}
    (tracks : ∀ number removed after, removeTrack number song = .ok removed after → track removed)
    (events : ∀ number place removed after, removeEvent number place song = .ok removed after → message removed.message)
    (done : change.run workspace song = some outcome) : Allowed track message outcome.taken := by
  cases change with
  | setFormat format => cases done; exact allowed_ofEdit _ _ fun _ _ _ => trivial
  | setTicksPerQuarter ticks => cases done; exact allowed_ofEdit _ _ fun _ _ _ => trivial
  | setTimecode rate resolution => cases done; exact allowed_ofEdit _ _ fun _ _ _ => trivial
  | addTrack source =>
    simp only [Change.run, Option.map_eq_some_iff] at done
    obtain ⟨added, _, rfl⟩ := done
    exact allowed_ofEdit _ _ fun _ _ _ => trivial
  | removeTrack number => cases done; exact allowed_ofEdit _ _ (tracks number)
  | addEvent number source moment =>
    simp only [Change.run, Option.map_eq_some_iff] at done
    obtain ⟨made, _, rfl⟩ := done
    cases made with
    | error fault => trivial
    | ok event => exact allowed_ofEdit _ _ fun _ _ _ => trivial
  | removeEvent number place => cases done; exact allowed_ofEdit _ _ (events number place)
  | holdLastTempo =>
    cases done
    rw [Outcome.holdLastTempo]
    split <;> trivial
  | releaseTempo number =>
    simp only [Change.run, Option.map_eq_some_iff] at done
    obtain ⟨handle, _, rfl⟩ := done
    rw [Outcome.releaseTempo]
    split <;> trivial
  | encode => cases done; exact allowed_ofEdit _ _ fun _ _ _ => trivial
  | next =>
    cases done
    rw [Outcome.next]
    split <;> trivial
  | refresh => cases done; trivial
  | save folder? name? => cases done; trivial
  | rewind => cases done; trivial
  | play limit? => cases done; trivial
  | seekTick tick => cases done; trivial
  | seekSeconds seconds => cases done; trivial
  | seekEvent number place => cases done; trivial

/-- A song that was loaded was read from the bytes of a file. -/
theorem load_ok {mode : Mode} {identity : Nat} {folder : Folder} {name : String} {song : Song S}
    (done : (load mode identity folder name).result = .ok song) :
    ∃ bytes, folder.content? name = some bytes ∧ (read mode identity bytes).result = .ok song := by
  cases content : folder.content? name with
  | none => simp [load, content] at done
  | some bytes =>
    simp only [load, content] at done
    exact ⟨bytes, rfl, done⟩

end

end Song

/-! ## What lasts -/

variable [Workers]

/-- A property of songs that lasts, together with what it needs of the tracks and messages that are
    brought in: new, read and copied songs have it, every step keeps it, and whatever is taken out
    of a song that has it may be brought in again. It may depend on how many references were taken. -/
structure Lasting (mode : Mode) (good : Nat → Song S → Prop) (track : Track S → Prop) (message : Message → Prop) : Prop where
  empty : ∀ count identity, good count (Song.empty identity)
  read : ∀ count identity bytes song, (Song.read mode identity bytes).result = .ok song → good count song
  copy : ∀ count identity song, good count song → good count (song.copy identity)
  later : ∀ count song, good count song → good (count + 1) song
  steady : ∀ count song after, good count song → Song.SteadyStep track message song after → good count after
  held : ∀ count song entry after, good count song → song.holdLastTempo = some (entry, after) → good (count + 1) after
  released : ∀ count song handle entry after, good count song → song.releaseTempo handle = some (entry, after) →
    good count after
  blank : track Track.empty
  tracks : ∀ count song, good count song → ∀ part ∈ song.tracks, track part
  removed : ∀ count song number part after, good count song → Song.removeTrack number song = .ok part after → track part
  drafts : ∀ draft made, Draft.message draft = .ok made → message made
  messages : ∀ count song, good count song → ∀ event ∈ song.events, message event.message

section
variable {mode : Mode} {good : Nat → Song S → Prop} {track : Track S → Prop} {message : Message → Prop} {count : Nat}

theorem Lasting.ending (lasting : Lasting mode good track message) : message .endOfTrack :=
  lasting.drafts .endOfTrack _ rfl

theorem Lasting.mono (lasting : Lasting mode good track message) {more : Nat} (le : count ≤ more) {song : Song S}
    (start : good count song) : good more song := by
  induction le with
  | refl => exact start
  | step _ ih => exact lasting.later _ song ih

theorem Lasting.steps (lasting : Lasting mode good track message) {song after : Song S} (start : good count song)
    (steps : Song.SteadySteps track message song after) : good count after := by
  induction steps with
  | refl => exact start
  | tail _ step ih => exact lasting.steady _ _ _ ih step

/-- A change that takes no reference keeps what lasts. -/
theorem Lasting.run (lasting : Lasting mode good track message) {workspace : Workspace S} {song : Song S}
    {change : Change S} {outcome : Outcome S} (start : good count song)
    (tracks : ∀ source found, workspace.track? source = some found → track found)
    (messages : ∀ source event, workspace.event? source = some (.ok event) → message event.message)
    (held : change ≠ .holdLastTempo) (done : change.run workspace song = some outcome) : good count outcome.song := by
  cases change with
  | holdLastTempo => exact absurd rfl held
  | releaseTempo number =>
    simp only [Change.run, Option.map_eq_some_iff] at done
    obtain ⟨handle, _, rfl⟩ := done
    rcases found : song.releaseTempo handle with _ | ⟨entry, released⟩
    · simp only [Outcome.releaseTempo, found]
      exact start
    · simp only [Outcome.releaseTempo, found]
      exact lasting.released _ _ _ _ _ start found
  | _ =>
    refine lasting.steps start (Song.steady_run lasting.ending (fun source _ => tracks source)
      (fun _ source _ _ => messages source) ?_ ?_ done)
    · simp
    · simp

end

namespace Workspace

variable {mode : Mode} {track : Track S → Prop} {message : Message → Prop}

omit [Clock S] [Workers] in
@[simp] theorem songs_put (workspace : Workspace S) (number : Nat) (outcome : Outcome S) :
    (workspace.put number outcome).songs = workspace.songs.set number outcome.song := by
  unfold put keep
  split <;> rfl

omit [Clock S] [Workers] in
@[simp] theorem nextIdentity_put (workspace : Workspace S) (number : Nat) (outcome : Outcome S) :
    (workspace.put number outcome).nextIdentity = workspace.nextIdentity := by
  unfold put keep
  split <;> rfl

/-- All that a workspace holds is as it has to be. -/
structure Keeps (good : Song S → Prop) (track : Track S → Prop) (message : Message → Prop) (workspace : Workspace S) :
    Prop where
  songs : ∀ song ∈ workspace.songs, good song
  tracks : ∀ part ∈ workspace.tracks, track part
  events : ∀ event ∈ workspace.events, message event.message

section
variable {good : Song S → Prop}

theorem Keeps.take {workspace : Workspace S} {song : Song S} (keeps : workspace.Keeps good track message)
    (new : good song) : (workspace.take song).Keeps good track message := by
  refine ⟨?_, keeps.tracks, keeps.events⟩
  intro other member
  rcases List.mem_append.mp member with old | added
  · exact keeps.songs other old
  · exact List.mem_singleton.mp added ▸ new

theorem Keeps.set {workspace : Workspace S} {song : Song S} (keeps : workspace.Keeps good track message) (number : Nat)
    (new : good song) : ({ workspace with songs := workspace.songs.set number song }).Keeps good track message := by
  refine ⟨?_, keeps.tracks, keeps.events⟩
  intro other member
  rcases List.mem_or_eq_of_mem_set member with old | rfl
  · exact keeps.songs other old
  · exact new

theorem Keeps.takeRead {workspace : Workspace S} {report : Report S (Song S)} (keeps : workspace.Keeps good track message)
    (new : ∀ song, report.result = .ok song → good song) : (workspace.takeRead report).2.Keeps good track message := by
  cases result : report.result with
  | ok song =>
    simp only [Workspace.takeRead, result]
    exact keeps.take (new song result)
  | error fault =>
    simp only [Workspace.takeRead, result]
    exact keeps

theorem Keeps.put {workspace : Workspace S} {outcome : Outcome S} (keeps : workspace.Keeps good track message)
    (number : Nat) (new : good outcome.song) (taken : Song.Allowed track message outcome.taken) :
    (workspace.put number outcome).Keeps good track message := by
  have set := keeps.set number new
  rw [Workspace.put]
  cases found : outcome.taken with
  | nothing => exact set
  | handle handle => exact ⟨set.songs, set.tracks, set.events⟩
  | track removed =>
    rw [found] at taken
    refine ⟨set.songs, ?_, set.events⟩
    intro part member
    rcases List.mem_append.mp member with old | added
    · exact set.tracks part old
    · exact List.mem_singleton.mp added ▸ taken
  | event removed =>
    rw [found] at taken
    refine ⟨set.songs, set.tracks, ?_⟩
    intro event member
    rcases List.mem_append.mp member with old | added
    · exact set.events event old
    · exact List.mem_singleton.mp added ▸ taken

theorem Keeps.handleAt {workspace : Workspace S} (keeps : workspace.Keeps good track message) (song : Song S)
    (number : Nat) : (workspace.handleAt song number).2.Keeps good track message := by
  rw [Workspace.handleAt]
  split
  · exact keeps
  · exact ⟨keeps.songs, keeps.tracks, keeps.events⟩

end

variable {good : Nat → Song S → Prop} {count : Nat}

theorem Keeps.mono {workspace : Workspace S} (lasting : Lasting mode good track message)
    (keeps : workspace.Keeps (good count) track message) {more : Nat} (le : count ≤ more) :
    workspace.Keeps (good more) track message :=
  ⟨fun song member => lasting.mono le (keeps.songs song member), keeps.tracks, keeps.events⟩

theorem Keeps.track? {workspace : Workspace S} (lasting : Lasting mode good track message)
    (keeps : workspace.Keeps (good count) track message) {source : TrackSource} {found : Track S}
    (here : workspace.track? source = some found) : track found := by
  cases source with
  | new => cases here; exact lasting.blank
  | removed number => exact keeps.tracks found (List.mem_of_getElem? here)
  | part song number =>
    simp only [Workspace.track?, Option.bind_eq_some_iff] at here
    obtain ⟨song, named, here⟩ := here
    exact lasting.tracks _ song (keeps.songs song (List.mem_of_getElem? named)) found (List.mem_of_getElem? here)

theorem Keeps.event? {workspace : Workspace S} (lasting : Lasting mode good track message)
    (keeps : workspace.Keeps (good count) track message) {source : EventSource} {event : Event S}
    (here : workspace.event? source = some (.ok event)) : message event.message := by
  cases source with
  | new draft =>
    simp only [Workspace.event?, Option.some.injEq] at here
    cases made : draft.message with
    | error fault => rw [made] at here; cases here
    | ok found => rw [made] at here; cases here; exact lasting.drafts draft found made
  | removed number =>
    simp only [Workspace.event?, Option.map_eq_some_iff, Except.ok.injEq] at here
    obtain ⟨found, named, rfl⟩ := here
    exact keeps.events found (List.mem_of_getElem? named)
  | part song number place =>
    simp only [Workspace.event?, Option.map_eq_some_iff, Option.bind_eq_some_iff, Except.ok.injEq] at here
    obtain ⟨found, ⟨song, named, here⟩, rfl⟩ := here
    simp only [Song.event?, Option.bind_eq_some_iff] at here
    obtain ⟨part, partNamed, here⟩ := here
    exact lasting.messages _ song (keeps.songs song (List.mem_of_getElem? named)) found
      (List.mem_flatMap.mpr ⟨part, List.mem_of_getElem? partNamed, List.mem_of_getElem? here⟩)

theorem Keeps.encodeAndRead {workspace : Workspace S} (lasting : Lasting mode good track message)
    (keeps : workspace.Keeps (good count) track message) (number : Nat) {song : Song S} (start : good count song) :
    (workspace.encodeAndRead mode number song).2.Keeps (good count) track message := by
  cases made : Song.encode song with
  | error fault closed =>
    simp only [Workspace.encodeAndRead, made]
    exact keeps.set number (lasting.steps start (Song.steady_encode_error lasting.ending made))
  | ok bytes encoded =>
    simp only [Workspace.encodeAndRead, made]
    exact (keeps.set number (lasting.steps start (Song.steady_encode_ok lasting.ending made))).takeRead (lasting.read _ _ _)

/-- What a change keeps of a song it keeps of all that the workspace holds. -/
theorem Keeps.putChange {workspace : Workspace S} (lasting : Lasting mode good track message)
    (keeps : workspace.Keeps (good count) track message) {number : Nat} {song : Song S} {change : Change S}
    {outcome : Outcome S} (start : good count song) (made : change.run workspace song = some outcome)
    (new : good count outcome.song) : (workspace.put number outcome).Keeps (good count) track message := by
  refine keeps.put number new (Song.allowed_run (lasting.removed _ song · · · start) ?_ made)
  intro track place removed after removal
  obtain ⟨event, inside, rfl⟩ := Song.exists_of_removeEvent removal
  exact lasting.messages _ song start event inside

/-- A reference that is taken counts. -/
theorem Keeps.holdLastTempo {workspace : Workspace S} (lasting : Lasting mode good track message)
    (keeps : workspace.Keeps (good count) track message) {number : Nat} {song : Song S}
    (named : workspace.songs[number]? = some song) :
    (workspace.put number (Outcome.holdLastTempo workspace.handles.length song)).Keeps
      (good (count + (workspace.booking mode (.change number .holdLastTempo)).acquisitions)) track message := by
  have start := keeps.songs song (List.mem_of_getElem? named)
  have kept := keeps.mono lasting (Nat.le_add_right count
    (workspace.booking mode (.change number .holdLastTempo)).acquisitions)
  have made : Change.run workspace song .holdLastTempo = some (.holdLastTempo workspace.handles.length song) := rfl
  refine kept.putChange lasting (lasting.mono (Nat.le_add_right ..) start) made ?_
  rcases found : song.holdLastTempo with _ | ⟨entry, held⟩
  · simp only [Outcome.holdLastTempo, found]
    exact lasting.mono (Nat.le_add_right ..) start
  · simp only [Outcome.holdLastTempo, found, acquisitions_of_held named found]
    exact lasting.held _ _ _ _ start found

theorem Keeps.after {workspace : Workspace S} (lasting : Lasting mode good track message)
    (keeps : workspace.Keeps (good count) track message) (command : Command S) :
    (workspace.after mode command).Keeps (good (count + (workspace.booking mode command).acquisitions)) track message := by
  have kept := keeps.mono lasting (Nat.le_add_right count (workspace.booking mode command).acquisitions)
  have member {number : Nat} {song : Song S} (named : workspace.songs[number]? = some song) :
      good (count + (workspace.booking mode command).acquisitions) song := kept.songs song (List.mem_of_getElem? named)
  rw [Workspace.after]
  cases done : workspace.run mode command with
  | none => exact kept
  | some result =>
    rw [Option.elim_some]
    cases command with
    | create =>
      rw [← Option.some.inj done]
      exact kept.take (lasting.empty _ _)
    | read bytes =>
      rw [← Option.some.inj done]
      exact kept.takeRead (lasting.read _ _ _)
    | load folder name =>
      rw [← Option.some.inj done]
      apply kept.takeRead
      intro found result
      obtain ⟨bytes, _, result⟩ := Song.load_ok result
      exact lasting.read _ _ bytes found result
    | copy number =>
      obtain ⟨song, named, rfl⟩ := Option.map_eq_some_iff.mp done
      exact kept.take (lasting.copy _ _ song (member named))
    | encodeAndRead number =>
      obtain ⟨song, named, rfl⟩ := Option.map_eq_some_iff.mp done
      exact kept.encodeAndRead lasting number (member named)
    | handleAt number place =>
      obtain ⟨song, named, rfl⟩ := Option.map_eq_some_iff.mp done
      exact kept.handleAt song place
    | change number change =>
      obtain ⟨song, named, changed⟩ := Option.bind_eq_some_iff.mp done
      obtain ⟨outcome, made, rfl⟩ := Option.map_eq_some_iff.mp changed
      by_cases held : change = .holdLastTempo
      · subst held
        cases made
        exact keeps.holdLastTempo lasting named
      · exact kept.putChange lasting (member named) made
          (lasting.run (member named) (fun _ _ => kept.track? lasting) (fun _ _ => kept.event? lasting) held made)

/-- What lasts holds of every song of every session, and whatever the workspace keeps beside the
    songs may be brought in. -/
theorem session_keeps (lasting : Lasting mode good track message) (commands : List (Command S)) :
    (session mode commands).Keeps (good (acquisitions mode commands)) track message := by
  induction commands using List.reverseRecOn with
  | nil => exact ⟨List.forall_mem_nil _, List.forall_mem_nil _, List.forall_mem_nil _⟩
  | append_singleton commands command ih =>
    rw [session_concat, acquisitions_concat]
    exact ih.after lasting command

end Workspace

end MidiFile
