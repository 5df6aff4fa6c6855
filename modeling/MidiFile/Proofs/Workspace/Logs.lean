import MidiFile.Proofs.Song.Times
import MidiFile.Proofs.TempoMap.Log
import Mathlib.Data.List.Induction

/-! # Tempo maps of a session as logs

Beside the songs of a session runs a log for each of them (`Workspace.logs`): what the events of a
song that is read set, in the order of the tracks and of the events in there, then what each track
and each event sets that is added; an entry that goes with its last reference takes what was set at
its tick, and nothing else is ever taken away. The tempo map of every song is the one that its log
describes.
-/

namespace MidiFile

variable {S : Type} [Clock S]

/-- The tick of the entry that a handle names, where the entry was in the song before and is no
    more behind a change. -/
def Song.evictedTick? (before after : Song S) (handle : Handle) : Option Nat :=
  (before.tempoMap.find? handle).bind fun entry =>
    if after.tempoMap.entries.any (·.id == entry.id) then none else some entry.tick

/-- The log of a song behind a change, given what came of it. -/
def Change.logAfter (workspace : Workspace S) (song : Song S) (change : Change S) (outcome : Outcome S) (log : Log) :
    Log :=
  match change, outcome.report.result with
  | .addTrack _, .ok (.number number) => log ++ Setting.ofEvents (outcome.song.tracks[number]?.elim [] Track.events)
  | .addEvent track _ _, .ok (.number number) => log ++ Setting.ofEvents (outcome.song.event? track number).toList
  | .releaseTempo number, _ => (workspace.handles[number]?.bind (song.evictedTick? outcome.song)).elim log log.without
  | _, _ => log

namespace Workspace

variable [Workers]

/-- The logs of the songs behind a command. -/
def logsAfter (mode : Mode) (workspace : Workspace S) (command : Command S) (logs : List Log) : List Log :=
  match command with
  | .create | .read _ | .load _ _ | .encodeAndRead _ =>
    logs ++ ((workspace.after mode command).songs.drop logs.length).map fun song => Setting.ofEvents song.events
  | .copy number => logs ++ logs[number]?.toList
  | .handleAt _ _ => logs
  | .change number change =>
    match workspace.songs[number]? with
    | none => logs
    | some song =>
      match change.run workspace song with
      | none => logs
      | some outcome => logs.modify number (change.logAfter workspace song outcome)

/-- The logs of the songs of a session. -/
def logs (mode : Mode) (commands : List (Command S)) : List Log := beside mode (logsAfter mode) [] commands

theorem logs_concat (mode : Mode) (commands : List (Command S)) (command : Command S) :
    logs mode (commands ++ [command]) = logsAfter mode (session mode commands) command (logs mode commands) :=
  beside_concat mode (logsAfter mode) [] commands command

end Workspace

/-! ## Where settings come from -/

section
variable {good : Setting → Prop}

omit [Clock S] in
/-- A change adds what some events of the changed song set, or it takes something away. -/
theorem Change.forall_logAfter {workspace : Workspace S} {song : Song S} {change : Change S} {outcome : Outcome S}
    {log : Log} (old : ∀ setting ∈ log, good setting)
    (set : ∀ setting ∈ Setting.ofEvents outcome.song.events, good setting) :
    ∀ setting ∈ change.logAfter workspace song outcome log, good setting := by
  have part {events : List (Event S)} (inside : events ⊆ outcome.song.events) :
      ∀ setting ∈ log ++ Setting.ofEvents events, good setting :=
    List.forall_mem_append.mpr ⟨old, fun setting member => set setting (List.filterMap_subset _ inside member)⟩
  unfold logAfter
  split
  · rename_i number _
    refine part fun event member => ?_
    cases here : outcome.song.tracks[number]? with
    | none => simp [here] at member
    | some track =>
      rw [here] at member
      exact List.mem_flatMap.mpr ⟨track, List.mem_of_getElem? here, member⟩
  · refine part fun event member => ?_
    obtain ⟨track, here, found⟩ := Option.bind_eq_some_iff.mp (Option.mem_toList.mp member)
    exact List.mem_flatMap.mpr ⟨track, List.mem_of_getElem? here, List.mem_of_getElem? found⟩
  · rename_i number
    cases workspace.handles[number]?.bind (song.evictedTick? outcome.song) with
    | none => exact old
    | some tick => exact fun setting member => old setting (List.mem_filter.mp member).1
  · exact old

namespace Workspace

variable [Workers]

theorem forall_logsAfter {mode : Mode} {workspace : Workspace S} {logs : List Log}
    (old : ∀ log ∈ logs, ∀ setting ∈ log, good setting) (command : Command S)
    (set : ∀ song ∈ (workspace.after mode command).songs, ∀ setting ∈ Setting.ofEvents song.events, good setting) :
    ∀ log ∈ workspace.logsAfter mode command logs, ∀ setting ∈ log, good setting := by
  have fresh : ∀ log ∈ logs ++ ((workspace.after mode command).songs.drop logs.length).map fun song =>
      Setting.ofEvents song.events, ∀ setting ∈ log, good setting := by
    refine List.forall_mem_append.mpr ⟨old, List.forall_mem_map.mpr fun song member => ?_⟩
    exact set song (List.mem_of_mem_drop member)
  cases command with
  | create => exact fresh
  | read bytes => exact fresh
  | load folder name => exact fresh
  | encodeAndRead number => exact fresh
  | copy number =>
    refine List.forall_mem_append.mpr ⟨old, fun log member => old log ?_⟩
    exact List.mem_of_getElem? (Option.mem_toList.mp member)
  | handleAt number place => exact old
  | change number change =>
    simp only [logsAfter]
    cases here : workspace.songs[number]? with
    | none => exact old
    | some song =>
      simp only
      cases done : change.run workspace song with
      | none => exact old
      | some outcome =>
        have changed : outcome.song ∈ (workspace.after mode (.change number change)).songs := by
          simp only [after, run, here, Option.bind_some, done, Option.map_some, Option.elim_some, songs_put]
          exact List.mem_set (List.getElem?_eq_some_iff.mp here).1 _
        exact forall_mem_modify old (fun _ old => Change.forall_logAfter old (set _ changed)) number

/-- What holds of all that the events of the songs set, at any time, holds of all that the logs say. -/
theorem forall_logs {mode : Mode}
    (set : ∀ commands, ∀ song ∈ (session (S := S) mode commands).songs,
      ∀ setting ∈ Setting.ofEvents song.events, good setting) (commands : List (Command S)) :
    ∀ log ∈ logs mode commands, ∀ setting ∈ log, good setting := by
  induction commands using List.reverseRecOn with
  | nil => exact List.forall_mem_nil _
  | append_singleton commands command ih =>
    have behind := set (commands ++ [command])
    rw [session_concat] at behind
    rw [logs_concat]
    exact forall_logsAfter ih command behind

end Workspace

end

/-- All that the log says was set by messages. -/
def Log.Made (log : Log) : Prop := ∀ setting ∈ log, setting.Made

theorem Workspace.made_logs [Workers] (mode : Mode) (commands : List (Command S)) : ∀ log ∈ logs mode commands, log.Made :=
  forall_logs (fun _ song _ => Setting.made_ofEvents song.events) commands

namespace Song

theorem ofEvents_refreshEvent (song : Song S) (start : Nat) (events : List (Event S)) :
    Setting.ofEvents (events.map (song.refreshEvent start)) = Setting.ofEvents events := by
  apply Setting.ofEvents_congr
  simp only [List.map_map, Function.comp_def, tick_refreshEvent, message_refreshEvent]

section
variable {song : Song S}

theorem settings_refreshFrom (ordered : song.tempoMap.Ordered) (start : Nat) :
    (song.refreshFrom start).tempoMap.settings = song.tempoMap.settings := ordered.settings_recount _

theorem ids_refreshFrom (ordered : song.tempoMap.Ordered) (start : Nat) :
    (song.refreshFrom start).tempoMap.entries.map (·.id) = song.tempoMap.entries.map (·.id) := by
  rw [refreshFrom, recount, TempoMap.ids_of_course, TempoMap.course_recount ordered, ← TempoMap.ids_of_course]

theorem settings_refresh (ordered : song.tempoMap.Ordered) : song.refresh.tempoMap.settings = song.tempoMap.settings :=
  (settings_refreshFrom (ordered.resolve _) 0).trans (TempoMap.settings_resolve _ _)

/-- A step by which no track gets in, and no message that sets a tempo or a time signature. -/
abbrev QuietStep : Song S → Song S → Prop := SteadyStep (fun _ => False) fun message => message.changesTempo = false

abbrev QuietSteps : Song S → Song S → Prop := SteadySteps (fun _ => False) fun message => message.changesTempo = false

theorem settings_quiet {after : Song S} (timed : song.Timed) (step : QuietStep song after) :
    after.tempoMap.settings = song.tempoMap.settings := by
  have ordered := timed.ordered
  cases step with
  | formatted done =>
    obtain ⟨_, rfl⟩ := setFormat_ok done
    rfl
  | metrical done =>
    obtain ⟨_, _, rfl⟩ := setTicksPerQuarter_ok done
    exact settings_refresh ordered
  | timecode done =>
    obtain ⟨_, rfl⟩ := setTimecode_ok done
    exact settings_refresh ordered
  | trackAdded known => exact known.elim
  | trackRemoved done =>
    obtain ⟨_, _, _, rfl⟩ := removeTrack_ok done
    exact ordered.settings_recount _
  | eventAdded quiet done =>
    obtain ⟨_, _, _, _, _, rfl⟩ := addEvent_ok done
    refine (settings_refreshFrom (ordered.register _ _ _) _).trans (congrArg TempoMap.settings ?_)
    rw [TempoMap.register, if_neg (Bool.eq_false_iff.mp quiet)]
  | eventRemoved done =>
    obtain ⟨_, _, _, _, rfl⟩ := removeEvent_ok done
    exact ordered.settings_recount _
  | refreshed => exact settings_refresh ordered
  | stored enough => rfl
  | rewound => rfl
  | played done =>
    obtain ⟨_, _, _, _, _, _, rfl⟩ := next?_some done
    rfl
  | stood position? => rfl

theorem QuietSteps.settings {after : Song S} (timed : song.Timed) (steps : QuietSteps song after) :
    after.tempoMap.settings = song.tempoMap.settings := by
  induction steps with
  | refl => rfl
  | tail earlier step ih => exact (settings_quiet (SteadySteps.grown timed earlier).2 step).trans ih

end

section
variable {song after : Song S} {log : Log}

theorem follows_addTrack (ordered : song.tempoMap.Ordered) (follows : song.tempoMap.Follows log) {track : Track S}
    {number : Nat} (done : addTrack track song = .ok number after) :
    after.tempoMap.Follows (log ++ Setting.ofEvents (after.tracks[number]?.elim [] Track.events)) := by
  obtain ⟨placed, _, rfl, rfl⟩ := addTrack_ok done
  have registered := follows.registerAll ordered song.division placed.events
  have added : (song.tracks ++ [placed.rewind])[song.tracks.length]? = some placed.rewind := List.getElem?_concat_length
  simp only [tracks_refreshFrom, List.getElem?_map, added, Option.map_some, Option.elim_some, Track.events_rewind,
    ofEvents_refreshEvent]
  exact registered.of_settings (settings_refreshFrom (ordered.registerAll _ _) _)

theorem follows_addEvent (ordered : song.tempoMap.Ordered) (follows : song.tempoMap.Follows log)
    {track tick number : Nat} {message : Message} (done : addEvent track message tick song = .ok number after) :
    after.tempoMap.Follows (log ++ Setting.ofEvents (after.event? track number).toList) := by
  obtain ⟨old, new, here, _, inserted, rfl⟩ := addEvent_ok done
  obtain ⟨_, rfl, rfl⟩ := Track.insert_ok inserted
  have registered : (song.tempoMap.register song.division tick message).Follows _ :=
    follows.register ordered song.division message
  obtain ⟨event, placed, same⟩ := Option.map_eq_some_iff.mp (Track.getElem?_place message tick old)
  obtain ⟨sameTick, sameMessage⟩ := Prod.mk.inj same
  have inside := (List.getElem?_eq_some_iff.mp here).1
  simp only [event?, tracks_refreshFrom, List.getElem?_map, List.getElem?_set_self inside, Option.map_some,
    Option.bind_some, Track.events_rewind, placed, Option.toList_some]
  rw [Setting.ofEvents_singleton, tick_refreshEvent, message_refreshEvent, sameTick, sameMessage]
  exact registered.of_settings (settings_refreshFrom (ordered.register _ _ _) _)

omit [Clock S] in
theorem evictedTick?_eq {handle : Handle} {entry : Entry S} (found : song.tempoMap.find? handle = some entry) :
    song.evictedTick? after handle =
      if entry.id ∈ after.tempoMap.entries.map (·.id) then none else some entry.tick := by
  have present : after.tempoMap.entries.any (·.id == entry.id) = true ↔ entry.id ∈ after.tempoMap.entries.map (·.id) := by
    simp [List.any_eq_true, List.mem_map]
  rw [evictedTick?, found, Option.bind_some]
  simp only [present]

theorem follows_holdLastTempo (ordered : song.tempoMap.Ordered)
    (room : ∀ entry ∈ song.tempoMap.entries, entry.references < 0xFFFFFFFF) (follows : song.tempoMap.Follows log)
    {entry : Entry S} (done : song.holdLastTempo = some (entry, after)) : after.tempoMap.Follows log := by
  obtain ⟨_, acquired, rfl⟩ := holdLastTempo_ok done
  exact follows.of_settings (TempoMap.settings_of_unheld (TempoMap.unheld_acquire ordered room acquired).1)

theorem follows_releaseTempo (ordered : song.tempoMap.Ordered) (follows : song.tempoMap.Follows log) {handle : Handle}
    {entry : Entry S} (done : song.releaseTempo handle = some (entry, after)) :
    after.tempoMap.Follows ((song.evictedTick? after handle).elim log log.without) := by
  obtain ⟨found, cases⟩ := releaseTempo_cases ordered done
  have member := (TempoMap.mem_of_find? found).1
  rw [evictedTick?_eq found]
  obtain ⟨more, rfl⟩ | ⟨last, rfl⟩ := cases
  · have ids : (song.tempoMap.put entry.drop).entries.map (·.id) = song.tempoMap.entries.map (·.id) :=
      TempoMap.map_put ordered.ids member rfl rfl
    rw [ids, if_pos (List.mem_map_of_mem member)]
    exact follows.of_settings (TempoMap.settings_of_unheld (TempoMap.unheld_put_drop ordered member more))
  · have without := (ordered.without entry.id).resolve song.division
    rw [ids_refreshFrom without, TempoMap.ids_resolve, if_neg (by simp)]
    refine (follows.without ordered member).of_settings ?_
    exact (settings_refreshFrom without 0).trans (TempoMap.settings_resolve _ _)

theorem follows_read [Workers] {mode : Mode} {identity : Nat} {bytes : List UInt8}
    (done : (read mode identity bytes).result = .ok song) : song.tempoMap.Follows (Setting.ofEvents song.events) := by
  obtain ⟨_, outline, bodies, _, _, _, rfl⟩ := read_ok_iff.mp done
  have registered := (TempoMap.follows_empty (S := S) identity).registerAll (TempoMap.ordered_empty identity)
    outline.header.division (((bodies.map Body.track).mapIdx fun number track => track.attach (some number)).flatMap (·.events))
  rw [ofBodies, ofTracks, events_rewind, events_refreshFrom, ofEvents_refreshEvent]
  exact registered.of_settings (settings_refreshFrom ((TempoMap.ordered_empty identity).registerAll _ _) _)

end

end Song

/-- What any change but taking a reference does to the map of its song its log says as well. -/
theorem Change.follows_run [Workers] {workspace : Workspace S} {song : Song S} {change : Change S} {outcome : Outcome S}
    {log : Log} (timed : song.Timed) (follows : song.tempoMap.Follows log) (held : change ≠ .holdLastTempo)
    (done : change.run workspace song = some outcome) :
    outcome.song.tempoMap.Follows (change.logAfter workspace song outcome log) := by
  have ordered := timed.ordered
  cases change with
  | addTrack source =>
    simp only [Change.run, Option.map_eq_some_iff] at done
    obtain ⟨added, found, rfl⟩ := done
    cases made : Song.addTrack added song with
    | ok number after =>
      simp only [Outcome.addTrack, Outcome.ofEdit, made]
      exact Song.follows_addTrack ordered follows made
    | error fault after =>
      simp only [Outcome.addTrack, Outcome.ofEdit, made]
      exact Song.atomic_addTrack added song fault after made ▸ follows
  | addEvent number source moment =>
    simp only [Change.run, Option.map_eq_some_iff] at done
    obtain ⟨made, found, rfl⟩ := done
    cases made with
    | error fault => exact follows
    | ok event =>
      cases made : Outcome.addMessage number event.message moment song with
      | ok place after =>
        simp only [Outcome.addEvent, Outcome.ofEdit, made]
        obtain ⟨tick, made⟩ := Song.addMessage_ok made
        exact Song.follows_addEvent ordered follows made
      | error fault after =>
        simp only [Outcome.addEvent, Outcome.ofEdit, made]
        exact Song.atomic_addMessage number event.message moment song fault after made ▸ follows
  | holdLastTempo => exact absurd rfl held
  | releaseTempo number =>
    simp only [Change.run, Option.map_eq_some_iff] at done
    obtain ⟨handle, found, rfl⟩ := done
    have same : (Outcome.releaseTempo handle song).song = (song.releaseTempo handle).elim song Prod.snd := by
      rw [Outcome.releaseTempo]
      cases song.releaseTempo handle <;> rfl
    simp only [logAfter, found, Option.bind_some, same]
    cases released : song.releaseTempo handle with
    | none =>
      have unknown : song.tempoMap.find? handle = none := by
        simpa [Song.releaseTempo, TempoMap.release, ordered.live?_eq] using released
      simpa [Song.evictedTick?, unknown] using follows
    | some result => exact Song.follows_releaseTempo ordered follows released
  | _ =>
    have quiet : Song.QuietSteps song outcome.song := by
      refine Song.steady_run (by rfl) ?_ ?_ held ?_ done
      · intro source same; contradiction
      · intro number source moment same; contradiction
      · intro number same; contradiction
    exact follows.of_settings (quiet.settings timed)

namespace Workspace

variable {mode : Mode} {workspace : Workspace S} {logs : List Log}

/-- Each song has the tempo map that follows its log. -/
abbrev FollowLogs (songs : List (Song S)) (logs : List Log) : Prop :=
  List.Forall₂ (fun song log => song.tempoMap.Follows log) songs logs

omit [Clock S] in
/-- Songs that are new start their logs with what their events set. -/
theorem follows_new {songs : List (Song S)} (follows : FollowLogs songs logs) (new : List (Song S))
    (own : ∀ song ∈ new, song.tempoMap.Follows (Setting.ofEvents song.events)) :
    FollowLogs (songs ++ new) (logs ++ ((songs ++ new).drop logs.length).map fun song => Setting.ofEvents song.events) := by
  rw [← follows.length_eq, List.drop_left]
  refine List.rel_append follows ?_
  rw [List.forall₂_map_right_iff, List.forall₂_same]
  exact own

omit [Clock S] in
theorem follows_takeRead {report : Report S (Song S)} (follows : FollowLogs workspace.songs logs)
    (own : ∀ song, report.result = .ok song → song.tempoMap.Follows (Setting.ofEvents song.events)) :
    FollowLogs (workspace.takeRead report).2.songs
      (logs ++ ((workspace.takeRead report).2.songs.drop logs.length).map fun song => Setting.ofEvents song.events) := by
  cases result : report.result with
  | ok song =>
    simp only [takeRead, result]
    exact follows_new follows [song] (by simpa using own song result)
  | error fault =>
    simp only [takeRead, result]
    simpa using follows_new follows [] (by simp)

omit [Clock S] in
/-- A song whose settings stay follows the log that it followed. -/
theorem follows_set {number : Nat} {song encoded : Song S} (here : workspace.songs[number]? = some song)
    (same : encoded.tempoMap.settings = song.tempoMap.settings) (follows : FollowLogs workspace.songs logs) :
    FollowLogs (workspace.songs.set number encoded) logs := by
  have kept : FollowLogs (workspace.songs.set number encoded) (logs.modify number id) :=
    forall₂_set_modify follows here fun log follows => follows.of_settings same
  rwa [List.modify_id] at kept

section
variable [Workers]

theorem follows_copy (follows : FollowLogs workspace.songs logs) (number : Nat) :
    FollowLogs (workspace.after mode (.copy number)).songs (workspace.logsAfter mode (.copy number) logs) := by
  simp only [after, logsAfter, run]
  cases here : workspace.songs[number]? with
  | none =>
    have beyond : logs[number]? = none := by
      rw [List.getElem?_eq_none_iff, ← follows.length_eq]
      exact List.getElem?_eq_none_iff.mp here
    simpa [beyond] using follows
  | some song =>
    obtain ⟨inside, rfl⟩ := List.getElem?_eq_some_iff.mp here
    have logged : number < logs.length := follows.length_eq ▸ inside
    simp only [Option.map_some, Option.elim_some, take, List.getElem?_eq_getElem logged, Option.toList_some]
    exact List.rel_append follows (.cons ((follows.get inside logged).of_settings rfl) .nil)

theorem follows_encodeAndRead {number : Nat} {song : Song S} (timed : song.Timed)
    (here : workspace.songs[number]? = some song) (follows : FollowLogs workspace.songs logs) :
    FollowLogs (workspace.encodeAndRead mode number song).2.songs
      (logs ++ ((workspace.encodeAndRead mode number song).2.songs.drop logs.length).map fun song =>
        Setting.ofEvents song.events) := by
  cases made : Song.encode song with
  | ok bytes encoded =>
    simp only [encodeAndRead, made]
    have quiet : Song.QuietSteps song encoded := Song.steady_encode_ok (by rfl) made
    exact follows_takeRead (follows_set here (quiet.settings timed) follows) fun song => Song.follows_read
  | error fault closed =>
    simp only [encodeAndRead, made]
    have quiet : Song.QuietSteps song closed := Song.steady_encode_error (by rfl) made
    simpa using follows_new (follows_set here (quiet.settings timed) follows) [] (by simp)

theorem follows_holdLastTempo {count number : Nat} {song : Song S} (timed : song.Timed) (bound : song.HeldAtMost count)
    (here : workspace.songs[number]? = some song)
    (few : count + (workspace.booking mode (.change number .holdLastTempo)).acquisitions < 0xFFFFFFFF) {log : Log}
    (follows : song.tempoMap.Follows log) :
    (Outcome.holdLastTempo workspace.handles.length song).song.tempoMap.Follows log := by
  rcases done : song.holdLastTempo with _ | ⟨entry, held⟩
  · simp only [Outcome.holdLastTempo, done]
    exact follows
  · simp only [Outcome.holdLastTempo, done]
    exact Song.follows_holdLastTempo timed.ordered (bound.room here few done) follows done

theorem follows_after {count : Nat} (timed : ∀ song ∈ workspace.songs, song.Timed ∧ song.HeldAtMost count)
    (follows : FollowLogs workspace.songs logs) (command : Command S)
    (few : count + (workspace.booking mode command).acquisitions < 0xFFFFFFFF) :
    FollowLogs (workspace.after mode command).songs (workspace.logsAfter mode command logs) := by
  cases command with
  | create => exact follows_new follows _ (by simpa [Song.events, Song.empty, Setting.ofEvents] using TempoMap.follows_empty _)
  | read bytes => exact follows_takeRead follows fun song => Song.follows_read
  | load folder name =>
    refine follows_takeRead follows ?_
    intro song result
    obtain ⟨_, _, result⟩ := Song.load_ok result
    exact Song.follows_read result
  | copy number => exact follows_copy follows number
  | handleAt number place =>
    simp only [after, logsAfter, run]
    cases workspace.songs[number]? with
    | none => exact follows
    | some song =>
      simp only [Option.map_some, Option.elim_some, handleAt]
      split <;> exact follows
  | encodeAndRead number =>
    simp only [after, logsAfter, run]
    cases here : workspace.songs[number]? with
    | none => simpa using follows_new follows [] (by simp)
    | some song => exact follows_encodeAndRead (timed song (List.mem_of_getElem? here)).1 here follows
  | change number change =>
    simp only [after, logsAfter, run]
    cases here : workspace.songs[number]? with
    | none => exact follows
    | some song =>
      simp only [Option.bind_some]
      cases done : change.run workspace song with
      | none => exact follows
      | some outcome =>
        obtain ⟨now, bound⟩ := timed song (List.mem_of_getElem? here)
        simp only [Option.map_some, Option.elim_some, songs_put]
        refine forall₂_set_modify follows here fun log follows => ?_
        by_cases held : change = .holdLastTempo
        · subst held
          cases done
          exact follows_holdLastTempo now bound here few follows
        · exact Change.follows_run now follows held done

theorem session_follows_logs {mode : Mode} {commands : List (Command S)} (few : acquisitions mode commands < 0xFFFFFFFF) :
    FollowLogs (session mode commands).songs (Workspace.logs mode commands) := by
  induction commands using List.reverseRecOn with
  | nil => exact .nil
  | append_singleton commands command ih =>
    have fewBefore := Nat.lt_of_le_of_lt (acquisitions_le_append mode commands [command]) few
    have timed := (session_keeps (Song.lasting_timed mode) commands).songs
    rw [acquisitions_concat] at few
    rw [logs_concat, session_concat]
    exact follows_after (fun song member => timed song member fewBefore) (ih fewBefore) command few

/-- In every session that takes fewer references than can be counted, the tempo map of each song is
    the one that its log describes: it has one entry for a tick at which anything was set, with the
    tempo and the time signature that were set last at or before that tick, and the entry in effect at
    a tick is the one of the greatest tick in the log that is not past it. -/
theorem session_maps_described (mode : Mode) (commands : List (Command S))
    (few : acquisitions mode commands < 0xFFFFFFFF) :
    List.Forall₂ (fun song log => TempoMap.Describes log song.tempoMap) (session mode commands).songs
      (Workspace.logs mode commands) := by
  have timed : ∀ song ∈ (session mode commands).songs, song.Timed := fun song => Song.session_timed few
  refine List.Forall₂.imp ?_ ((List.forall₂_and_left _ _).mpr ⟨timed, session_follows_logs few⟩)
  rintro song log ⟨timed, follows⟩
  exact follows.describes timed.ordered timed.settled

end

/-- A tempo and a time signature at one tick, an earlier tempo, and the later entry given back, so that
    nothing of it is left. -/
private def logCommands : List (Command Float) :=
  [.create, .change 0 (.addTrack .new), .change 0 (.addEvent 0 (.new (.tempo 400000)) (.tick 120)),
    .change 0 (.addEvent 0 (.new (.bytes [0xFF, 0x58, 4, 3, 2, 24, 8])) (.tick 120)),
    .change 0 (.addEvent 0 (.new (.tempo 300000)) (.tick 0)), .change 0 .holdLastTempo,
    .change 0 (.releaseTempo 0), .change 0 (.releaseTempo 0)]

theorem session_maps_described_given_back :
    acquisitions .strict logCommands < 0xFFFFFFFF ∧
      Workspace.logs .strict logCommands = [[⟨0, some 300000, none⟩]] ∧
      List.Forall₂ (fun song log => TempoMap.Describes log song.tempoMap) (session .strict logCommands).songs
        (Workspace.logs .strict logCommands) := by
  have few : acquisitions .strict logCommands < 0xFFFFFFFF := by decide
  exact ⟨few, rfl, session_maps_described .strict logCommands few⟩

end Workspace

end MidiFile
