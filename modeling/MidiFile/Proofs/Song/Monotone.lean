import MidiFile.Proofs.Song.Play
import MidiFile.Proofs.TempoMap.Monotone
import MidiFile.Proofs.Workspace.Logs

/-! # Time never runs backwards

A tempo comes from three bytes of some message, so every tempo of a session is one that there is room
for, and its maps are lawful (`Song.session_lawful`). On a lawful clock seconds then follow ticks: along
a track and in the order of play no event is before one in front of it (`Song.OnTime`), and no event is
behind the end of its song.
-/

namespace MidiFile

open Clock

variable {S : Type} [Clock S]

theorem Setting.Made.tempo_lt {setting : Setting} (made : setting.Made) {tempo : Nat} (sets : setting.tempo? = some tempo) :
    tempo < 0x1000000 := by
  obtain ⟨tick, message, of_⟩ := made
  obtain ⟨_, same⟩ := Option.ite_none_right_eq_some.mp of_
  cases same
  exact Message.tempo?_lt sets

omit [Clock S] in
theorem TempoMap.Follows.tempo_lt {map : TempoMap S} {log : Log} (follows : map.Follows log) (made : log.Made)
    {entry : Entry S} (member : entry ∈ map.entries) {tempo : Nat} (sets : entry.ownTempo? = some tempo) :
    tempo < 0x1000000 := by
  have last : log.lastAt? Setting.tempo? entry.tick = some tempo :=
    (follows.tempos entry.setting (List.mem_map_of_mem member)).symm.trans sets
  obtain ⟨setting, logged, same⟩ := Log.exists_of_lastAt? last
  exact (made setting logged).tempo_lt same

namespace Song

variable {song : Song S}

/-- The times of every song of a session can be worked out, while no count of references starts over. -/
theorem session_lawful [Workers] {mode : Mode} {commands : List (Command S)}
    (few : Workspace.acquisitions mode commands < 0xFFFFFFFF) (member : song ∈ (Workspace.session mode commands).songs) :
    song.tempoMap.Lawful song.division := by
  have timed := session_timed few member
  refine ⟨(session_sound mode commands member).division, timed.ordered, timed.settled, ?_⟩
  intro entry inside tempo sets
  obtain ⟨number, here⟩ := List.mem_iff_getElem?.mp member
  obtain ⟨log, logged, follows⟩ := exists_getElem?_right (Workspace.session_follows_logs few) here
  have small := follows.tempo_lt (Workspace.made_logs mode commands log (List.mem_of_getElem? logged)) inside sets
  exact Nat.le_trans (Nat.le_of_lt small) (by decide)

/-- The events have their times in seconds, and none of them is before one in front of it. -/
def OnTime (events : List (Event S)) : Prop :=
  ∃ seconds : List S, events.map Event.seconds? = seconds.map some ∧ seconds.Pairwise AtMost

theorem Timed.seconds?_eq (timed : song.Timed) {event : Event S} (member : event ∈ song.events) :
    event.seconds? = some (song.secondsAt event.tick) := by
  rw [Event.seconds?, timed.timely event member]
  rfl

section
variable [LawfulClock S] (lawful : song.tempoMap.Lawful song.division) (timed : song.Timed) (sound : song.Sound)
include lawful

theorem amount_secondsAt {tick : Nat} (late : tick ≤ greatestTick) : Amount (song.secondsAt tick) :=
  lawful.amount_timeOf late

theorem secondsAt_mono {p q : Nat} (order : p ≤ q) (late : q ≤ greatestTick) : AtMost (song.secondsAt p) (song.secondsAt q) :=
  lawful.timeOf_mono order late

include timed sound

/-- Events of a song that are in the order of their ticks are in the order of their times. -/
theorem onTime_of_sorted {events : List (Event S)} (inside : ∀ event ∈ events, event ∈ song.events)
    (sorted : events.Pairwise fun earlier later => earlier.tick ≤ later.tick) : OnTime events := by
  refine ⟨events.map fun event => song.secondsAt event.tick, ?_, ?_⟩
  · rw [List.map_map]
    exact List.map_congr_left fun event member => timed.seconds?_eq (inside event member)
  · rw [List.pairwise_map]
    refine List.Pairwise.imp_of_mem ?_ sorted
    intro earlier later _ member order
    exact secondsAt_mono lawful order (sound.tick_le (inside later member))

/-- However far a song is played, its events come in the order of their times. -/
theorem onTime_play (aligned : song.Aligned) (count : Nat) : OnTime (song.play count).1 := by
  obtain ⟨events, all, through⟩ := exists_goesThrough sound aligned
  rw [through.played]
  refine onTime_of_sorted lawful timed sound ?_ ?_
  · intro event member
    have ahead : event ∈ song.ahead := all.subset (List.mem_of_mem_take member)
    obtain ⟨track, among, inside⟩ := List.mem_flatMap.mp ahead
    exact List.mem_flatMap.mpr ⟨track, among, track.ahead_sublist.subset inside⟩
  · refine (through.sorted.imp ?_).sublist (List.take_sublist count events)
    rintro earlier later (before | ⟨together, _⟩)
    · exact Nat.le_of_lt before
    · exact Nat.le_of_eq together

/-- No event is behind the end of its song. -/
theorem atMost_length {event : Event S} (member : event ∈ song.events) : AtMost (song.secondsAt event.tick) song.length := by
  have lastInside {track : Track S} {last : Event S} (among : track ∈ song.tracks) (ends : track.last? = some last) :
      last ∈ song.events := List.mem_flatMap.mpr ⟨track, among, List.mem_of_getLast? ends⟩
  have amounts : ∀ seconds ∈ song.tracks.filterMap fun track => track.last?.bind Event.seconds?, Amount seconds := by
    intro seconds listed
    obtain ⟨track, among, found⟩ := List.mem_filterMap.mp listed
    obtain ⟨last, ends, found⟩ := Option.bind_eq_some_iff.mp found
    rw [timed.seconds?_eq (lastInside among ends), Option.some.injEq] at found
    exact found ▸ amount_secondsAt lawful (sound.tick_le (lastInside among ends))
  obtain ⟨track, among, inside⟩ := List.mem_flatMap.mp member
  obtain ⟨last, ends⟩ : ∃ last, track.last? = some last :=
    Option.isSome_iff_exists.mp (List.getLast?_isSome.mpr (List.ne_nil_of_mem inside))
  have order : event.tick ≤ last.tick := by
    have bound := Track.le_endTick (sound.inOrder track among).regular event inside
    rwa [Track.endTick, ends] at bound
  have listed : song.secondsAt last.tick ∈ song.tracks.filterMap fun track => track.last?.bind Event.seconds? :=
    List.mem_filterMap.mpr ⟨track, among, by rw [ends, Option.bind_some, timed.seconds?_eq (lastInside among ends)]⟩
  exact LawfulClock.atMost_trans (secondsAt_mono lawful order (sound.tick_le (lastInside among ends)))
    (atMost_foldl_later amount_zero amounts _ (List.mem_cons_of_mem _ listed))

end

/-- On a lawful clock time never runs backwards in any song of any session that takes fewer references
    than can be counted. Of two ticks that there is
    room for, the later one comes to no fewer seconds, whatever is set between them and whatever a tick is.
    The events of each track and the events that are played, from where the cursors stand or from the
    start, have times in seconds that never go back; and no event is behind the end of the song. -/
theorem session_seconds_never_back [LawfulClock S] [Workers] (mode : Mode) (commands : List (Command S))
    (few : Workspace.acquisitions mode commands < 0xFFFFFFFF) (member : song ∈ (Workspace.session mode commands).songs) :
    (∀ p q, p ≤ q → q ≤ greatestTick → AtMost (song.secondsAt p) (song.secondsAt q)) ∧
      (∀ track ∈ song.tracks, OnTime track.events) ∧
      (∀ count, OnTime (song.play count).1 ∧ OnTime (song.rewind.play count).1) ∧
      ∀ event ∈ song.events, ∃ seconds, event.seconds? = some seconds ∧ AtMost seconds song.length := by
  have lawful := session_lawful few member
  have timed := session_timed few member
  have sound := session_sound mode commands member
  have aligned := (Workspace.session_keeps (lasting_aligned mode) commands).songs song member
  refine ⟨fun p q => secondsAt_mono lawful, ?_, ?_, ?_⟩
  · intro track among
    refine onTime_of_sorted lawful timed sound ?_ (Track.sorted_events (sound.inOrder track among).regular)
    exact fun event inside => List.mem_flatMap.mpr ⟨track, among, inside⟩
  · intro count
    refine ⟨onTime_play lawful timed sound aligned count, ?_⟩
    have again : song.rewind.tempoMap.Lawful song.rewind.division := lawful
    exact onTime_play again timed.rewind sound.rewind (aligned_rewind song) count
  · exact fun event inside => ⟨_, timed.seconds?_eq inside, atMost_length lawful timed sound inside⟩

/-- Two tracks on exact fractions: a time signature and a tempo in the one, notes around them in the other. -/
private def slowedCommands : List (Command Rat) :=
  [.create, .change 0 (.setFormat .simultaneous), .change 0 (.addTrack .new), .change 0 (.addTrack .new),
    .change 0 (.addEvent 0 (.new (.bytes [0xFF, 0x58, 4, 3, 2, 24, 8])) (.tick 60)),
    .change 0 (.addEvent 0 (.new (.tempo 1000000)) (.tick 120)),
    .change 0 (.addEvent 1 (.new (.bytes [0x90, 60, 64])) (.tick 30)),
    .change 0 (.addEvent 1 (.new (.bytes [0x80, 60, 64])) (.tick 240))]

theorem session_seconds_never_back_slowed :
    Workspace.acquisitions .strict slowedCommands < 0xFFFFFFFF ∧ ∃ song ∈ (Workspace.session .strict slowedCommands).songs,
      (song.rewind.play 4).1.map Event.seconds? = [some (1 / 8), some (1 / 4), some (1 / 2), some (3 / 2)] ∧
        OnTime (song.rewind.play 4).1 ∧ song.length = 3 / 2 ∧ AtMost (song.secondsAt 100) (song.secondsAt 200) := by
  have few : Workspace.acquisitions .strict slowedCommands < 0xFFFFFFFF := by decide
  obtain ⟨song, songs, played, ends⟩ : ∃ song, (Workspace.session .strict slowedCommands).songs = [song] ∧
      (song.rewind.play 4).1.map Event.seconds? = [some (1 / 8), some (1 / 4), some (1 / 2), some (3 / 2)] ∧
      song.length = 3 / 2 := ⟨_, rfl, by decide +kernel, by decide +kernel⟩
  have member : song ∈ (Workspace.session .strict slowedCommands).songs := songs ▸ List.mem_singleton_self song
  obtain ⟨seconds, _, onTime, _⟩ := session_seconds_never_back .strict slowedCommands few member
  exact ⟨few, song, member, played, (onTime 4).2, ends, seconds 100 200 (by decide) (by decide)⟩

end Song

end MidiFile
