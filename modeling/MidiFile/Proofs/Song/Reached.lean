import MidiFile.Proofs.Song.Sound
import MidiFile.Proofs.TempoMap.Reached

/-!
The tempo map of every song of every session is one that songs can get to have (`Song.session_reached`),
whatever is counted. Songs stay sound on the way, so that no operation on the map has a division that
is none or a tick that there is no room for.
-/

namespace MidiFile.Song

open TempoMap (Reached)

variable {S : Type} [Clock S] {song after : Song S}

theorem Sound.reached_addTrack {track : Track S} {number : Nat} (sound : song.Sound) (reached : song.tempoMap.Reached)
    (inOrder : InOrder 0 0 track.events) (done : Song.addTrack track song = .ok number after) : after.tempoMap.Reached := by
  obtain ⟨placed, retimed, _, rfl⟩ := addTrack_ok done
  have placedInOrder := Track.inOrder_retime (Track.inOrder_attach inOrder _) retimed
  exact (reached.registerAll sound.division placedInOrder.within).counted _

theorem reached_withDivision {division : Division} (reached : song.tempoMap.Reached) (valid : division.Valid) :
    (song.withDivision division).tempoMap.Reached := (reached.resolved valid).counted _

theorem Sound.reached_refresh (sound : song.Sound) (reached : song.tempoMap.Reached) : song.refresh.tempoMap.Reached :=
  (reached.resolved sound.division).counted _

theorem Sound.reached_steady {message : Message → Prop} (sound : song.Sound) (reached : song.tempoMap.Reached)
    (step : SteadyStep (fun track => InOrder 0 0 track.events) message song after) : after.tempoMap.Reached := by
  cases step with
  | formatted done =>
    obtain ⟨_, rfl⟩ := setFormat_ok done
    exact reached
  | metrical done =>
    obtain ⟨_, nonzero, rfl⟩ := setTicksPerQuarter_ok done
    exact reached_withDivision reached nonzero
  | timecode done =>
    obtain ⟨nonzero, rfl⟩ := setTimecode_ok done
    exact reached_withDivision reached nonzero
  | trackAdded inOrder done => exact sound.reached_addTrack reached inOrder done
  | trackRemoved done =>
    obtain ⟨_, _, _, rfl⟩ := removeTrack_ok done
    exact reached.counted _
  | eventAdded _ done =>
    obtain ⟨_, _, _, within, _, rfl⟩ := addEvent_ok done
    exact (reached.registered sound.division within _).counted _
  | eventRemoved done =>
    obtain ⟨_, _, _, _, rfl⟩ := removeEvent_ok done
    exact reached.counted _
  | refreshed => exact sound.reached_refresh reached
  | stored enough => exact reached
  | rewound => exact reached
  | played done =>
    obtain ⟨_, _, _, _, _, _, rfl⟩ := next?_some done
    exact reached
  | stood position? => exact reached

theorem Sound.reached_releaseTempo {handle : Handle} {entry : Entry S} (sound : song.Sound)
    (reached : song.tempoMap.Reached) (done : Song.releaseTempo handle song = some (entry, after)) :
    after.tempoMap.Reached := by
  obtain ⟨tempoMap, released, rfl⟩ := releaseTempo_ok done
  have left := reached.released sound.division released
  split
  · exact left
  · exact left.counted _

theorem reached_ofTracks (identity : Nat) {header : Header} (warnings : List Warning) {tracks : List (Track S)}
    (valid : header.division.Valid) (inOrder : ∀ track ∈ tracks, InOrder 0 0 track.events) :
    (ofTracks identity header warnings tracks).tempoMap.Reached := by
  refine (Reached.registerAll (.empty identity) valid ?_).counted _
  intro event member
  obtain ⟨track, among, inside⟩ := List.mem_flatMap.mp member
  obtain ⟨place, bound, rfl⟩ := List.mem_mapIdx.mp among
  exact (Track.inOrder_attach (inOrder _ (List.getElem_mem bound)) _).within event inside

section
variable [Workers]

theorem reached_read {mode : Mode} {identity : Nat} {bytes : List UInt8} (done : (read mode identity bytes).result = .ok song) :
    song.tempoMap.Reached := by
  obtain ⟨_, outline, bodies, _, outlined, bodiesRead, rfl⟩ := read_ok_iff.mp done
  refine reached_ofTracks identity _ (storable_outline outlined).1 ?_
  intro track member
  obtain ⟨body, bodyMember, rfl⟩ := List.mem_map.mp member
  obtain ⟨bytes, _, read⟩ := exists_of_mem_right bodiesRead bodyMember
  exact (Body.of_read read).1

theorem lasting_reached (mode : Mode) : Lasting (S := S) mode (fun _ song => song.Sound ∧ song.tempoMap.Reached)
    (fun track => InOrder 0 0 track.events) Message.WellFormed where
  empty count identity := ⟨(lasting_sound mode).empty count identity, .empty identity⟩
  read _ _ _ _ result := ⟨sound_read result, reached_read result⟩
  copy count identity song kept := ⟨(lasting_sound mode).copy count identity song kept.1, kept.2.copied identity⟩
  later _ _ kept := kept
  steady count song after kept step :=
    ⟨(lasting_sound mode).steady count song after kept.1 step, kept.1.reached_steady kept.2 step⟩
  held _ _ _ _ kept done := by
    obtain ⟨_, acquired, same⟩ := holdLastTempo_ok done
    exact ⟨kept.1.holdLastTempo done, same ▸ kept.2.acquired acquired⟩
  released _ _ _ _ _ kept done := ⟨kept.1.releaseTempo done, kept.1.reached_releaseTempo kept.2 done⟩
  blank := (lasting_sound (S := S) mode).blank
  tracks count song kept := (lasting_sound mode).tracks count song kept.1
  removed count song number part after kept := (lasting_sound mode).removed count song number part after kept.1
  drafts := (lasting_sound (S := S) mode).drafts
  messages count song kept := (lasting_sound mode).messages count song kept.1

/-- The tempo map of every song of every session is one that songs can get to have. -/
theorem session_reached (mode : Mode) (commands : List (Command S)) (member : song ∈ (Workspace.session mode commands).songs) :
    song.tempoMap.Reached :=
  ((Workspace.session_keeps (lasting_reached mode) commands).songs song member).2

end

end MidiFile.Song
