import MidiFile.Proofs.Song.Saved

/-! # What a refused call leaves behind

An edit that is refused leaves the song as it was (`Song.Atomic`). Storing is the one call that
works on the song before it can be refused: a song whose header has no room for its tracks is left
as it was, but one whose tracks cannot be written has been closed by then (`Song.LeftClosed`). As
there is nothing to close in a closed song, the call is refused for the same fault ever after and
does nothing more (`encode_refused`).
-/

namespace MidiFile.Song

variable {S : Type} [Clock S] {song after : Song S} {fault : Fault}

/-- The song with the ends that its tracks lacked. These tracks have their cursors back at the
    start, and the tempo map has counted the events anew; nothing else differs. -/
structure LeftClosed (song after : Song S) : Prop where
  tracks : after.tracks = song.tracks.map song.closed
  rest : after = { song with
    tracks := after.tracks
    tempoMap := song.tempoMap.recount (after.events.filterMap Event.source?) }

/-- What a song is refused to be stored for, and what is left of it. -/
inductive Refused (song : Song S) : Fault → Song S → Prop
  /-- The single-track format has exactly one track. -/
  | alone (format : song.format = .single) (notOne : song.tracks.length ≠ 1) :
    Refused song (.misuse .singleTrackCount) song
  /-- A header has two bytes for the count of tracks. -/
  | crowded (single : song.format = .single → song.tracks.length = 1) (many : 65535 < song.tracks.length) :
    Refused song (.misuse .trackCountRange) song
  /-- A track with its end cannot be written. -/
  | unwritten {fault : Fault} {after : Song S} (single : song.format = .single → song.tracks.length = 1)
    (count : song.tracks.length ≤ 65535) (left : song.LeftClosed after)
    (refused : ∃ track ∈ after.tracks, track.encode = .error fault) : Refused song fault after

theorem leftClosed_close (sound : song.Sound) (timed : song.Timed) : song.LeftClosed song.close :=
  ⟨tracks_close sound timed, rfl⟩

/-- A song is refused to be stored for what its header or one of its tracks is. -/
theorem refused_of_encode [Workers] (sound : song.Sound) (timed : song.Timed) (failed : encode song = .error fault after) :
    song.Refused fault after := by
  rcases timed.encode_error_cases sound failed with
    ⟨⟨format, notOne⟩, rfl, rfl⟩ | ⟨single, ⟨many, rfl, rfl⟩ | ⟨count, refused, rfl⟩⟩
  · exact .alone format notOne
  · exact .crowded single (by omega)
  · obtain ⟨track, member, same⟩ := List.mem_map.mp (Workers.mem_of_collect refused)
    exact .unwritten single (by omega) (leftClosed_close sound timed) ⟨track, member, same⟩

/-- A sound song that was refused once is refused for the same fault again, and nothing more is done to it. -/
theorem encode_refused [Workers] (sound : song.Sound) (failed : encode song = .error fault after) :
    encode after = .error fault after := by
  rcases encode_error_cases failed with ⟨_, _, rfl⟩ | ⟨single, ⟨_, _, rfl⟩ | ⟨count, halfway | ⟨closing, refused⟩⟩⟩
  · exact failed
  · exact failed
  · obtain ⟨closed, closing, _⟩ := sound.endTracks
    cases closing.symm.trans halfway
  · obtain ⟨closed, closingToo, ended⟩ := sound.endTracks
    cases closing.symm.trans closingToo
    have format : after.format = song.format := congrArg Header.format ended.header
    rw [encode_of_ended (fun alone => ended.length.trans (single (format ▸ alone))) (ended.length ▸ count)
      (endTracks_of_ended (ended.ends sound)), refused]

/-- Whatever was done in a session, an edit that is refused leaves the song as it was. So does storing
    it, unless it fails for a track that cannot be written: then the song has been closed, if fewer
    references were taken than can be counted. Storing it once more fails for the same fault in any case,
    and leaves it at that. -/
theorem session_refusals [Workers] (mode : Mode) (commands : List (Command S)) {song : Song S}
    (member : song ∈ (Workspace.session mode commands).songs) :
    ((∀ format, Atomic (setFormat format : Edit S Unit)) ∧
      (∀ ticks, Atomic (setTicksPerQuarter ticks : Edit S Unit)) ∧
      (∀ rate resolution, Atomic (setTimecode rate resolution : Edit S Unit)) ∧
      (∀ track : Track S, Atomic (addTrack track)) ∧
      (∀ number, Atomic (removeTrack number : Edit S (Track S))) ∧
      (∀ number message (moment : Moment S), Atomic (Outcome.addMessage number message moment)) ∧
      ∀ number place, Atomic (removeEvent number place : Edit S (Event S))) ∧
      ∀ fault after, encode song = .error fault after →
        (Workspace.acquisitions mode commands < 0xFFFFFFFF → song.Refused fault after) ∧
          encode after = .error fault after := by
  have sound := session_sound mode commands member
  refine ⟨⟨atomic_setFormat, atomic_setTicksPerQuarter, atomic_setTimecode, atomic_addTrack, atomic_removeTrack,
    atomic_addMessage, atomic_removeEvent⟩, ?_⟩
  intro fault after failed
  exact ⟨fun few => refused_of_encode sound (session_timed few member) failed, encode_refused sound failed⟩

/-- A note that comes later than any delta time can say, on a track without an end. -/
private def farCommands : List (Command Float) :=
  [.create, .change 0 (.addTrack .new), .change 0 (.addEvent 0 (.new (.bytes [0x90, 60, 64])) (.tick 0x10000000))]

theorem session_refusals_far_note :
    ∃ song ∈ (Workspace.session .strict farCommands).songs, ∃ after,
      encode song = .error (.misuse .deltaRange) after ∧ song.Refused (.misuse .deltaRange) after ∧
        encode after = .error (.misuse .deltaRange) after ∧
        (song.events.map (·.message), after.events.map (·.message)) =
          ([.voice 0x90 [60, 64]], [.voice 0x90 [60, 64], Message.endOfTrack]) := by
  obtain ⟨song, after, songs, failed, messages⟩ :
      ∃ song after, (Workspace.session .strict farCommands).songs = [song] ∧
        encode song = .error (.misuse .deltaRange) after ∧
        (song.events.map (·.message), after.events.map (·.message)) =
          ([.voice 0x90 [60, 64]], [.voice 0x90 [60, 64], Message.endOfTrack]) := ⟨_, _, rfl, rfl, rfl⟩
  have member : song ∈ (Workspace.session .strict farCommands).songs := songs ▸ List.mem_singleton_self song
  obtain ⟨refused, again⟩ := (session_refusals .strict farCommands member).2 _ after failed
  exact ⟨song, member, after, failed, refused (by decide), again, messages⟩

end MidiFile.Song
