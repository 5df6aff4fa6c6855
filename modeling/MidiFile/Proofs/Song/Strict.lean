import MidiFile.Proofs.Song.File

/-! # What a strict reader accepts

A strict reader drops the running status behind a meta or system exclusive message, where a lenient
one lets it run on, so the two go through the same bytes in different states. What holds them
together is that the lenient reader has a running status wherever the strict one has, and the same
one (`RunsOn`): every event that the strict reader accepts is written in the same way for the lenient
one. So a body in the strict grammar is in the lenient one, with the same items
(`Body.Parse.lenient`), and a file that the strict reader accepts is the same song to the lenient one.
-/

namespace MidiFile

variable {S : Type}

/-- What a message leaves as the running status for a strict reader, it leaves for a lenient one. -/
theorem runsOn_leaves_strict (message : Message) (strict? lenient? : Option UInt8) :
    RunsOn (message.leaves .strict strict?) (message.leaves .lenient lenient?) := by
  cases message with
  | voice status data => exact fun _ same => same
  | metadata kind field => exact runsOn_none _
  | sysex payload => exact runsOn_none _
  | escape payload => exact runsOn_none _

namespace Item

theorem Written.runsOn {strict? lenient? : Option UInt8} {item : Item} (written : item.Written strict?)
    (runs : RunsOn strict? lenient?) : item.Written lenient? := by
  cases written with
  | stated isForm spelled => exact .stated isForm spelled
  | running isForm spelled here => exact .running isForm spelled (runs _ here)

theorem IsRow.lenient {strict? lenient? : Option UInt8} {items : List Item} (row : IsRow .strict strict? items)
    (runs : RunsOn strict? lenient?) : IsRow .lenient lenient? items := by
  induction items generalizing strict? lenient? with
  | nil => trivial
  | cons item rest ih => exact ⟨row.1.runsOn runs, ih row.2 (runsOn_leaves_strict item.message _ _)⟩

end Item

namespace Body

theorem Parse.lenient {raw rest : List UInt8} {items : List Item} (parse : Parse .strict raw items rest) :
    Parse .lenient raw items rest := by
  refine ⟨parse.whole, parse.row.lenient (runsOn_none none), parse.within, parse.open_, ?_⟩
  obtain ⟨isEnd, _⟩ | ⟨isLenient, _⟩ := parse.ends
  · exact .inl ⟨isEnd, nofun⟩
  · cases isLenient

theorem read_lenient {raw : List UInt8} {body : Body S} (done : Body.read .strict raw = .ok body) :
    Body.read .lenient raw = .ok body := by
  obtain ⟨items, rest, parse, made⟩ := read_ok_iff.mp done
  exact read_ok_iff.mpr ⟨items, rest, parse.lenient, made⟩

end Body

namespace Outline

theorem readExtra_lenient {extra : Nat} {warnings : List Warning}
    (done : (readExtra .strict extra : Report S (List Warning)).result = .ok warnings) :
    (readExtra .lenient extra : Report S (List Warning)).result = .ok warnings := by
  by_cases none : extra = 0
  · simp only [readExtra, if_pos none] at done ⊢
    exact done
  · simp only [readExtra, if_neg none] at done
    cases done

theorem ofChunks_lenient {found : Chunks} {outline : Outline}
    (done : (ofChunks .strict found : Report S Outline).result = .ok outline) :
    (ofChunks .lenient found : Report S Outline).result = .ok outline := by
  rw [ofChunks] at done ⊢
  split at done
  · cases done
  · cases done
  · simp only [ofRest, Report.result_bind, bind_ok_iff] at done ⊢
    obtain ⟨_, allowed, _, noted, _, once, trailing, ending, _, enough, extra, surplus, made⟩ := done
    exact ⟨_, allowed, _, noted, _, once, trailing, ending, _, enough, extra, readExtra_lenient surplus, made⟩
  · cases done

end Outline

namespace Song

variable [Clock S]

/-- A file that a strict reader accepts is accepted by a lenient one, as the same song in every respect. -/
theorem read_lenient_of_strict [Workers] (identity : Nat) {bytes : List UInt8} {song : Song S}
    (done : (read .strict identity bytes).result = .ok song) : (read .lenient identity bytes).result = .ok song := by
  obtain ⟨file, outline, bodies, unwrapped, outlined, bodiesRead, made⟩ := read_ok_iff.mp done
  exact read_ok_iff.mpr ⟨file, outline, bodies, unwrapped, Outline.ofChunks_lenient outlined,
    bodiesRead.imp fun _ _ => Body.read_lenient, made⟩

/-- A note, a text behind which the note goes off with its status given anew, and the end of the track. -/
private def statedItems : List Item :=
  [⟨[0, 0x90, 60, 64], 0, .voice 0x90 [60, 64]⟩, ⟨[0, 0xFF, 1, 0], 0, .metadata 1 [0]⟩,
    ⟨[96, 0x90, 60, 0], 96, .voice 0x90 [60, 0]⟩, ⟨[0, 0xFF, 0x2F, 0], 0, .metadata 0x2F [0]⟩]

private def statedHeader : Header := ⟨.single, .timecode .video 40⟩

theorem read_lenient_of_strict_stated :
    ∃ song : Song Float, song.events.length = 4 ∧
      (read .strict 0 (fileOf statedHeader [statedItems.flatMap (·.bytes)])).result = .ok song ∧
      (read .lenient 0 (fileOf statedHeader [statedItems.flatMap (·.bytes)])).result = .ok song := by
  have zero : Vlq.IsForm [0] := Vlq.isForm_byte (by decide)
  have row : Item.IsRow .strict none statedItems :=
    ⟨.stated zero (.voice rfl rfl (by simp)), .stated zero (.metadata zero rfl),
      .stated (Vlq.isForm_byte (by decide)) (.voice rfl rfl (by simp)), .stated zero (.metadata zero rfl), trivial⟩
  have parse : Body.Parse .strict (statedItems.flatMap (·.bytes)) statedItems [] :=
    ⟨rfl, row, by decide, by decide, .inl ⟨⟨_, rfl, rfl⟩, fun _ => rfl⟩⟩
  have valid : statedHeader.division.Valid := show (40 : UInt8) ≠ 0 by decide
  have outlined := outline_fileOf (S := Float) .strict valid (fun _ => rfl) (by decide)
    (by decide : ∀ body ∈ [statedItems.flatMap (·.bytes)], body.length < 0x100000000)
  have strict : (read .strict 0 (fileOf statedHeader [statedItems.flatMap (·.bytes)])).result = .ok (ofBodies 0 _ _) :=
    read_ok_iff.mpr ⟨_, _, _, Rmid.unwrap_header _ _, outlined, .cons (Body.read_ok_iff.mpr ⟨_, _, parse, rfl⟩) .nil, rfl⟩
  exact ⟨_, rfl, strict, read_lenient_of_strict 0 strict⟩

end Song

end MidiFile
