import MidiFile.Proofs.Song.References
import MidiFile.Proofs.Song.Times
import MidiFile.Proofs.TempoMap.Ledger
import Mathlib.Data.List.Induction

/-! # Ledgers of a session

Beside the songs of a session runs a ledger for each of them (`Workspace.books`). What goes into it is
what the answers tell: a reference was given out for an entry, or a handle was taken back. New
entries get their accounts behind each command, and the ledger of a copy begins with the references
that were copied. What a command has to do with references comes down to one of four things
(`Booked`), and each of them keeps all ledgers balanced (`session_balances`), the identities of the
maps apart (`session_identities`) and the numbers gone that are gone (`session_succeeds`).
-/

namespace MidiFile

variable {S : Type} [Clock S]

open TempoMap (Grown Counted Succeeds)

/-- Open accounts for all that is new in the songs. Songs behind the last ledger are new. -/
def Ledger.openAll : List (Song S) → List Ledger → List Ledger
  | [], _ => []
  | song :: songs, ledgers => (ledgers.headD .blank).openedFor song.tempoMap :: openAll songs ledgers.tail

namespace Workspace

/-- The ledgers with what a command has to do with references. -/
def booked (workspace : Workspace S) (ledgers : List Ledger) : Booking → List Ledger
  | .nothing => ledgers
  | .acquired number id => ledgers.modify number (·.enter id Account.acquire)
  | .released number id => ledgers.modify number (·.enter id Account.release)
  | .copied number => ledgers ++ (workspace.songs[number]?.map fun song => Ledger.copied song.tempoMap).toList

section
variable [Workers]

/-- The ledgers behind a command. -/
def booksAfter (mode : Mode) (workspace : Workspace S) (command : Command S) (ledgers : List Ledger) : List Ledger :=
  Ledger.openAll (workspace.after mode command).songs (workspace.booked ledgers (workspace.booking mode command))

/-- The ledgers of a session. -/
def books (mode : Mode) (commands : List (Command S)) : List Ledger := beside mode (booksAfter mode) [] commands

end

end Workspace

namespace Workspace

/-- What a command does to the songs as far as references matter: all grow at most and one may be
    new, one gives out a reference or takes one back, or one is copied. -/
inductive Booked (workspace after : Workspace S) : Booking → Prop
  | nothing {changed : List (Song S)} (new? : Option (Song S)) (songs : after.songs = changed ++ new?.toList)
    (old : List.Forall₂ (fun song after => Grown song.tempoMap after.tempoMap) workspace.songs changed)
    (fresh : ∀ song ∈ new?, Grown (TempoMap.empty workspace.nextIdentity) song.tempoMap)
    (next : after.nextIdentity = workspace.nextIdentity + new?.toList.length) : Booked workspace after .nothing
  | acquired {number id count : Nat} {song held : Song S} (here : workspace.songs[number]? = some song)
    (before : song.tempoMap.references? id = some count)
    (counted : Counted id (some (count + 1)) song.tempoMap held.tempoMap)
    (songs : after.songs = workspace.songs.set number held) (next : after.nextIdentity = workspace.nextIdentity) :
    Booked workspace after (.acquired number id)
  | released {number id count : Nat} {song left : Song S} (here : workspace.songs[number]? = some song)
    (before : song.tempoMap.references? id = some count)
    (counted : Counted id (if count ≤ 1 then none else some (count - 1)) song.tempoMap left.tempoMap)
    (songs : after.songs = workspace.songs.set number left) (next : after.nextIdentity = workspace.nextIdentity) :
    Booked workspace after (.released number id)
  | copied {number : Nat} {song : Song S} (here : workspace.songs[number]? = some song)
    (songs : after.songs = workspace.songs ++ [song.copy workspace.nextIdentity])
    (next : after.nextIdentity = workspace.nextIdentity + 1) : Booked workspace after (.copied number)

variable {mode : Mode} {workspace : Workspace S}

omit [Clock S] in
theorem booked_same {after : Workspace S} (songs : after.songs = workspace.songs)
    (next : after.nextIdentity = workspace.nextIdentity) : Booked workspace after .nothing :=
  .nothing none (songs.trans (List.append_nil _).symm) (List.forall₂_same.mpr fun _ _ => .refl _) (by simp) next

omit [Clock S] in
theorem booked_put {number : Nat} {song : Song S} {outcome : Outcome S} (here : workspace.songs[number]? = some song)
    (grown : Grown song.tempoMap outcome.song.tempoMap) : Booked workspace (workspace.put number outcome) .nothing := by
  refine .nothing none ?_ (forall₂_set (fun _ => .refl _) here grown) (by simp) ?_
  · rw [songs_put, Option.toList_none, List.append_nil]
  · exact nextIdentity_put workspace number outcome

omit [Clock S] in
theorem booked_takeRead {changed : Workspace S} {report : Report S (Song S)}
    (old : List.Forall₂ (fun song after => Grown song.tempoMap after.tempoMap) workspace.songs changed.songs)
    (next : changed.nextIdentity = workspace.nextIdentity)
    (fresh : ∀ song, report.result = .ok song → Grown (TempoMap.empty workspace.nextIdentity) song.tempoMap) :
    Booked workspace (changed.takeRead report).2 .nothing := by
  cases result : report.result with
  | error fault =>
    simp only [takeRead, result]
    exact .nothing none (List.append_nil _).symm old (by simp) next
  | ok song =>
    simp only [takeRead, result]
    exact .nothing (some song) rfl old (by simpa using fresh song result) (congrArg (· + 1) next)

section
variable [Workers]

/-- A change that is not about references lets the tempo map of its song grow at most. -/
theorem booked_steady {number : Nat} {song : Song S} (timed : song.Timed) (here : workspace.songs[number]? = some song)
    {change : Change S} (held : change ≠ .holdLastTempo) (released : ∀ place, change ≠ .releaseTempo place) :
    Booked workspace (workspace.after mode (.change number change))
      (workspace.booking mode (.change number change)) := by
  have nothing : workspace.booking mode (.change number change) = .nothing := by
    cases change with
    | holdLastTempo => exact absurd rfl held
    | releaseTempo place => exact absurd rfl (released place)
    | _ => rfl
  rw [nothing]
  simp only [after, run, here, Option.bind_some]
  cases made : change.run workspace song with
  | none => exact booked_same rfl rfl
  | some outcome =>
    have steady : Song.SteadySteps (fun _ => True) (fun _ => True) song outcome.song :=
      Song.steady_run trivial (fun _ _ _ _ => trivial) (fun _ _ _ _ _ _ => trivial) held released made
    exact booked_put here (steady.grown timed).1

theorem booked_holdLastTempo {count number : Nat} {song : Song S} (timed : song.Timed) (bound : song.HeldAtMost count)
    (here : workspace.songs[number]? = some song)
    (few : count + (workspace.booking mode (.change number .holdLastTempo)).acquisitions < 0xFFFFFFFF) :
    Booked workspace (workspace.after mode (.change number .holdLastTempo))
      (workspace.booking mode (.change number .holdLastTempo)) := by
  have room {entry : Entry S} {held : Song S} (done : song.holdLastTempo = some (entry, held)) := bound.room here few done
  simp only [after, booking, answer?, run, here, Option.bind_some, Change.run, Option.map_some, Option.elim_some]
  rcases done : song.holdLastTempo with _ | ⟨entry, held⟩
  · simp only [Outcome.holdLastTempo, done]
    exact booked_put here (.refl _)
  · simp only [Outcome.holdLastTempo, done]
    obtain ⟨references, before, counted⟩ := Song.counted_holdLastTempo timed.ordered (room done) done
    refine .acquired here before counted ?_ ?_
    · rw [songs_put]
    · rw [nextIdentity_put]

theorem booked_releaseTempo {number place : Nat} {song : Song S} (ordered : song.tempoMap.Ordered)
    (here : workspace.songs[number]? = some song) :
    Booked workspace (workspace.after mode (.change number (.releaseTempo place)))
      (workspace.booking mode (.change number (.releaseTempo place))) := by
  simp only [after, booking, answer?, run, here, Option.bind_some, Change.run]
  cases named : workspace.handles[place]? with
  | none => exact booked_same rfl rfl
  | some handle =>
    simp only [Option.map_some, Option.elim_some]
    rcases done : song.releaseTempo handle with _ | ⟨entry, released⟩
    · simp only [Outcome.releaseTempo, done]
      exact booked_put here (.refl _)
    · simp only [Outcome.releaseTempo, done, named, Option.elim_some]
      obtain ⟨count, before, counted⟩ := Song.counted_releaseTempo ordered done
      refine .released here before counted ?_ ?_
      · rw [songs_put]
      · rw [nextIdentity_put]

theorem booked_encodeAndRead {number : Nat} {song : Song S} (timed : song.Timed)
    (here : workspace.songs[number]? = some song) :
    Booked workspace (workspace.encodeAndRead mode number song).2 .nothing := by
  have old {encoded : Song S} (steady : Song.SteadySteps (fun _ => True) (fun _ => True) song encoded) :
      List.Forall₂ (fun song after => Grown song.tempoMap after.tempoMap) workspace.songs
        (workspace.songs.set number encoded) := forall₂_set (fun _ => .refl _) here (steady.grown timed).1
  cases made : Song.encode song with
  | error fault closed =>
    simp only [encodeAndRead, made]
    exact .nothing none (List.append_nil _).symm (old (Song.steady_encode_error trivial made)) (by simp) rfl
  | ok bytes encoded =>
    simp only [encodeAndRead, made]
    exact booked_takeRead (old (Song.steady_encode_ok trivial made)) rfl fun _ => Song.grown_read

/-- Whatever a command does to the songs is one of four things, as its answer tells. -/
theorem booked_after {count : Nat} (timed : ∀ song ∈ workspace.songs, song.Timed ∧ song.HeldAtMost count)
    (command : Command S) (few : count + (workspace.booking mode command).acquisitions < 0xFFFFFFFF) :
    Booked workspace (workspace.after mode command) (workspace.booking mode command) := by
  cases command with
  | create => exact .nothing (some _) rfl (List.forall₂_same.mpr fun _ _ => .refl _) (by simpa using .refl _) rfl
  | read bytes => exact booked_takeRead (List.forall₂_same.mpr fun _ _ => .refl _) rfl fun _ => Song.grown_read
  | load folder name =>
    refine booked_takeRead (List.forall₂_same.mpr fun _ _ => .refl _) rfl ?_
    intro song result
    obtain ⟨_, _, result⟩ := Song.load_ok result
    exact Song.grown_read result
  | copy number =>
    simp only [after, booking, answer?, run]
    cases here : workspace.songs[number]? with
    | none => exact booked_same rfl rfl
    | some song => exact .copied here rfl rfl
  | encodeAndRead number =>
    simp only [after, booking, run]
    cases here : workspace.songs[number]? with
    | none => exact booked_same rfl rfl
    | some song => exact booked_encodeAndRead (timed song (List.mem_of_getElem? here)).1 here
  | handleAt number place =>
    simp only [after, booking, run]
    cases workspace.songs[number]? with
    | none => exact booked_same rfl rfl
    | some song =>
      simp only [Option.map_some, Option.elim_some, handleAt]
      split <;> exact booked_same rfl rfl
  | change number change =>
    cases here : workspace.songs[number]? with
    | none =>
      have absent : workspace.run mode (.change number change) = none := by rw [run, here, Option.bind_none]
      have nothing : workspace.booking mode (.change number change) = .nothing := by
        unfold booking answer?
        rw [absent, Option.map_none]
        split <;> simp_all
      rw [nothing, after, absent]
      exact booked_same rfl rfl
    | some song =>
      obtain ⟨now, bound⟩ := timed song (List.mem_of_getElem? here)
      cases change with
      | holdLastTempo => exact booked_holdLastTempo now bound here few
      | releaseTempo place => exact booked_releaseTempo now.ordered here
      | _ => exact booked_steady now here (by simp) (by simp)

end

omit [Clock S] in
/-- Every song comes from the one that was at its place, and at most one is new, with the next
    identity. -/
theorem Booked.exists_succession {after : Workspace S} {booking : Booking} (booked : Booked workspace after booking) :
    ∃ (changed : List (Song S)) (new? : Option (Song S)), after.songs = changed ++ new?.toList ∧
      List.Forall₂ (fun song after => Succeeds song.tempoMap after.tempoMap) workspace.songs changed ∧
      (∀ song ∈ new?, song.tempoMap.identity = workspace.nextIdentity) ∧
      after.nextIdentity = workspace.nextIdentity + new?.toList.length := by
  cases booked with
  | nothing new? songs old fresh next =>
    exact ⟨_, new?, songs, old.imp fun _ _ => Grown.succeeds, fun song new => (fresh song new).identity, next⟩
  | acquired here before counted songs next =>
    exact ⟨_, none, songs.trans (List.append_nil _).symm,
      forall₂_set (fun _ => .refl _) here (counted.succeeds before), by simp, next⟩
  | released here before counted songs next =>
    exact ⟨_, none, songs.trans (List.append_nil _).symm,
      forall₂_set (fun _ => .refl _) here (counted.succeeds before), by simp, next⟩
  | copied here songs next =>
    exact ⟨_, some _, songs, List.forall₂_same.mpr fun _ _ => .refl _, by simp [Song.copy], next⟩

omit [Clock S] in
theorem forall₂_openAll {related : Song S → Ledger → Prop} {songs : List (Song S)} {ledgers : List Ledger}
    (new : List (Song S))
    (old : List.Forall₂ (fun song ledger => related song (ledger.openedFor song.tempoMap)) songs ledgers)
    (fresh : ∀ song ∈ new, related song (Ledger.blank.openedFor song.tempoMap)) :
    List.Forall₂ related (songs ++ new) (Ledger.openAll (songs ++ new) ledgers) := by
  induction old with
  | nil =>
    induction new with
    | nil => exact .nil
    | cons song new ih =>
      obtain ⟨first, others⟩ := List.forall_mem_cons.mp fresh
      exact .cons first (ih others)
  | cons first rest ih => exact .cons first ih

/-- The ledgers of songs balance. -/
abbrev BalanceAll (most : Nat) (songs : List (Song S)) (ledgers : List Ledger) : Prop :=
  List.Forall₂ (fun song ledger => Balances most song.tempoMap ledger) songs ledgers

omit [Clock S] in
theorem balanceAll_openAll {most : Nat} (room : 0 < most) {songs : List (Song S)} {ledgers : List Ledger}
    (balances : BalanceAll most songs ledgers) : BalanceAll most songs (Ledger.openAll songs ledgers) := by
  have opened := forall₂_openAll [] (balances.imp fun _ _ balances => balances.grown room (.refl _)) (List.forall_mem_nil _)
  rwa [List.append_nil] at opened

omit [Clock S] in
theorem balanceAll_booked {count : Nat} {after : Workspace S} {booking : Booking}
    (booked : Booked workspace after booking) {ledgers : List Ledger}
    (balances : BalanceAll (count + 1) workspace.songs ledgers) :
    BalanceAll (count + booking.acquisitions + 1) after.songs
      (Ledger.openAll after.songs (workspace.booked ledgers booking)) := by
  cases booked with
  | nothing new? songs old fresh next =>
    rw [songs]
    refine forall₂_openAll _ ?_ ?_
    · exact forall₂_join old balances fun _ _ _ grown balances => balances.grown (Nat.succ_pos _) grown
    · intro song new
      exact (balances_blank _ _).grown (Nat.succ_pos _) (fresh song (Option.mem_toList.mp new))
  | acquired here before counted songs next =>
    rw [songs]
    refine balanceAll_openAll (Nat.succ_pos _) ?_
    exact forall₂_set_modify_imp balances (fun _ _ balances => balances.mono (Nat.le_succ _)) here
      fun ledger balances => balances.acquired before counted
  | released here before counted songs next =>
    rw [songs]
    refine balanceAll_openAll (Nat.succ_pos _) ?_
    exact forall₂_set_modify balances here fun ledger balances => balances.released before counted
  | copied here songs next =>
    rw [songs]
    refine balanceAll_openAll (Nat.succ_pos _) ?_
    simp only [Workspace.booked, here, Option.map_some, Option.toList_some]
    obtain ⟨ledger, _, balanced⟩ := exists_getElem?_right balances here
    exact List.rel_append balances (.cons (balanced.copied _) .nil)

/-! ## Sessions -/

section
variable [Workers]

theorem books_concat (mode : Mode) (commands : List (Command S)) (command : Command S) :
    books mode (commands ++ [command]) = booksAfter mode (session mode commands) command (books mode commands) :=
  beside_concat mode (booksAfter mode) [] commands command

theorem session_booked {mode : Mode} {commands : List (Command S)} {command : Command S}
    (few : acquisitions mode (commands ++ [command]) < 0xFFFFFFFF) :
    Booked (session mode commands) (session mode (commands ++ [command]))
      ((session mode commands).booking mode command) := by
  rw [acquisitions_concat] at few
  rw [session_concat]
  refine booked_after ?_ command few
  intro song member
  exact (session_keeps (Song.lasting_timed mode) commands).songs song member
    (Nat.lt_of_le_of_lt (Nat.le_add_right _ _) few)

theorem session_balances {mode : Mode} {commands : List (Command S)} (few : acquisitions mode commands < 0xFFFFFFFF) :
    BalanceAll (acquisitions mode commands + 1) (session mode commands).songs (books mode commands) := by
  induction commands using List.reverseRecOn with
  | nil => exact .nil
  | append_singleton commands command ih =>
    have balances := balanceAll_booked (session_booked few)
      (ih (Nat.lt_of_le_of_lt (acquisitions_le_append mode commands [command]) few))
    rw [books_concat, acquisitions_concat]
    rwa [session_concat] at balances ⊢

/-- The identity of each map is the place of its song. -/
theorem session_identities {mode : Mode} {commands : List (Command S)} (few : acquisitions mode commands < 0xFFFFFFFF) :
    (session mode commands).songs.map (·.tempoMap.identity) = List.range (session mode commands).nextIdentity := by
  induction commands using List.reverseRecOn with
  | nil => rfl
  | append_singleton commands command ih =>
    have before := ih (Nat.lt_of_le_of_lt (acquisitions_le_append mode commands [command]) few)
    obtain ⟨changed, new?, songs, old, fresh, next⟩ := (session_booked few).exists_succession
    have kept : changed.map (·.tempoMap.identity) = (session mode commands).songs.map (·.tempoMap.identity) :=
      map_eq_of_forall₂ (old.imp fun _ _ => Succeeds.identity)
    rw [songs, next, List.map_append, kept, before, List.range_add]
    cases new? with
    | none => simp
    | some song => simp [fresh song rfl]

theorem session_succeeds {mode : Mode} {commands later : List (Command S)}
    (few : acquisitions mode (commands ++ later) < 0xFFFFFFFF) {number : Nat} {song : Song S}
    (here : (session mode commands).songs[number]? = some song) :
    ∃ after, (session mode (commands ++ later)).songs[number]? = some after ∧
      Succeeds song.tempoMap after.tempoMap := by
  induction later using List.reverseRecOn with
  | nil => exact ⟨song, by rwa [List.append_nil], .refl _⟩
  | append_singleton later command ih =>
    rw [← List.append_assoc] at few ⊢
    obtain ⟨between, there, first⟩ := ih (Nat.lt_of_le_of_lt (acquisitions_le_append mode _ [command]) few)
    obtain ⟨changed, new?, songs, old, _, _⟩ := (session_booked few).exists_succession
    obtain ⟨after, found, second⟩ := exists_getElem?_right old there
    refine ⟨after, ?_, first.trans second⟩
    rw [songs, List.getElem?_append_left (List.getElem?_eq_some_iff.mp found).1, found]

theorem identity_eq {mode : Mode} {commands : List (Command S)} (few : acquisitions mode commands < 0xFFFFFFFF)
    {number : Nat} {song : Song S} (here : (session mode commands).songs[number]? = some song) : song.tempoMap.identity = number := by
  have listed := congrArg (·[number]?) (session_identities few)
  rw [List.getElem?_map, here, Option.map_some] at listed
  exact (List.getElem?_eq_some_iff.mp listed.symm).2.symm.trans (List.getElem_range _)

/-- The handle of an entry that is gone names no entry of any song ever again. -/
theorem session_gone {mode : Mode} {commands later : List (Command S)}
    (few : acquisitions mode (commands ++ later) < 0xFFFFFFFF) {number id : Nat} {song : Song S}
    (here : (session mode commands).songs[number]? = some song) (issued : id < song.tempoMap.nextId)
    (gone : song.tempoMap.references? id = none) {other : Song S}
    (member : other ∈ (session mode (commands ++ later)).songs) :
    other.tempoMap.find? ⟨song.tempoMap.identity, id⟩ = none := by
  have fewBefore := Nat.lt_of_le_of_lt (acquisitions_le_append mode commands later) few
  obtain ⟨place, there⟩ := List.mem_iff_getElem?.mp member
  rw [TempoMap.find?_eq_none_iff, identity_eq fewBefore here, identity_eq few there]
  by_cases same : number = place
  · obtain ⟨after, found, succeeds⟩ := session_succeeds few here
    rw [same, there] at found
    cases found
    exact .inr (succeeds.gone id issued gone)
  · exact .inl same

/-- In every session that takes fewer references than can be counted, the references to the tempo
    entries of each song are accounted for. An entry has those that its account was opened with, one
    or as many as were copied, and those that were taken since, without those that were given back,
    and it is there while any are left; there are never more than were taken in the whole session and
    the one of the map. Asking for the last entry answers with the entry in effect at the end of the
    song and takes a reference to it, if one more can be counted, and a handle gives one back exactly
    if it names an entry of this very song. Once all references are gone, the handle names no entry of
    any song ever again. -/
theorem session_references_accounted (mode : Mode) (commands : List (Command S))
    (few : acquisitions mode commands < 0xFFFFFFFF) :
    ((session mode commands).songs.map (·.tempoMap.identity)).Nodup ∧
      List.Forall₂ (fun song ledger =>
          ledger.AccountsFor song.tempoMap ∧
            (∀ entry ∈ song.tempoMap.entries, entry.references ≤ acquisitions mode commands + 1) ∧
            (acquisitions mode commands + 1 < 0xFFFFFFFF →
              ∀ place, Outcome.GaveOut place song (Outcome.holdLastTempo place song)) ∧
            (∀ handle, Outcome.GaveBack handle song (Outcome.releaseTempo handle song)) ∧
            ∀ id account, ledger id = some account → account.balance = 0 →
              ∀ later, acquisitions mode (commands ++ later) < 0xFFFFFFFF →
                ∀ other ∈ (session mode (commands ++ later)).songs,
                  other.tempoMap.find? ⟨song.tempoMap.identity, id⟩ = none)
        (session mode commands).songs (books mode commands) := by
  constructor
  · rw [session_identities few]
    exact List.nodup_range
  · have timed := (session_keeps (Song.lasting_timed mode) commands).songs
    have balanced := session_balances few
    refine List.Forall₂.imp ?_ ((List.forall₂_and_left _ _).mpr ⟨fun song member => member, balanced⟩)
    rintro song ledger ⟨member, balances⟩
    obtain ⟨now, bound⟩ := timed song member few
    have ordered := now.ordered
    have accounts := balances.accountsFor ordered
    refine ⟨accounts, bound, ?_, Outcome.gaveBack_releaseTempo ordered, ?_⟩
    · intro more
      exact Outcome.gaveOut_holdLastTempo ordered fun entry inside => Nat.lt_of_le_of_lt (bound entry inside) more
    · intro id account known nothing later fewLater other among
      obtain ⟨number, here⟩ := List.mem_iff_getElem?.mp member
      refine session_gone fewLater here (balances.issued id account known) ?_ among
      have absent := mt (accounts.account id account known).2.mp (by omega)
      rwa [TempoMap.mem_ids_iff, Option.not_isSome_iff_eq_none] at absent

end

/-- Two references that are taken to a tempo and a copy in between; all go that the song had, so that
    the last handle is one too many. -/
private def ledgerCommands : List (Command Float) :=
  [.create, .change 0 (.addTrack .new), .change 0 (.addEvent 0 (.new (.tempo 400000)) (.tick 120)),
    .change 0 .holdLastTempo, .copy 0, .change 0 .holdLastTempo, .change 0 (.releaseTempo 0),
    .change 0 (.releaseTempo 1), .change 0 (.releaseTempo 0), .change 0 (.releaseTempo 1), .change 1 (.releaseTempo 0)]

theorem session_references_accounted_copied :
    acquisitions .strict ledgerCommands < 0xFFFFFFFF ∧
      (books .strict ledgerCommands).map (· 0) = [some ⟨1, 2, 3⟩, some ⟨2, 0, 0⟩] ∧
      List.Forall₂ (fun song ledger => ledger.AccountsFor song.tempoMap)
        (session .strict ledgerCommands).songs (books .strict ledgerCommands) := by
  have few : acquisitions .strict ledgerCommands < 0xFFFFFFFF := by decide
  exact ⟨few, rfl, (session_references_accounted .strict ledgerCommands few).2.imp fun _ _ accounted => accounted.1⟩

end Workspace

end MidiFile
