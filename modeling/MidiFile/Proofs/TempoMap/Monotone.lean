import MidiFile.Proofs.Chunk
import MidiFile.Proofs.Clock
import MidiFile.Proofs.TempoMap.Order

/-! # Seconds in the order of ticks

From one pace a later tick comes to no fewer seconds (`Division.secondsFrom_mono`), and where an entry
begins, its own pace comes to no fewer seconds than the one in front of it (`atMost_boundary`). So along a
row of settled entries seconds never go back, whatever entries stand between two ticks (`paceAt_mono`).
In front of the first entry a map leaves out an addition to zero, which makes no number smaller
(`TempoMap.timeOf_mono`). Every clock that is lawful gives this.
-/

namespace MidiFile

open Clock LawfulClock

variable {S : Type} [Clock S]

/-- Times can be worked out from the pace: it starts at a number of seconds, and its tempo is one that
    there is room for. -/
structure Pace.Lawful (pace : Pace S) : Prop where
  seconds : Amount pace.seconds
  tempo : pace.tempo ≤ greatestTick

/-- A tempo comes from three bytes. -/
theorem Message.tempo?_lt {message : Message} {tempo : Nat} (sets : message.tempo? = some tempo) : tempo < 0x1000000 := by
  unfold Message.tempo? at sets
  split at sets
  · rename_i high middle low _ _
    rw [← Option.some.inj sets]
    simpa using Bytes.bigEndian_lt [high, middle, low]
  · cases sets

/-- The tempo that is set at an entry is one that there is room for. -/
def Entry.TempoFits (entry : Entry S) : Prop := ∀ tempo, entry.ownTempo? = some tempo → tempo ≤ greatestTick

/-- What is in effect at a tick, given what is in effect in front of the entries. -/
def paceAt (before : Pace S) (entries : List (Entry S)) (tick : Nat) : Pace S :=
  ((entries.filter fun entry => entry.tick ≤ tick).getLast?.map Entry.pace).getD before

section
variable {before : Pace S} {entry : Entry S} {entries rest : List (Entry S)} {tick : Nat}

omit [Clock S] in
theorem paceAt_of_lt (later : ∀ entry ∈ entries, tick < entry.tick) : paceAt before entries tick = before := by
  have none : (entries.filter fun entry => entry.tick ≤ tick) = [] := by simpa using later
  rw [paceAt, none]
  rfl

omit [Clock S] in
theorem paceAt_cons (early : entry.tick ≤ tick) : paceAt before (entry :: rest) tick = paceAt entry.pace rest tick := by
  rw [paceAt, List.filter_cons_of_pos (by simpa using early), List.getLast?_cons, paceAt]
  cases (rest.filter fun entry => entry.tick ≤ tick).getLast? <;> rfl

end

variable [LawfulClock S]

theorem defaultTempo_le : defaultTempo ≤ greatestTick := by decide

theorem Pace.lawful_start : (Pace.start : Pace S).Lawful := ⟨amount_zero, defaultTempo_le⟩

theorem FrameRate.toNat_bounds (rate : FrameRate) : 0 < rate.toNat ∧ rate.toNat ≤ 30 := by cases rate <;> decide

namespace Division

section
variable {ticksPerQuarter : Narrow 15} {ticks tempo : Nat}

theorem ticksPerQuarter_le (ticksPerQuarter : Narrow 15) : ticksPerQuarter.toNat ≤ greatestTick :=
  Nat.le_trans (Nat.le_of_lt ticksPerQuarter.toNat_lt) (by decide)

theorem isTime_quarters (positive : ticksPerQuarter.toNat ≠ 0) (late : ticks ≤ greatestTick) :
    isTime (ofNat ticks / ofNat ticksPerQuarter.toNat : S) = true :=
  isTime_div (isTime_ofNat late) (Nat.pos_of_ne_zero positive) (ticksPerQuarter_le _)

theorem amount_quarterSeconds (positive : ticksPerQuarter.toNat ≠ 0) (late : ticks ≤ greatestTick)
    (fits : tempo ≤ greatestTick) : Amount (quarterSeconds ticksPerQuarter ticks tempo : S) :=
  amount_div (amount_mul (isTime_quarters positive late) fits) (by decide) (by decide)

theorem quarterSeconds_mono {p q : Nat} (positive : ticksPerQuarter.toNat ≠ 0) (order : p ≤ q) (late : q ≤ greatestTick)
    (fits : tempo ≤ greatestTick) :
    AtMost (quarterSeconds ticksPerQuarter p tempo : S) (quarterSeconds ticksPerQuarter q tempo) := by
  have early : p ≤ greatestTick := Nat.le_trans order late
  have quarters : AtMost (ofNat p / ofNat ticksPerQuarter.toNat : S) (ofNat q / ofNat ticksPerQuarter.toNat) :=
    div_mono (amount_ofNat early) (amount_ofNat late) (Nat.pos_of_ne_zero positive) (ticksPerQuarter_le _)
      (ofNat_mono order late)
  have timeP : isTime (ofNat p / ofNat ticksPerQuarter.toNat : S) = true := isTime_quarters positive early
  have timeQ : isTime (ofNat q / ofNat ticksPerQuarter.toNat : S) = true := isTime_quarters positive late
  exact div_mono (amount_mul timeP fits) (amount_mul timeQ fits) (by decide) (by decide) (mul_mono timeP timeQ fits quarters)

end

section
variable {rate : FrameRate} {resolution : UInt8}

/-- The ticks of a second are a count that there is room for. -/
theorem ticksPerSecond_bounds (rate : FrameRate) (nonzero : resolution ≠ 0) :
    0 < rate.toNat * resolution.toNat ∧ rate.toNat * resolution.toNat ≤ greatestTick := by
  obtain ⟨some_, few⟩ := FrameRate.toNat_bounds rate
  have valid : (timecode rate resolution).Valid := nonzero
  have bound : rate.toNat * resolution.toNat ≤ 30 * 255 := Nat.mul_le_mul few (Nat.le_of_lt_succ resolution.toNat_lt)
  exact ⟨Nat.mul_pos some_ valid.resolution_pos, Nat.le_trans bound (by decide)⟩

theorem frameSeconds_eq (nonzero : resolution ≠ 0) (ticks : Nat) :
    (frameSeconds rate resolution ticks : S) = ofNat ticks / ofNat (rate.toNat * resolution.toNat) := by
  obtain ⟨positive, small⟩ := ticksPerSecond_bounds rate nonzero
  rw [frameSeconds, ofNat_mul (Nat.pos_of_mul_pos_right positive) (Nat.pos_of_mul_pos_left positive) small]

theorem amount_frameSeconds (nonzero : resolution ≠ 0) {ticks : Nat} (late : ticks ≤ greatestTick) :
    Amount (frameSeconds rate resolution ticks : S) := by
  obtain ⟨positive, small⟩ := ticksPerSecond_bounds rate nonzero
  rw [frameSeconds_eq nonzero]
  exact amount_div (amount_ofNat late) positive small

theorem frameSeconds_mono (nonzero : resolution ≠ 0) {p q : Nat} (order : p ≤ q) (late : q ≤ greatestTick) :
    AtMost (frameSeconds rate resolution p : S) (frameSeconds rate resolution q) := by
  obtain ⟨positive, small⟩ := ticksPerSecond_bounds rate nonzero
  rw [frameSeconds_eq nonzero, frameSeconds_eq nonzero]
  exact div_mono (amount_ofNat (Nat.le_trans order late)) (amount_ofNat late) positive small (ofNat_mono order late)

end

variable {division : Division} {pace : Pace S}

theorem amount_secondsFrom (valid : division.Valid) (lawful : pace.Lawful) {tick : Nat} (late : tick ≤ greatestTick) :
    Amount (division.secondsFrom pace tick) := by
  cases division with
  | metrical ticks =>
    have within : tick - pace.tick ≤ greatestTick := Nat.le_trans (Nat.sub_le ..) late
    exact amount_add lawful.seconds (amount_quarterSeconds valid within lawful.tempo)
  | timecode rate resolution => exact amount_frameSeconds valid late

/-- From one pace on, a later tick comes to no fewer seconds. -/
theorem secondsFrom_mono (valid : division.Valid) (lawful : pace.Lawful) {p q : Nat} (order : p ≤ q)
    (late : q ≤ greatestTick) : AtMost (division.secondsFrom pace p) (division.secondsFrom pace q) := by
  cases division with
  | metrical ticks =>
    have apart : p - pace.tick ≤ q - pace.tick := Nat.sub_le_sub_right order _
    have within : q - pace.tick ≤ greatestTick := Nat.le_trans (Nat.sub_le ..) late
    exact add_mono (amount_quarterSeconds valid (Nat.le_trans apart within) lawful.tempo)
      (amount_quarterSeconds valid within lawful.tempo) lawful.seconds
      (quarterSeconds_mono valid apart within lawful.tempo)
  | timecode rate resolution => exact frameSeconds_mono valid order late

end Division

/-! ## From entry to entry -/

section
variable {division : Division} {before : Pace S} {entry : Entry S} {entries : List (Entry S)} {tick : Nat}

/-- The pace of a settled entry is lawful if the one in front of it is. -/
theorem Entry.lawful_pace (valid : division.Valid) (lawful : before.Lawful) (settled : entry.follow division before = entry)
    (fits : entry.TempoFits) (late : entry.tick ≤ greatestTick) : entry.pace.Lawful := by
  constructor
  · have seconds : entry.pace.seconds = division.secondsFrom before entry.tick := (congrArg Entry.seconds settled).symm
    rw [seconds]
    exact Division.amount_secondsFrom valid lawful late
  · have tempo : entry.pace.tempo = entry.ownTempo?.getD before.tempo := (congrArg Entry.tempo settled).symm
    rw [tempo]
    cases own : entry.ownTempo? with
    | none => exact lawful.tempo
    | some set => exact fits set own

/-- Where an entry begins, its own pace comes to no fewer seconds than the one in front of it. -/
theorem atMost_boundary (valid : division.Valid) (lawful : before.Lawful) (settled : entry.follow division before = entry)
    (fits : entry.TempoFits) (late : entry.tick ≤ greatestTick) :
    AtMost (division.secondsFrom before entry.tick) (division.secondsFrom entry.pace entry.tick) := by
  have own := Entry.lawful_pace valid lawful settled fits late
  cases division with
  | metrical ticks =>
    have seconds : entry.pace.seconds = Division.secondsFrom (.metrical ticks) before entry.tick :=
      (congrArg Entry.seconds settled).symm
    rw [← seconds]
    have within : entry.tick - entry.pace.tick ≤ greatestTick := Nat.le_trans (Nat.sub_le ..) late
    exact atMost_add own.seconds (Division.amount_quarterSeconds valid within own.tempo)
  | timecode rate resolution => exact atMost_refl (Division.amount_frameSeconds valid late)

theorem lawful_paceAt (valid : division.Valid) (lawful : before.Lawful) (settled : SettledFrom division before entries)
    (held : ∀ entry ∈ entries, entry.retired = false) (sorted : (entries.map (·.tick)).Pairwise (· < ·))
    (fit : ∀ entry ∈ entries, entry.TempoFits) (late : tick ≤ greatestTick) : (paceAt before entries tick).Lawful := by
  induction entries generalizing before with
  | nil => exact lawful
  | cons entry rest ih =>
    obtain ⟨ahead, sortedRest⟩ := List.pairwise_cons.mp sorted
    obtain ⟨fits, fitRest⟩ := List.forall_mem_cons.mp fit
    obtain ⟨here, heldRest⟩ := List.forall_mem_cons.mp held
    obtain ⟨same, settled⟩ := (settledFrom_held here _).mp settled
    by_cases early : entry.tick ≤ tick
    · rw [paceAt_cons early]
      exact ih (Entry.lawful_pace valid lawful same fits (Nat.le_trans early late)) settled heldRest sortedRest fitRest
    · have beyond : ∀ other ∈ entry :: rest, tick < other.tick :=
        List.forall_mem_cons.mpr ⟨Nat.lt_of_not_le early, fun other member =>
          Nat.lt_trans (Nat.lt_of_not_le early) (ahead _ (List.mem_map_of_mem member))⟩
      rw [paceAt_of_lt beyond]
      exact lawful

/-- Along settled entries seconds never go back, whatever entries stand between two ticks. -/
theorem paceAt_mono (valid : division.Valid) (lawful : before.Lawful) (settled : SettledFrom division before entries)
    (held : ∀ entry ∈ entries, entry.retired = false) (sorted : (entries.map (·.tick)).Pairwise (· < ·))
    (fit : ∀ entry ∈ entries, entry.TempoFits) {p q : Nat} (order : p ≤ q) (late : q ≤ greatestTick) :
    AtMost (division.secondsFrom (paceAt before entries p) p) (division.secondsFrom (paceAt before entries q) q) := by
  induction entries generalizing before p with
  | nil => exact Division.secondsFrom_mono valid lawful order late
  | cons entry rest ih =>
    obtain ⟨ahead, sortedRest⟩ := List.pairwise_cons.mp sorted
    obtain ⟨fits, fitRest⟩ := List.forall_mem_cons.mp fit
    obtain ⟨here, heldRest⟩ := List.forall_mem_cons.mp held
    obtain ⟨same, settled⟩ := (settledFrom_held here _).mp settled
    have behind : ∀ other ∈ rest, entry.tick < other.tick := fun other member => ahead _ (List.mem_map_of_mem member)
    have unreached {tick : Nat} (before_ : tick < entry.tick) : paceAt before (entry :: rest) tick = before :=
      paceAt_of_lt (List.forall_mem_cons.mpr ⟨before_, fun other member => Nat.lt_trans before_ (behind other member)⟩)
    by_cases lateEntry : q < entry.tick
    · rw [unreached lateEntry, unreached (Nat.lt_of_le_of_lt order lateEntry)]
      exact Division.secondsFrom_mono valid lawful order late
    · have reached : entry.tick ≤ q := Nat.le_of_not_lt lateEntry
      have within : entry.tick ≤ greatestTick := Nat.le_trans reached late
      have own := Entry.lawful_pace valid lawful same fits within
      rw [paceAt_cons reached]
      by_cases early : entry.tick ≤ p
      · rw [paceAt_cons early]
        exact ih own settled heldRest sortedRest fitRest order
      · -- The entry stands between the two ticks: up to it one pace is in effect, from it on its own.
        rw [unreached (Nat.lt_of_not_le early)]
        have upTo := Division.secondsFrom_mono valid lawful (Nat.le_of_not_le early) within
        have across := atMost_boundary valid lawful same fits within
        have onwards := ih own settled heldRest sortedRest fitRest reached
        rw [paceAt_of_lt behind] at onwards
        exact atMost_trans upTo (atMost_trans across onwards)

end

namespace TempoMap

variable {division : Division} {map : TempoMap S} {tick : Nat}

omit [LawfulClock S] in
/-- In front of the first entry nothing is added to the zero that a song starts at. -/
theorem timeOf_front {ticks : Narrow 15} (ordered : map.Ordered) (front : ∀ entry ∈ map.entries, tick < entry.tick) :
    (map.timeOf (.metrical ticks) tick).seconds = Division.quarterSeconds ticks tick defaultTempo := by
  rw [← ordered.live_eq] at front
  simp only [timeOf, at?_eq_none_iff.mpr front]

omit [LawfulClock S] in
/-- From the first entry on a tick comes to the seconds of the pace in effect. -/
theorem timeOf_reached {entry : Entry S} (ordered : map.Ordered) (member : entry ∈ map.entries)
    (reached : entry.tick ≤ tick) :
    (map.timeOf division tick).seconds = division.secondsFrom (paceAt .start map.entries tick) tick := by
  cases division with
  | timecode rate resolution => rfl
  | metrical ticks =>
    cases here : map.at? tick with
    | none => exact absurd reached (Nat.not_le.mpr (at?_eq_none_iff.mp here entry (ordered.live_eq.symm ▸ member)))
    | some last =>
      rw [at?, ordered.live_eq] at here
      simp only [timeOf, at?, ordered.live_eq, here, paceAt, Option.map_some, Option.getD_some]

/-- A map all of whose times can be worked out. -/
structure Lawful (division : Division) (map : TempoMap S) : Prop where
  valid : division.Valid
  ordered : map.Ordered
  settled : map.Settled division
  fit : ∀ entry ∈ map.entries, entry.TempoFits

variable (lawful : map.Lawful division)
include lawful

theorem Lawful.amount_timeOf (late : tick ≤ greatestTick) : Amount (map.timeOf division tick).seconds := by
  have pace := lawful_paceAt lawful.valid Pace.lawful_start lawful.settled lawful.ordered.held lawful.ordered.ticks lawful.fit late
  by_cases reached : ∃ entry ∈ map.entries, entry.tick ≤ tick
  · obtain ⟨entry, member, reached⟩ := reached
    rw [timeOf_reached lawful.ordered member reached]
    exact Division.amount_secondsFrom lawful.valid pace late
  · cases division with
    | timecode rate resolution => exact Division.amount_frameSeconds lawful.valid late
    | metrical ticks =>
      rw [timeOf_front lawful.ordered (by simpa using reached)]
      exact Division.amount_quarterSeconds lawful.valid late defaultTempo_le

/-- A later tick comes to no fewer seconds. -/
theorem Lawful.timeOf_mono {p q : Nat} (order : p ≤ q) (late : q ≤ greatestTick) :
    AtMost (map.timeOf division p).seconds (map.timeOf division q).seconds := by
  have whole := paceAt_mono lawful.valid Pace.lawful_start lawful.settled lawful.ordered.held lawful.ordered.ticks lawful.fit order
    late
  cases division with
  | timecode rate resolution => exact Division.frameSeconds_mono lawful.valid order late
  | metrical ticks =>
    by_cases frontQ : ∀ entry ∈ map.entries, q < entry.tick
    · have frontP : ∀ entry ∈ map.entries, p < entry.tick := fun entry member =>
        Nat.lt_of_le_of_lt order (frontQ entry member)
      rw [timeOf_front lawful.ordered frontP, timeOf_front lawful.ordered frontQ]
      exact Division.quarterSeconds_mono lawful.valid order late defaultTempo_le
    · obtain ⟨last, lastMember, reachedQ⟩ : ∃ entry ∈ map.entries, entry.tick ≤ q := by simpa using frontQ
      rw [timeOf_reached lawful.ordered lastMember reachedQ]
      by_cases frontP : ∀ entry ∈ map.entries, p < entry.tick
      · rw [paceAt_of_lt frontP] at whole
        rw [timeOf_front lawful.ordered frontP]
        have early : p ≤ greatestTick := Nat.le_trans order late
        exact atMost_trans (atMost_zero_add (Division.amount_quarterSeconds lawful.valid early defaultTempo_le)) whole
      · obtain ⟨first, firstMember, reachedP⟩ : ∃ entry ∈ map.entries, entry.tick ≤ p := by simpa using frontP
        rw [timeOf_reached lawful.ordered firstMember reachedP]
        exact whole

end TempoMap

end MidiFile
