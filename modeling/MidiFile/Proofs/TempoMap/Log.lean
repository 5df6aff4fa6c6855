import MidiFile.Proofs.TempoMap.Registration

/-! # Tempo maps as logs of what was set

All that was ever set at some tick, in the order in which it came, says what a tempo map has to be
without any entry (`Log`): at a tick the latest of what was set there counts, and what is in effect
comes from the greatest tick up to there at which anything was set. A map follows a log when its
entries are those of the ticks in the log, each with what was set there last (`Follows`). Setting
more adds to the end of the log, and an entry that goes takes all with it that was set at its tick.
An ordered and settled map that follows a log gives what the log says (`Follows.describes`).
-/

namespace MidiFile

/-- What was set at a tick: a tempo, a time signature or both. -/
structure Setting where
  tick : Nat
  tempo? : Option Nat
  signature? : Option TimeSignature
deriving DecidableEq, Repr

namespace Setting

variable {S : Type}

/-- What a message sets at a tick, if it sets anything. -/
def of? (tick : Nat) (message : Message) : Option Setting :=
  if message.changesTempo then some ⟨tick, message.tempo?, message.timeSignature?⟩ else none

/-- Some message sets it. -/
def Made (setting : Setting) : Prop := ∃ tick message, of? tick message = some setting

/-- What events set, in their order. -/
def ofEvents (events : List (Event S)) : List Setting := events.filterMap fun event => of? event.tick event.message

theorem made_ofEvents (events : List (Event S)) : ∀ setting ∈ ofEvents events, setting.Made := by
  intro setting member
  obtain ⟨event, _, set⟩ := List.mem_filterMap.mp member
  exact ⟨event.tick, event.message, set⟩

theorem ofEvents_singleton (event : Event S) : ofEvents [event] = (of? event.tick event.message).toList := by
  rw [ofEvents, List.filterMap_cons]
  cases of? event.tick event.message <;> rfl

/-- Only the ticks and the messages of events matter to what they set. -/
theorem ofEvents_congr {events others : List (Event S)}
    (same : others.map (fun event => (event.tick, event.message)) = events.map (fun event => (event.tick, event.message))) :
    ofEvents others = ofEvents events := by
  have part (events : List (Event S)) : ofEvents events =
      (events.map fun event => (event.tick, event.message)).filterMap fun pair => of? pair.1 pair.2 := by
    rw [List.filterMap_map]
    rfl
  rw [part, same, ← part]

end Setting

/-- All that was set, in the order in which it came. -/
abbrev Log := List Setting

namespace Log

variable {β : Type}

/-- The greatest tick in the log that is not past the given one. -/
def greatest? (tick : Nat) (log : Log) : Option Nat := ((log.map (·.tick)).filter (· ≤ tick)).max?

/-- The part of the log that sets a value of some kind. -/
def carrying (value? : Setting → Option β) (log : Log) : Log := log.filter fun setting => (value? setting).isSome

/-- The value that was set last at a tick. -/
def lastAt? (value? : Setting → Option β) (tick : Nat) (log : Log) : Option β :=
  ((log.carrying value?).filter (·.tick == tick)).getLast?.bind value?

/-- The value in effect at a tick: the one that was set last at the greatest tick up to there at
    which one was set. -/
def inEffect? (value? : Setting → Option β) (tick : Nat) (log : Log) : Option β :=
  ((log.carrying value?).greatest? tick).bind fun greatest => log.lastAt? value? greatest

/-- The log without what was set at a tick. -/
def without (tick : Nat) (log : Log) : Log := log.filter (·.tick != tick)

theorem greatest?_eq_some_iff {tick greatest : Nat} {log : Log} :
    log.greatest? tick = some greatest ↔
      (∃ setting ∈ log, setting.tick = greatest) ∧ greatest ≤ tick ∧
        ∀ setting ∈ log, setting.tick ≤ tick → setting.tick ≤ greatest := by
  simp only [greatest?, List.max?_eq_some_iff, List.mem_filter, List.mem_map, decide_eq_true_eq, and_imp,
    forall_exists_index, and_assoc]
  constructor
  · rintro ⟨present, within, most⟩
    exact ⟨present, within, fun setting member => most setting.tick setting member rfl⟩
  · rintro ⟨present, within, most⟩
    exact ⟨present, within, fun _ setting member same => same ▸ most setting member⟩

theorem greatest?_eq_none_iff {tick : Nat} {log : Log} :
    log.greatest? tick = none ↔ ∀ setting ∈ log, tick < setting.tick := by
  simp only [greatest?, List.max?_eq_none_iff, List.filter_eq_nil_iff, List.forall_mem_map, decide_eq_true_eq,
    Nat.not_le]

theorem lastAt?_append (value? : Setting → Option β) (tick : Nat) (log : Log) (setting : Setting) :
    lastAt? value? tick (log ++ [setting]) =
      if setting.tick = tick then (value? setting).or (log.lastAt? value? tick) else log.lastAt? value? tick := by
  unfold lastAt? carrying
  rw [List.filter_append, List.filter_append]
  cases carried : value? setting with
  | none => simp [carried]
  | some value =>
    by_cases same : setting.tick = tick
    · simp [carried, same]
    · simp [carried, same]

theorem lastAt?_without (value? : Setting → Option β) {tick other : Nat} (apart : tick ≠ other) (log : Log) :
    (log.without other).lastAt? value? tick = log.lastAt? value? tick := by
  unfold lastAt? carrying without
  rw [List.filter_filter, List.filter_filter, List.filter_filter]
  congr 2
  apply List.filter_congr
  intro setting _
  by_cases here : setting.tick = tick
  · simp [here, apart]
  · simp [here]

theorem lastAt?_isSome_iff {value? : Setting → Option β} {tick : Nat} {log : Log} :
    (log.lastAt? value? tick).isSome = true ↔ ∃ setting ∈ log.carrying value?, setting.tick = tick := by
  rw [lastAt?]
  cases last : ((log.carrying value?).filter (·.tick == tick)).getLast? with
  | none =>
    rw [List.getLast?_eq_none_iff, List.filter_eq_nil_iff] at last
    simp only [Option.bind_none, Option.isSome_none, Bool.false_eq_true, false_iff]
    rintro ⟨setting, member, same⟩
    exact last setting member (beq_iff_eq.mpr same)
  | some setting =>
    have member := List.mem_of_getLast? last
    rw [List.mem_filter, beq_iff_eq] at member
    have carries := (List.mem_filter.mp member.1).2
    simp only [Option.bind_some, carries, true_iff]
    exact ⟨setting, member.1, member.2⟩

/-- What was set last at a tick was set by one of the settings in the log. -/
theorem exists_of_lastAt? {value? : Setting → Option β} {tick : Nat} {log : Log} {value : β}
    (last : log.lastAt? value? tick = some value) : ∃ setting ∈ log, value? setting = some value := by
  obtain ⟨setting, found, set⟩ := Option.bind_eq_some_iff.mp last
  exact ⟨setting, (List.mem_filter.mp (List.mem_filter.mp (List.mem_of_getLast? found)).1).1, set⟩

theorem lastAt?_eq_none {value? : Setting → Option β} {tick : Nat} {log : Log} (absent : tick ∉ log.map (·.tick)) :
    log.lastAt? value? tick = none := by
  rw [← Option.not_isSome_iff_eq_none, lastAt?_isSome_iff]
  rintro ⟨setting, member, rfl⟩
  exact absent (List.mem_map_of_mem (List.mem_filter.mp member).1)

end Log

/-! ## Maps that follow a log -/

section
variable {S : Type}

/-- What is set at an entry. -/
def Entry.setting (entry : Entry S) : Setting := ⟨entry.tick, entry.ownTempo?, entry.ownSignature?⟩

namespace TempoMap

/-- What is set at the entries of a map. -/
def settings (map : TempoMap S) : List Setting := map.entries.map Entry.setting

/-- The entries are at the ticks of the log, each with what was set there last. -/
structure Follows (map : TempoMap S) (log : Log) : Prop where
  ticks : ∀ tick, tick ∈ map.settings.map (·.tick) ↔ tick ∈ log.map (·.tick)
  tempos : ∀ setting ∈ map.settings, setting.tempo? = log.lastAt? Setting.tempo? setting.tick
  signatures : ∀ setting ∈ map.settings, setting.signature? = log.lastAt? Setting.signature? setting.tick

theorem follows_empty (identity : Nat) : (empty identity : TempoMap S).Follows [] :=
  ⟨by simp [settings, empty], by simp [settings, empty], by simp [settings, empty]⟩

/-- Only what is set at the entries matters. -/
theorem Follows.of_settings {map other : TempoMap S} {log : Log} (follows : map.Follows log)
    (same : other.settings = map.settings) : other.Follows log :=
  ⟨same ▸ follows.ticks, same ▸ follows.tempos, same ▸ follows.signatures⟩

theorem settings_of_unheld {map other : TempoMap S} (same : other.unheld = map.unheld) :
    other.settings = map.settings := by
  have part (map : TempoMap S) : map.settings = map.unheld.map Entry.setting := by
    rw [unheld, List.map_map]
    rfl
  rw [part, same, ← part]

theorem Ordered.settings_recount {map : TempoMap S} (ordered : map.Ordered) (sources : List Nat) :
    (map.recount sources).settings = map.settings := by
  rw [ordered.recount_eq]
  simp only [settings, mapEntries, List.map_map]
  rfl

@[simp] theorem settings_resolve [Clock S] (division : Division) (map : TempoMap S) :
    (map.resolve division).settings = map.settings :=
  map_followAll (fun _ _ => rfl) _ _

variable {map : TempoMap S} {log : Log} {tick : Nat}

/-- What is set anew is set last at its tick and changes nothing elsewhere. -/
theorem lastAt?_split {β : Type} {value? : Setting → Option β} {front back : List (Entry S)} {here? : Option (Entry S)}
    (split : SplitAt tick map.entries front here? back)
    (ticks : ∀ tick, tick ∈ map.settings.map (·.tick) ↔ tick ∈ log.map (·.tick))
    (own : ∀ setting ∈ map.settings, value? setting = log.lastAt? value? setting.tick) {new merged : Setting}
    (newTick : new.tick = tick) (mergedTick : merged.tick = tick)
    (merge : value? merged = (value? new).or (here?.bind fun entry => value? entry.setting)) :
    ∀ setting ∈ front.map Entry.setting ++ merged :: back.map Entry.setting,
      value? setting = (log ++ [new]).lastAt? value? setting.tick := by
  have outside (entry : Entry S) (member : entry ∈ map.entries) (apart : entry.tick ≠ tick) :
      value? entry.setting = (log ++ [new]).lastAt? value? entry.setting.tick := by
    rw [Log.lastAt?_append, if_neg (newTick ▸ Ne.symm apart)]
    exact own _ (List.mem_map_of_mem member)
  intro setting member
  rcases List.mem_append.mp member with early | member
  · obtain ⟨entry, among, rfl⟩ := List.mem_map.mp early
    exact outside entry (split.whole ▸ by simp [among]) (Nat.ne_of_lt (split.earlier entry among))
  · rcases List.mem_cons.mp member with rfl | late
    · rw [Log.lastAt?_append, if_pos (newTick.trans mergedTick.symm), merge, mergedTick]
      congr 1
      cases here? with
      | some entry =>
        have inside : entry ∈ map.entries := split.whole ▸ by simp
        have here : entry.setting.tick = tick := split.here entry rfl
        rw [← here]
        exact own _ (List.mem_map_of_mem inside)
      | none =>
        refine (Log.lastAt?_eq_none fun logged => ?_).symm
        have listed := (ticks tick).mpr logged
        rw [settings, List.map_map, split.whole] at listed
        obtain ⟨entry, among, same⟩ := List.mem_map.mp listed
        rw [Option.toList_none, List.nil_append] at among
        exact (List.mem_append.mp among).elim (fun early => Nat.ne_of_lt (split.earlier entry early) same)
          fun late => Nat.ne_of_gt (split.later entry late) same
    · obtain ⟨entry, among, rfl⟩ := List.mem_map.mp late
      exact outside entry (split.whole ▸ by simp [among]) (Nat.ne_of_gt (split.later entry among))

variable [Clock S]

theorem Follows.set (follows : map.Follows log) (ordered : map.Ordered) (tempo? : Option Nat)
    (signature? : Option TimeSignature) :
    (map.set tick tempo? signature?).Follows (log ++ [⟨tick, tempo?, signature?⟩]) := by
  obtain ⟨front, here?, back, split⟩ := exists_splitAt ordered.ticks tick
  have merged : (map.set tick tempo? signature?).settings = front.map Entry.setting ++
      ((here?.getD (Entry.blank map.nextId tick)).set tempo? signature?).setting :: back.map Entry.setting := by
    rw [settings, entries_set ordered split, List.map_append, List.map_cons]
  have mergedTick : ((here?.getD (Entry.blank map.nextId tick)).set tempo? signature?).setting.tick = tick := by
    cases here? with
    | none => rfl
    | some entry => exact split.here entry rfl
  refine ⟨?_, ?_, ?_⟩
  · intro other
    have before := follows.ticks other
    rw [merged, List.map_append, List.map_cons, List.mem_append, List.mem_cons, mergedTick, List.map_append,
      List.mem_append, ← before, settings, split.whole, List.map_append, List.map_append, List.map_append,
      List.map_append, List.mem_append, List.mem_append]
    have present : other ∈ (here?.toList.map Entry.setting).map (·.tick) → other = tick := by
      cases here? with
      | none => simp
      | some entry => simpa [Entry.setting] using fun same => same.trans (split.here entry rfl)
    have single : other ∈ [(⟨tick, tempo?, signature?⟩ : Setting)].map (·.tick) ↔ other = tick := by simp
    rw [single]
    tauto
  · rw [merged]
    refine lastAt?_split split follows.ticks follows.tempos rfl mergedTick ?_
    cases here? <;> rfl
  · rw [merged]
    refine lastAt?_split split follows.ticks follows.signatures rfl mergedTick ?_
    cases here? <;> rfl

theorem Follows.register (follows : map.Follows log) (ordered : map.Ordered) (division : Division) (message : Message) :
    (map.register division tick message).Follows (log ++ (Setting.of? tick message).toList) := by
  unfold TempoMap.register Setting.of?
  split
  · exact (follows.set ordered message.tempo? message.timeSignature?).of_settings (settings_resolve _ _)
  · simpa using follows

/-- Events that come in set what they set one after the other. -/
theorem Follows.registerAll (follows : map.Follows log) (ordered : map.Ordered) (division : Division)
    (events : List (Event S)) : (map.registerAll division events).Follows (log ++ Setting.ofEvents events) := by
  induction events generalizing map log with
  | nil => simpa [Setting.ofEvents, TempoMap.registerAll] using follows
  | cons event rest ih =>
    have later := ih (follows.register ordered division event.message) (ordered.register division event.tick event.message)
    have joined : Setting.ofEvents (event :: rest) = (Setting.of? event.tick event.message).toList ++ Setting.ofEvents rest := by
      rw [Setting.ofEvents, List.filterMap_cons, Setting.ofEvents]
      cases Setting.of? event.tick event.message <;> rfl
    rw [joined, ← List.append_assoc]
    exact later

omit [Clock S] in
/-- An entry that goes takes with it all that was set at its tick. -/
theorem Follows.without (follows : map.Follows log) (ordered : map.Ordered) {entry : Entry S}
    (member : entry ∈ map.entries) :
    ({ map with entries := map.entries.filter (·.id != entry.id) } : TempoMap S).Follows (log.without entry.tick) := by
  have kept : ∀ setting ∈ settings { map with entries := map.entries.filter (·.id != entry.id) },
      setting ∈ map.settings ∧ setting.tick ≠ entry.tick := by
    intro setting listed
    obtain ⟨other, among, rfl⟩ := List.mem_map.mp listed
    obtain ⟨inside, apart⟩ := List.mem_filter.mp among
    refine ⟨List.mem_map_of_mem inside, ?_⟩
    intro same
    rw [ordered.eq_of_tick inside member same] at apart
    simp at apart
  refine ⟨?_, ?_, ?_⟩
  · intro tick
    have before := follows.ticks tick
    have logged : tick ∈ (log.without entry.tick).map (·.tick) ↔ tick ∈ log.map (·.tick) ∧ tick ≠ entry.tick := by
      simp only [Log.without, List.mem_map, List.mem_filter, bne_iff_ne]
      constructor
      · rintro ⟨setting, ⟨inside, apart⟩, rfl⟩
        exact ⟨⟨setting, inside, rfl⟩, apart⟩
      · rintro ⟨⟨setting, inside, rfl⟩, apart⟩
        exact ⟨setting, ⟨inside, apart⟩, rfl⟩
    rw [logged, ← before]
    constructor
    · intro listed
      obtain ⟨setting, among, rfl⟩ := List.mem_map.mp listed
      exact ⟨List.mem_map_of_mem (kept setting among).1, (kept setting among).2⟩
    · rintro ⟨listed, apart⟩
      obtain ⟨setting, among, rfl⟩ := List.mem_map.mp listed
      obtain ⟨other, inside, rfl⟩ := List.mem_map.mp among
      refine List.mem_map_of_mem (List.mem_map_of_mem (List.mem_filter.mpr ⟨inside, ?_⟩))
      rw [bne_iff_ne]
      intro same
      exact apart (congrArg Entry.tick (ordered.eq_of_id inside member same))
  · intro setting listed
    rw [Log.lastAt?_without _ (kept setting listed).2]
    exact follows.tempos setting (kept setting listed).1
  · intro setting listed
    rw [Log.lastAt?_without _ (kept setting listed).2]
    exact follows.signatures setting (kept setting listed).1

/-- The map is the one that the log describes. -/
structure Describes (log : Log) (map : TempoMap S) : Prop where
  ordered : (map.entries.map (·.tick)).Pairwise (· < ·)
  ticks : ∀ tick, tick ∈ map.entries.map (·.tick) ↔ tick ∈ log.map (·.tick)
  tempo : ∀ entry ∈ map.entries, entry.tempo = (log.inEffect? Setting.tempo? entry.tick).getD defaultTempo
  signature : ∀ entry ∈ map.entries, entry.signature = (log.inEffect? Setting.signature? entry.tick).getD .common
  inEffect : ∀ tick, map.at? tick = (log.greatest? tick).bind fun greatest => map.entries.find? (·.tick == greatest)

omit [Clock S] in
theorem exists_split (ordered : map.Ordered) {entry : Entry S} (member : entry ∈ map.entries) :
    ∃ front back, map.entries = front ++ entry :: back ∧ (∀ other ∈ front, other.tick < entry.tick) ∧
      ∀ other ∈ back, entry.tick < other.tick := by
  obtain ⟨front, back, whole⟩ := List.append_of_mem member
  have ticks := ordered.ticks
  rw [whole, List.map_append, List.map_cons] at ticks
  obtain ⟨_, later, across⟩ := List.pairwise_append.mp ticks
  refine ⟨front, back, whole, ?_, ?_⟩
  · intro other early
    exact across _ (List.mem_map_of_mem early) _ List.mem_cons_self
  · intro other late
    exact (List.pairwise_cons.mp later).1 _ (List.mem_map_of_mem late)

/-- What is in effect from an entry on was set at the last entry up to there that sets it. -/
theorem effect_of_settled {β : Type} {division : Division} (own : Entry S → Option β) (effect : Entry S → β)
    (inFront : Pace S → β)
    (followed : ∀ before entry, effect (entry.follow division before) = (own entry).getD (inFront before))
    (behind : ∀ entry, inFront (Entry.pace entry) = effect entry) {before : Pace S} {front back : List (Entry S)}
    {entry : Entry S} (held : ∀ other ∈ front ++ entry :: back, other.retired = false)
    (settled : SettledFrom division before (front ++ entry :: back)) :
    effect entry = ((front ++ [entry]).filterMap own).getLast?.getD (inFront before) := by
  induction front generalizing before with
  | nil =>
    obtain ⟨same, _⟩ := (settledFrom_held (held entry List.mem_cons_self) _).mp settled
    have here := followed before entry
    rw [same] at here
    rw [here]
    cases own : own entry <;> simp [own]
  | cons first rest ih =>
    obtain ⟨heldFirst, heldRest⟩ := List.forall_mem_cons.mp held
    obtain ⟨same, settled⟩ := (settledFrom_held heldFirst _).mp settled
    have later := ih heldRest settled
    have here := followed before first
    rw [same] at here
    rw [later, behind, here, List.cons_append, List.filterMap_cons]
    cases own first with
    | none => rfl
    | some value => simp [List.getLast?_cons]

omit [Clock S] in
/-- Entries at none of the ticks at which the log sets a value have no such value. -/
theorem filterMap_of_apart {β : Type} {value? : Setting → Option β} {entries : List (Entry S)}
    (own : ∀ entry ∈ entries, value? entry.setting = log.lastAt? value? entry.tick)
    (apart : ∀ entry ∈ entries, ∀ setting ∈ log.carrying value?, setting.tick ≠ entry.tick) :
    (entries.filterMap fun entry => value? entry.setting) = [] := by
  rw [List.filterMap_eq_nil_iff]
  intro entry member
  cases set : value? entry.setting with
  | none => rfl
  | some value =>
    rw [own entry member] at set
    obtain ⟨setting, carrying, same⟩ := Log.lastAt?_isSome_iff.mp (Option.isSome_of_eq_some set)
    exact absurd same (apart entry member setting carrying)

omit [Clock S] in
/-- The last entry up to a tick that sets a value has the one that the log says. -/
theorem getLast?_own {β : Type} {value? : Setting → Option β} (follows : map.Follows log) (ordered : map.Ordered)
    (own : ∀ setting ∈ map.settings, value? setting = log.lastAt? value? setting.tick) {front back : List (Entry S)}
    (whole : map.entries = front ++ back) (upTo : ∀ entry ∈ front, entry.tick ≤ tick)
    (later : ∀ entry ∈ back, tick < entry.tick) :
    (front.filterMap fun entry => value? entry.setting).getLast? = log.inEffect? value? tick := by
  have told (entry : Entry S) (member : entry ∈ front) : value? entry.setting = log.lastAt? value? entry.tick :=
    own entry.setting (List.mem_map_of_mem (whole ▸ List.mem_append_left _ member))
  rw [Log.inEffect?]
  cases greatest : (log.carrying value?).greatest? tick with
  | none =>
    rw [Log.greatest?_eq_none_iff] at greatest
    rw [Option.bind_none, List.getLast?_eq_none_iff]
    refine filterMap_of_apart told fun entry member setting carrying same => ?_
    exact absurd (upTo entry member) (Nat.not_le.mpr (same ▸ greatest setting carrying))
  | some place =>
    obtain ⟨⟨setting, carrying, rfl⟩, within, most⟩ := Log.greatest?_eq_some_iff.mp greatest
    have listed := (follows.ticks setting.tick).mpr (List.mem_map_of_mem (List.mem_filter.mp carrying).1)
    obtain ⟨_, among, same⟩ := List.mem_map.mp listed
    obtain ⟨entry, member, rfl⟩ := List.mem_map.mp among
    change entry.tick = setting.tick at same
    have early : entry ∈ front := by
      rw [whole] at member
      rcases List.mem_append.mp member with early | late
      · exact early
      · exact absurd (later entry late) (Nat.not_lt.mpr (same ▸ within))
    have last : value? entry.setting = log.lastAt? value? setting.tick := same ▸ told entry early
    obtain ⟨value, set⟩ := Option.isSome_iff_exists.mp
      (Log.lastAt?_isSome_iff.mpr ⟨setting, carrying, rfl⟩ : (log.lastAt? value? setting.tick).isSome = true)
    obtain ⟨before, behind, split⟩ := List.append_of_mem early
    have inside {other : Entry S} (member : other ∈ behind) : other ∈ front := split ▸ by simp [member]
    have ahead (other : Entry S) (member : other ∈ behind) : entry.tick < other.tick := by
      have ticks := ordered.ticks
      rw [whole, split, List.map_append, List.map_append, List.map_cons, List.append_assoc] at ticks
      obtain ⟨_, ticks, _⟩ := List.pairwise_append.mp ticks
      exact (List.pairwise_cons.mp ticks).1 other.tick (List.mem_append_left _ (List.mem_map_of_mem member))
    have silent : (behind.filterMap fun entry => value? entry.setting) = [] := by
      refine filterMap_of_apart (fun other member => told other (inside member)) fun other member setting carrying alike => ?_
      have bound := most setting carrying (alike ▸ upTo other (inside member))
      rw [alike, ← same] at bound
      exact absurd (ahead other member) (Nat.not_lt.mpr bound)
    rw [Option.bind_some, split, List.filterMap_append, List.filterMap_cons, last, set, silent]
    simp

omit [Clock S] in
theorem Follows.mem_ticks_iff (follows : map.Follows log) (tick : Nat) :
    tick ∈ map.entries.map (·.tick) ↔ tick ∈ log.map (·.tick) := by
  rw [← follows.ticks, settings, List.map_map]
  rfl

/-- What an entry says to be in effect is what the log says. -/
theorem Follows.effect_eq {β : Type} {division : Division} {value? : Setting → Option β} (effect : Entry S → β)
    (inFront : Pace S → β) (follows : map.Follows log) (ordered : map.Ordered) (settled : map.Settled division)
    (own : ∀ setting ∈ map.settings, value? setting = log.lastAt? value? setting.tick)
    (followed : ∀ (before : Pace S) (entry : Entry S),
      effect (entry.follow division before) = (value? entry.setting).getD (inFront before))
    (behind : ∀ entry, inFront (Entry.pace entry) = effect entry) {entry : Entry S} (member : entry ∈ map.entries) :
    effect entry = (log.inEffect? value? entry.tick).getD (inFront .start) := by
  obtain ⟨front, back, whole, early, late⟩ := exists_split ordered member
  have split : map.entries = (front ++ [entry]) ++ back := by
    rw [whole, List.append_assoc]
    rfl
  have upTo : ∀ other ∈ front ++ [entry], other.tick ≤ entry.tick := by
    intro other among
    rcases List.mem_append.mp among with front | here
    · exact Nat.le_of_lt (early other front)
    · exact Nat.le_of_eq (congrArg Entry.tick (List.mem_singleton.mp here))
  rw [← getLast?_own follows ordered own split upTo late]
  rw [Settled, whole] at settled
  exact effect_of_settled (fun entry => value? entry.setting) effect inFront followed behind (whole ▸ ordered.held) settled

omit [Clock S] in
/-- The entry in effect at a tick is the one of the greatest tick in the log up to there. -/
theorem Follows.at?_eq (follows : map.Follows log) (ordered : map.Ordered) (tick : Nat) :
    map.at? tick = (log.greatest? tick).bind fun greatest => map.entries.find? (·.tick == greatest) := by
  cases greatest : log.greatest? tick with
  | none =>
    rw [Log.greatest?_eq_none_iff] at greatest
    rw [Option.bind_none, at?_eq_none_iff, ordered.live_eq]
    intro entry member
    obtain ⟨setting, logged, same⟩ := List.mem_map.mp ((follows.mem_ticks_iff entry.tick).mp (List.mem_map_of_mem member))
    exact same ▸ greatest setting logged
  | some place =>
    obtain ⟨⟨setting, logged, rfl⟩, within, most⟩ := Log.greatest?_eq_some_iff.mp greatest
    obtain ⟨entry, member, same⟩ := List.mem_map.mp ((follows.mem_ticks_iff setting.tick).mpr (List.mem_map_of_mem logged))
    obtain ⟨front, back, whole, early, late⟩ := exists_split ordered member
    have split : map.entries = (front ++ [entry]) ++ back := by
      rw [whole, List.append_assoc]
      rfl
    have behind : ∀ other ∈ back, tick < other.tick := by
      intro other among
      by_cases upTo : other.tick ≤ tick
      · have inside : other ∈ map.entries := whole ▸ by simp [among]
        obtain ⟨otherSetting, otherLogged, otherSame⟩ :=
          List.mem_map.mp ((follows.mem_ticks_iff other.tick).mp (List.mem_map_of_mem inside))
        have bound := most otherSetting otherLogged (otherSame ▸ upTo)
        have beyond := late other among
        omega
      · exact Nat.lt_of_not_le upTo
    have found : map.entries.find? (·.tick == setting.tick) = some entry := by
      rw [whole, List.find?_append, List.find?_eq_none.mpr, Option.none_or, List.find?_cons_of_pos (by simp [same])]
      intro other among
      simpa [← same] using Nat.ne_of_lt (early other among)
    rw [Option.bind_some, found, at?_append (ordered.live_eq.trans split) behind, List.filter_append, List.filter_cons_of_pos]
    · simp
    · simpa [same] using within

/-- A settled map that follows a log is the one that the log describes. -/
theorem Follows.describes {division : Division} (follows : map.Follows log) (ordered : map.Ordered)
    (settled : map.Settled division) : Describes log map := by
  refine ⟨ordered.ticks, follows.mem_ticks_iff, ?_, ?_, follows.at?_eq ordered⟩
  · intro entry member
    exact follows.effect_eq Entry.tempo Pace.tempo ordered settled follows.tempos (fun _ _ => rfl) (fun _ => rfl) member
  · intro entry member
    exact follows.effect_eq Entry.signature Pace.signature ordered settled follows.signatures (fun _ _ => rfl)
      (fun _ => rfl) member

end TempoMap

end

end MidiFile
