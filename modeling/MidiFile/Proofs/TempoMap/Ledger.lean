import MidiFile.Proofs.TempoMap.References

/-! # Ledgers of references

A ledger has an account for every entry that a tempo map ever had (`Ledger`): how many references
there were when the account was opened, how many were taken since and how many were given back. It
knows nothing of the map but the numbers of its entries. The ledger balances when the accounts say
how many refer to each entry that is there, and have nothing left for those that are gone
(`Balances`). Growing, taking a reference and giving one back keep it so, each with its own entry in
the ledger, and so does copying a map, whose accounts are opened with the references of the copy.
-/

namespace MidiFile

variable {S : Type}

/-- The references to an entry since its account was opened. -/
structure Account where
  opened : Nat
  acquired : Nat
  released : Nat
deriving DecidableEq, Repr

namespace Account

/-- What is left of all references. -/
def balance (account : Account) : Int := account.opened + account.acquired - account.released

def acquire (account : Account) : Account := { account with acquired := account.acquired + 1 }

def release (account : Account) : Account := { account with released := account.released + 1 }

end Account

/-- The accounts of the entries of a tempo map, by their numbers. -/
abbrev Ledger := Nat → Option Account

namespace Ledger

/-- A ledger without accounts. -/
def blank : Ledger := fun _ => none

/-- A ledger with an account for each entry of a map, opened with the references to it. -/
def copied (map : TempoMap S) : Ledger := fun id => (map.references? id).map fun count => ⟨count, 0, 0⟩

/-- Open an account for each entry that has none, with one reference, the one of the map. -/
def openedFor (map : TempoMap S) (ledger : Ledger) : Ledger := fun id =>
  (ledger id).or ((map.references? id).map fun _ => ⟨1, 0, 0⟩)

/-- Enter something into one of the accounts. -/
def enter (id : Nat) (change : Account → Account) (ledger : Ledger) : Ledger := fun other =>
  if other = id then (ledger other).map change else ledger other

end Ledger

/-- The ledger tells all about the references to a map: there is an account for each entry, in which
    as much is left as there are references to it, never less than nothing is left in any account,
    and the entries are those with something left. -/
structure Ledger.AccountsFor (ledger : Ledger) (map : TempoMap S) : Prop where
  entry : ∀ entry ∈ map.entries, ∃ account, ledger entry.id = some account ∧ account.balance = entry.references
  account : ∀ id account, ledger id = some account →
    0 ≤ account.balance ∧ (id ∈ map.entries.map (·.id) ↔ 0 < account.balance)

/-- What an account has to do with the references to an entry: a number without an account is that
    of no entry, and what is left in an account are the references to an entry that is there. -/
inductive Stands : Option Account → Option Nat → Prop
  | unknown : Stands none none
  | present {account : Account} {count : Nat} (positive : 0 < count)
    (left : account.opened + account.acquired = account.released + count) : Stands (some account) (some count)
  | gone {account : Account} (left : account.opened + account.acquired = account.released) : Stands (some account) none

/-- An account that was there is not opened again. -/
theorem Stands.or_opened {account? : Option Account} {count? : Option Nat} (stands : Stands account? count?)
    (new : Account) : Stands (account?.or (count?.map fun _ => new)) count? := by
  cases stands with
  | unknown => exact .unknown
  | present positive left => exact .present positive left
  | gone left => exact .gone left

theorem Stands.of_count {account? : Option Account} {count : Nat} (stands : Stands account? (some count)) :
    0 < count ∧ ∃ account, account? = some account ∧ account.opened + account.acquired = account.released + count := by
  cases stands with
  | present positive left => exact ⟨positive, _, rfl, left⟩

/-- The accounts tell the references to all entries of a map. Accounts are those of numbers that were
    given out, and there were never more references in one of them than the given count. -/
structure Balances (most : Nat) (map : TempoMap S) (ledger : Ledger) : Prop where
  stands : ∀ id, Stands (ledger id) (map.references? id)
  issued : ∀ id account, ledger id = some account → id < map.nextId
  within : ∀ id account, ledger id = some account → account.opened + account.acquired ≤ most

section
variable {most more : Nat} {map after : TempoMap S} {ledger : Ledger}

theorem balances_blank (most identity : Nat) : Balances most (TempoMap.empty identity : TempoMap S) .blank :=
  ⟨fun _ => .unknown, nofun, nofun⟩

theorem Balances.mono (balances : Balances most map ledger) (le : most ≤ more) : Balances more map ledger :=
  ⟨balances.stands, balances.issued, fun id account known => Nat.le_trans (balances.within id account known) le⟩

theorem Balances.lt_nextId {id count : Nat} (balances : Balances most map ledger)
    (counted : map.references? id = some count) : id < map.nextId := by
  obtain ⟨_, account, known, _⟩ := (counted ▸ balances.stands id).of_count
  exact balances.issued id account known

/-- Each new entry has an account with the one reference of the map. -/
theorem Balances.grown (balances : Balances most map ledger) (room : 0 < most) (grown : TempoMap.Grown map after) :
    Balances most after (ledger.openedFor after) := by
  refine ⟨?_, ?_, ?_⟩
  · intro id
    rw [Ledger.openedFor]
    rcases grown.references id with same | ⟨fresh, _, single⟩
    · rw [same]
      exact (balances.stands id).or_opened _
    · cases known : ledger id with
      | none =>
        rw [single]
        exact .present Nat.one_pos rfl
      | some account => exact absurd (balances.issued id account known) (Nat.not_lt.mpr fresh)
  · intro id account known
    rcases Option.or_eq_some_iff.mp known with known | ⟨_, new⟩
    · exact Nat.lt_of_lt_of_le (balances.issued id account known) grown.next
    · obtain ⟨count, counted, _⟩ := Option.map_eq_some_iff.mp new
      rcases grown.references id with same | ⟨_, issued, _⟩
      · exact Nat.lt_of_lt_of_le (balances.lt_nextId (same ▸ counted)) grown.next
      · exact issued
  · intro id account known
    rcases Option.or_eq_some_iff.mp known with known | ⟨_, new⟩
    · exact balances.within id account known
    · obtain ⟨count, _, rfl⟩ := Option.map_eq_some_iff.mp new
      exact room

/-- One account changes as the references to its entry do, and all others stay. -/
theorem Balances.enter {id : Nat} {count? : Option Nat} {change : Account → Account}
    (balances : Balances most map ledger) (counted : TempoMap.Counted id count? map after)
    (own : Stands ((ledger id).map change) count?) (le : most ≤ more)
    (within : ∀ account, account.opened + account.acquired ≤ most →
      (change account).opened + (change account).acquired ≤ more) : Balances more after (ledger.enter id change) := by
  have cases {other : Nat} {account : Account} (known : ledger.enter id change other = some account) :
      ∃ before, ledger other = some before ∧ (account = before ∨ account = change before) := by
    rw [Ledger.enter] at known
    split at known
    · obtain ⟨before, found, rfl⟩ := Option.map_eq_some_iff.mp known
      exact ⟨before, found, .inr rfl⟩
    · exact ⟨account, known, .inl rfl⟩
  refine ⟨?_, ?_, ?_⟩
  · intro other
    rw [Ledger.enter, counted.references]
    by_cases here : other = id
    · rw [if_pos here, if_pos here, here]
      exact own
    · rw [if_neg here, if_neg here]
      exact balances.stands other
  · intro other account known
    obtain ⟨before, found, _⟩ := cases known
    exact counted.next ▸ balances.issued other before found
  · intro other account known
    obtain ⟨before, found, rfl | rfl⟩ := cases known
    · exact Nat.le_trans (balances.within other _ found) le
    · exact within before (balances.within other before found)

/-- A reference that is taken goes into the account of its entry. -/
theorem Balances.acquired {id count : Nat} (balances : Balances most map ledger)
    (before : map.references? id = some count) (counted : TempoMap.Counted id (some (count + 1)) map after) :
    Balances (most + 1) after (ledger.enter id Account.acquire) := by
  obtain ⟨_, account, known, left⟩ := (before ▸ balances.stands id).of_count
  refine balances.enter counted ?_ (Nat.le_succ most) (fun account bound => Nat.succ_le_succ bound)
  rw [known]
  refine .present (Nat.succ_pos count) ?_
  simp only [Account.acquire]
  omega

/-- A reference that is given back goes into the account of its entry; the last one leaves nothing. -/
theorem Balances.released {id count : Nat} (balances : Balances most map ledger)
    (before : map.references? id = some count)
    (counted : TempoMap.Counted id (if count ≤ 1 then none else some (count - 1)) map after) :
    Balances most after (ledger.enter id Account.release) := by
  obtain ⟨positive, account, known, left⟩ := (before ▸ balances.stands id).of_count
  refine balances.enter counted ?_ (Nat.le_refl most) (fun account bound => bound)
  rw [known]
  by_cases last : count ≤ 1
  · rw [if_pos last]
    refine .gone ?_
    simp only [Account.release]
    omega
  · rw [if_neg last]
    refine .present (by omega) ?_
    simp only [Account.release]
    omega

/-- No entry has more references than any account ever had. -/
theorem Balances.references_le {id count : Nat} (balances : Balances most map ledger)
    (counted : map.references? id = some count) : count ≤ most := by
  obtain ⟨_, account, known, left⟩ := (counted ▸ balances.stands id).of_count
  have bound := balances.within id account known
  omega

/-- The accounts of a copy are opened with the references that the map has. -/
theorem Balances.copied (balances : Balances most map ledger) (identity : Nat) :
    Balances most { map with identity := identity } (Ledger.copied map) := by
  refine ⟨?_, ?_, ?_⟩
  · intro id
    change Stands ((map.references? id).map _) (map.references? id)
    cases counted : map.references? id with
    | none => exact .unknown
    | some count => exact .present (counted ▸ balances.stands id).of_count.1 (Nat.add_comm count 0)
  · intro id account known
    obtain ⟨count, counted, _⟩ := Option.map_eq_some_iff.mp known
    exact balances.lt_nextId counted
  · intro id account known
    obtain ⟨count, counted, rfl⟩ := Option.map_eq_some_iff.mp known
    exact balances.references_le counted

theorem Balances.accountsFor (balances : Balances most map ledger) (ordered : map.Ordered) :
    ledger.AccountsFor map := by
  refine ⟨?_, ?_⟩
  · intro entry member
    obtain ⟨_, account, known, left⟩ := (ordered.references?_eq member ▸ balances.stands entry.id).of_count
    refine ⟨account, known, ?_⟩
    rw [Account.balance]
    omega
  · intro id account known
    have stands := balances.stands id
    rw [TempoMap.mem_ids_iff, Account.balance]
    rw [known] at stands
    generalize map.references? id = count? at stands
    cases stands with
    | present positive left => exact ⟨by omega, iff_of_true rfl (by omega)⟩
    | gone left => exact ⟨by omega, iff_of_false nofun (by omega)⟩

end

end MidiFile
