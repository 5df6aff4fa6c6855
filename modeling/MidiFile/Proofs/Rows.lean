import MidiFile.Journal
import Mathlib.Data.List.Forall2
import Mathlib.Data.List.Sort

/-! # Rows of values and of results

A row of operations that all succeed gives a row of results, one for each (`mapM_ok_iff`). Two rows
taken together keep what depends on one of them only. Values that go into a row by a key (`insertBy`)
can go in either way round when their keys differ.

However work on many tracks is shared out, all of it succeeds or none (`Workers.collect_ok_iff`), and a
fault is that of one of the tracks (`Workers.mem_of_collect`), of the first that failed if there was
little to do (`Workers.collect_of_small`).
-/

namespace MidiFile

variable {α β γ δ ε : Type}

theorem bind_ok_iff {first : Except ε α} {next : α → Except ε β} {y : β} :
    first.bind next = .ok y ↔ ∃ x, first = .ok x ∧ next x = .ok y := by
  cases first <;> simp [Except.bind]

theorem map_ok_iff {result : Except ε α} {change : α → β} {y : β} :
    result.map change = .ok y ↔ ∃ x, result = .ok x ∧ change x = y := by
  cases result <;> simp [Except.map]

/-- A step that goes on with another from the state that it leaves. -/
theorem step_bind_ok_iff {σ : Type} {step : EStateM ε σ α} {next : α → EStateM ε σ β} {before after : σ} {y : β} :
    (step >>= next) before = .ok y after ↔ ∃ x between, step before = .ok x between ∧ next x between = .ok y after := by
  change EStateM.bind step next before = _ ↔ _
  rw [EStateM.bind]
  cases step before <;> simp [and_assoc]

@[simp] theorem ensure_ok_iff {condition : Bool} {fault : Fault} {nothing : Unit} :
    Fault.ensure condition fault = .ok nothing ↔ condition = true := by
  cases condition <;> simp [Fault.ensure]

@[simp] theorem guard_ok_iff {context : Context} {result : Except Fault α} {x : α} :
    Fault.guard context result = .ok x ↔ result = .ok x := by
  cases result <;> simp [Fault.guard]

theorem mapM_ok_iff {operation : α → Except ε β} {xs : List α} {ys : List β} :
    xs.mapM operation = .ok ys ↔ List.Forall₂ (fun x y => operation x = .ok y) xs ys := by
  induction xs generalizing ys with
  | nil => cases ys <;> simp [pure, Except.pure]
  | cons x xs ih =>
    rw [List.mapM_cons, List.forall₂_cons_left_iff]
    cases first : operation x with
    | error fault => simp [bind, Except.bind]
    | ok y =>
      cases rest : xs.mapM operation with
      | error fault =>
        simp only [bind, Except.bind, reduceCtorEq, false_iff, not_exists, not_and]
        intro y' ys' _ later
        rw [← ih, rest] at later
        cases later
      | ok others =>
        simp only [bind, Except.bind, pure, Except.pure, Except.ok.injEq]
        constructor
        · rintro rfl
          exact ⟨y, others, rfl, ih.mp rest, rfl⟩
        · rintro ⟨_, ys', rfl, later, rfl⟩
          rw [← ih, rest] at later
          cases later
          rfl

theorem length_of_mapM_ok {operation : α → Except ε β} {xs : List α} {ys : List β} (done : xs.mapM operation = .ok ys) :
    xs.length = ys.length :=
  (mapM_ok_iff.mp done).length_eq

theorem exists_forall₂ {related : α → β → Prop} {xs : List α} (all : ∀ x ∈ xs, ∃ y, related x y) :
    ∃ ys, List.Forall₂ related xs ys := by
  induction xs with
  | nil => exact ⟨[], .nil⟩
  | cons x xs ih =>
    obtain ⟨⟨y, first⟩, later⟩ := List.forall_mem_cons.mp all
    obtain ⟨ys, rest⟩ := ih later
    exact ⟨y :: ys, .cons first rest⟩

/-- Behind the first members of a property there are no more of them when they all stand in front. -/
theorem not_of_mem_dropWhile {good : α → Bool} {xs : List α}
    (falling : xs.Pairwise fun earlier later => good later = true → good earlier = true) {x : α}
    (member : x ∈ xs.dropWhile good) : good x = false := by
  induction xs with
  | nil => cases member
  | cons first rest ih =>
    obtain ⟨before, later⟩ := List.pairwise_cons.mp falling
    by_cases here : good first = true
    · rw [List.dropWhile_cons_of_pos here] at member
      exact ih later member
    · rw [List.dropWhile_cons_of_neg here] at member
      rcases List.mem_cons.mp member with rfl | among
      · exact Bool.eq_false_iff.mpr here
      · exact Bool.eq_false_iff.mpr fun there => here (before x among there)

theorem exists_of_mem_right {related : α → β → Prop} {xs : List α} {ys : List β} (all : List.Forall₂ related xs ys)
    {y : β} (member : y ∈ ys) : ∃ x ∈ xs, related x y := by
  induction all with
  | nil => cases member
  | cons first rest ih =>
    rcases List.mem_cons.mp member with rfl | later
    · exact ⟨_, List.mem_cons_self, first⟩
    · obtain ⟨x, among, together⟩ := ih later
      exact ⟨x, List.mem_cons_of_mem _ among, together⟩

theorem exists_mapM_ok_iff {operation : α → Except ε β} {xs : List α} :
    (∃ ys, xs.mapM operation = .ok ys) ↔ ∀ x ∈ xs, ∃ y, operation x = .ok y := by
  constructor
  · rintro ⟨ys, done⟩ x member
    obtain ⟨y, _, made⟩ := exists_of_mem_right (mapM_ok_iff.mp done).flip member
    exact ⟨y, made⟩
  · intro all
    obtain ⟨ys, made⟩ := exists_forall₂ all
    exact ⟨ys, mapM_ok_iff.mpr made⟩

/-- Two rows that went together go together in another way when one place changes in both. -/
theorem forall₂_set_modify_imp {related related' : α → β → Prop} {xs : List α} {ys : List β}
    (all : List.Forall₂ related xs ys) (kept : ∀ x y, related x y → related' x y) {place : Nat} {x new : α}
    (here : xs[place]? = some x) {change : β → β} (changed : ∀ y, related x y → related' new (change y)) :
    List.Forall₂ related' (xs.set place new) (ys.modify place change) := by
  induction all generalizing place with
  | nil => simp at here
  | cons first rest ih =>
    cases place with
    | zero =>
      cases here
      exact .cons (changed _ first) (rest.imp kept)
    | succ place => exact .cons (kept _ _ first) (ih (by simpa using here))

/-- Two rows that go together still do when one place changes in both. -/
theorem forall₂_set_modify {related : α → β → Prop} {xs : List α} {ys : List β} (all : List.Forall₂ related xs ys)
    {place : Nat} {x new : α} (here : xs[place]? = some x) {change : β → β}
    (changed : ∀ y, related x y → related new (change y)) :
    List.Forall₂ related (xs.set place new) (ys.modify place change) :=
  forall₂_set_modify_imp all (fun _ _ together => together) here changed

/-- A row and the same row with one place changed. -/
theorem forall₂_set {related : α → α → Prop} (refl : ∀ x, related x x) {xs : List α} {place : Nat} {x new : α}
    (here : xs[place]? = some x) (changed : related x new) : List.Forall₂ related xs (xs.set place new) := by
  induction xs generalizing place with
  | nil => simp at here
  | cons first rest ih =>
    cases place with
    | zero =>
      cases here
      exact .cons changed (List.forall₂_same.mpr fun x _ => refl x)
    | succ place => exact .cons (refl first) (ih (by simpa using here))

theorem exists_getElem?_right {related : α → β → Prop} {xs : List α} {ys : List β} (all : List.Forall₂ related xs ys)
    {place : Nat} {x : α} (here : xs[place]? = some x) : ∃ y, ys[place]? = some y ∧ related x y := by
  obtain ⟨inside, rfl⟩ := List.getElem?_eq_some_iff.mp here
  exact ⟨_, List.getElem?_eq_getElem (all.length_eq ▸ inside), all.get inside (all.length_eq ▸ inside)⟩

theorem map_eq_of_forall₂ {f : α → γ} {g : β → γ} {xs : List α} {ys : List β}
    (all : List.Forall₂ (fun x y => g y = f x) xs ys) : ys.map g = xs.map f := by
  induction all with
  | nil => rfl
  | cons same rest ih => rw [List.map_cons, List.map_cons, same, ih]

theorem forall₂_of_map_eq {f : α → γ} {g : β → γ} {xs : List α} {ys : List β} (same : ys.map g = xs.map f) :
    List.Forall₂ (fun x y => g y = f x) xs ys := by
  induction xs generalizing ys with
  | nil =>
    rw [List.map_eq_nil_iff.mp same]
    exact .nil
  | cons x xs ih =>
    obtain ⟨y, ys, rfl, first, rest⟩ := List.map_eq_cons_iff.mp same
    exact .cons first (ih rest)

/-- Two rows that go together, and what is known of the second. -/
theorem forall₂_and_right {related : α → β → Prop} {good : β → Prop} {xs : List α} {ys : List β}
    (all : List.Forall₂ related xs ys) (each : ∀ y ∈ ys, good y) : List.Forall₂ (fun x y => related x y ∧ good y) xs ys := by
  induction all with
  | nil => exact .nil
  | cons first rest ih =>
    obtain ⟨here, later⟩ := List.forall_mem_cons.mp each
    exact .cons ⟨first, here⟩ (ih later)

/-- Two rows that each go together with a third one. -/
theorem forall₂_join {first : α → β → Prop} {second : α → γ → Prop} {joined : β → γ → Prop} {xs : List α} {ys : List β}
    {zs : List γ} (left : List.Forall₂ first xs ys) (right : List.Forall₂ second xs zs)
    (join : ∀ x y z, first x y → second x z → joined y z) : List.Forall₂ joined ys zs := by
  induction left generalizing zs with
  | nil =>
    cases right
    exact .nil
  | cons together rest ih =>
    cases right with
    | cons beside others => exact .cons (join _ _ _ together beside) (ih others)

theorem exists_of_mem_zipWith {combine : α → β → γ} {xs : List α} {ys : List β} {z : γ}
    (member : z ∈ List.zipWith combine xs ys) : ∃ x y, x ∈ xs ∧ z = combine x y := by
  have pairs : List.zipWith combine xs ys = (xs.zip ys).map fun pair => combine pair.1 pair.2 := by
    rw [List.map_zip_eq_zipWith]
    rfl
  obtain ⟨⟨x, y⟩, among, rfl⟩ := List.mem_map.mp (pairs ▸ member)
  exact ⟨x, y, (List.of_mem_zip among).1, rfl⟩

/-- What depends on the first of two rows only. -/
theorem map_zipWith_left {combine : α → β → γ} {part : γ → δ} {own : α → δ}
    (same : ∀ x y, part (combine x y) = own x) {xs : List α} {ys : List β} (enough : xs.length ≤ ys.length) :
    (List.zipWith combine xs ys).map part = xs.map own := by
  induction xs generalizing ys with
  | nil => rfl
  | cons x xs ih =>
    cases ys with
    | nil => simp at enough
    | cons y ys => rw [List.zipWith_cons_cons, List.map_cons, List.map_cons, same, ih (by simpa using enough)]

/-- What depends on the second of two rows only. -/
theorem map_zipWith_right {combine : α → β → γ} {part : γ → δ} {own : β → δ}
    (same : ∀ x y, part (combine x y) = own y) {xs : List α} {ys : List β} (enough : ys.length ≤ xs.length) :
    (List.zipWith combine xs ys).map part = ys.map own := by
  rw [List.zipWith_comm]
  exact map_zipWith_left (fun y x => same x y) enough

/-! ## Work that is shared out -/

namespace Workers

variable [Workers] {size : Nat} {results : List (Except Fault α)}

theorem collect_ok_iff {values : List α} : collect size results = .ok values ↔ results.mapM id = .ok values := by
  rw [collect]
  cases results.mapM id <;> simp

omit [Workers] in
/-- The first fault is the one in front. -/
theorem faults_of_mapM {first : Fault} (failed : results.mapM id = .error first) : (faults results).head? = some first := by
  induction results with
  | nil => cases failed
  | cons result rest ih =>
    cases result with
    | error fault =>
      cases failed
      rfl
    | ok value =>
      rw [List.mapM_cons] at failed
      cases later : rest.mapM id with
      | ok values => simp [later, bind, Except.bind, pure, Except.pure] at failed
      | error fault =>
        simp only [id_eq, later, bind, Except.bind, Except.error.injEq] at failed
        exact ih (failed ▸ later)

omit [Workers] in
theorem mem_faults {fault : Fault} : fault ∈ faults results ↔ .error fault ∈ results := by
  rw [faults, List.mem_filterMap]
  constructor
  · rintro ⟨result, member, found⟩
    cases result with
    | ok value => cases found
    | error other => exact Option.some.inj found ▸ member
  · exact fun member => ⟨_, member, rfl⟩

/-- The fault that is told is that of some track. -/
theorem mem_of_collect {fault : Fault} (failed : collect size results = .error fault) : .error fault ∈ results := by
  rw [collect] at failed
  cases done : results.mapM id with
  | ok values => simp [done] at failed
  | error first =>
    obtain ⟨others, whole⟩ := List.head?_eq_some_iff.mp (faults_of_mapM done)
    rw [← mem_faults]
    simp only [done, Except.error.injEq] at failed
    rw [whole, List.tail_cons] at failed
    rw [whole, ← failed]
    split
    · exact List.mem_cons_self
    · exact told_mem first others

/-- Where there is little to do, the fault is that of the first track that failed. -/
theorem collect_of_small (small : size < threshold) : collect size results = results.mapM id := by
  rw [collect]
  cases results.mapM id with
  | ok values => rfl
  | error first => simp only [if_pos small]

end Workers

theorem map_eq_self {change : α → α} {xs : List α} (kept : ∀ x ∈ xs, change x = x) : xs.map change = xs :=
  (List.map_congr_left kept).trans (List.map_id xs)

theorem map_modify {change : α → α} {changed : β → β} {part : α → β} (same : ∀ x, part (change x) = changed (part x))
    (xs : List α) (place : Nat) : (xs.modify place change).map part = (xs.map part).modify place changed := by
  induction xs generalizing place with
  | nil => simp
  | cons x xs ih =>
    cases place with
    | zero => simp [same]
    | succ place => simp [ih]

/-- What holds of all still does when one of them is changed in a way that keeps it. -/
theorem forall_mem_modify {good : α → Prop} {xs : List α} (all : ∀ x ∈ xs, good x) {change : α → α}
    (kept : ∀ x, good x → good (change x)) (place : Nat) : ∀ x ∈ xs.modify place change, good x := by
  intro x member
  obtain ⟨number, inside, rfl⟩ := List.getElem_of_mem member
  rw [List.getElem_modify]
  split
  · exact kept _ (all _ (List.getElem_mem _))
  · exact all _ (List.getElem_mem _)

/-- What is done at a place is a matter of what stands there. -/
theorem modify_congr {xs : List α} {place : Nat} {x : α} (here : xs[place]? = some x) {change changed : α → α}
    (same : change x = changed x) : xs.modify place change = xs.modify place changed := by
  apply List.ext_getElem?
  intro other
  by_cases there : place = other
  · subst there
    simp [here, same]
  · simp [there]

theorem set_eq_modify {xs : List α} {place : Nat} {x : α} (here : xs[place]? = some x) (change : α → α) :
    xs.set place (change x) = xs.modify place change := by
  apply List.ext_getElem?
  intro other
  by_cases there : place = other
  · subst there
    rw [List.getElem?_set_self (List.getElem?_eq_some_iff.mp here).1]
    simp [here]
  · simp [there]

section
variable {key : α → Nat}

/-- A value in its place in a row, behind all others whose key is not greater. -/
def insertBy (key : α → Nat) (x : α) (xs : List α) : List α := xs.orderedInsert (fun new old => key new < key old) x

theorem insertBy_eq (key : α → Nat) (x : α) (xs : List α) :
    insertBy key x xs = xs.takeWhile (key · ≤ key x) ++ x :: xs.dropWhile (key · ≤ key x) := by
  simp only [insertBy, List.orderedInsert_eq_take_drop, Nat.not_lt]

@[simp] theorem mem_insertBy {x y : α} {xs : List α} : y ∈ insertBy key x xs ↔ y = x ∨ y ∈ xs := List.mem_orderedInsert _

/-- What keeps the keys may be done before or after. -/
theorem map_insertBy {other : β → Nat} {change : α → β} (kept : ∀ x, other (change x) = key x) (x : α) (xs : List α) :
    (insertBy key x xs).map change = insertBy other (change x) (xs.map change) :=
  List.map_orderedInsert _ _ change xs x (fun _ _ => by rw [kept, kept]) (fun _ _ => by rw [kept, kept])

theorem insertBy_cons (x first : α) (rest : List α) :
    insertBy key x (first :: rest) = if key x < key first then x :: first :: rest else first :: insertBy key x rest := rfl

/-- Values of different keys go in either way round. -/
theorem insertBy_comm {x y : α} (apart : key x ≠ key y) (xs : List α) :
    insertBy key x (insertBy key y xs) = insertBy key y (insertBy key x xs) := by
  wlog less : key x < key y generalizing x y
  · exact (this apart.symm (by omega)).symm
  have notLess : ¬key y < key x := by omega
  induction xs with
  | nil =>
    show insertBy key x [y] = insertBy key y [x]
    rw [insertBy_cons, insertBy_cons, if_pos less, if_neg notLess]
    rfl
  | cons first rest ih =>
    by_cases behind : key first ≤ key x
    · -- Both go behind the first value.
      have xBehind : ¬key x < key first := by omega
      have yBehind : ¬key y < key first := by omega
      simp only [insertBy_cons, if_neg xBehind, if_neg yBehind, ih]
    · have xAhead : key x < key first := by omega
      by_cases between : key y < key first
      · simp only [insertBy_cons, if_pos xAhead, if_pos between, if_pos less, if_neg notLess]
      · simp only [insertBy_cons, if_pos xAhead, if_neg between, if_neg notLess]

end

end MidiFile
