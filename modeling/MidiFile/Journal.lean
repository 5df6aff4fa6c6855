import MidiFile.Message.Basic

/-! # The journal: what is noted along the way

Operations note what a reader of a journal may want to know: files that were opened, parts that
were left out, entries of the tempo map that came and went. `Report` is the result of an
operation together with the records that it made, in order; the records made in front of a
fault are kept.
-/

namespace MidiFile

/-- How much a record matters. -/
inductive Level
  | warning
  | debug
  | trace
deriving DecidableEq, Repr

def Level.name : Level → String
  | .warning => "WARN"
  | .debug => "DEBUG"
  | .trace => "TRACE"

inductive Record (S : Type)
  | opened (format tracks entries bytes : Nat)
  | saved (tracks bytes : Nat)
  | chunkSkipped (name : List UInt8)
  | bytesIgnored (count : Nat)
  | tracksIgnored (count : Nat)
  | eventsIgnored (bytes : Nat)
  | endMissing (track : Nat)
  | seekTick (tick : Nat)
  | seekSeconds (seconds : S)
  | seekEvent (track event : Nat)
  | registered (entry tick : Nat) (tempo? : Option Nat) (signature? : Option TimeSignature)
  | acquired (entry references : Nat)
  | released (entry references : Nat)
  | evicted (entry : Nat)
deriving DecidableEq, Repr

def Record.level {S : Type} : Record S → Level
  | opened .. | saved .. | chunkSkipped .. | seekTick .. | seekSeconds .. | seekEvent .. => .debug
  | bytesIgnored .. | tracksIgnored .. | eventsIgnored .. | endMissing .. => .warning
  | registered .. | acquired .. | released .. | evicted .. => .trace

/-- The result of an operation and the records made on the way. -/
structure Report (S α : Type) where
  result : Except Fault α
  records : List (Record S)

namespace Report

variable {S α β : Type}

def ofExcept (result : Except Fault α) : Report S α := ⟨result, []⟩

/-- Records on their own. -/
def note (records : List (Record S)) : Report S Unit := ⟨.ok (), records⟩

def fail (fault : Fault) : Report S α := ⟨.error fault, []⟩

def ensure (condition : Bool) (fault : Fault) : Report S Unit := ⟨Fault.ensure condition fault, []⟩

/-- Do one thing after another; the records of a first that fails are all there are. -/
def andThen (first : Report S α) (next : α → Report S β) : Report S β :=
  match first.result with
  | .error fault => ⟨.error fault, first.records⟩
  | .ok value => ⟨(next value).result, first.records ++ (next value).records⟩

instance : Monad (Report S) where
  pure value := ⟨.ok value, []⟩
  bind := andThen

@[simp] theorem result_pure (value : α) : (pure value : Report S α).result = .ok value := rfl
@[simp] theorem result_ofExcept (result : Except Fault α) : (ofExcept result : Report S α).result = result := rfl
@[simp] theorem result_note (records : List (Record S)) : (note records).result = .ok () := rfl
@[simp] theorem result_ensure (condition : Bool) (fault : Fault) :
    (ensure condition fault : Report S Unit).result = Fault.ensure condition fault := rfl
@[simp] theorem result_fail (fault : Fault) : (fail fault : Report S α).result = .error fault := rfl

/-- The results follow one another like results without records. -/
@[simp] theorem result_bind (first : Report S α) (next : α → Report S β) :
    (first >>= next).result = first.result.bind fun value => (next value).result := by
  change (andThen first next).result = _
  unfold andThen
  cases first.result <;> rfl

/-- Put the results of a list of operations behind those that are there already, up to the first
    fault. What is there comes in reverse order. -/
def gatherFrom (values : List α) (records : List (Record S)) : List (Report S α) → Report S (List α)
  | [] => ⟨.ok values.reverse, records.reverse⟩
  | report :: rest =>
    let records := report.records.reverse ++ records
    match report.result with
    | .error fault => ⟨.error fault, records.reverse⟩
    | .ok value => gatherFrom (value :: values) records rest

/-- The results of a list of operations, up to the first fault. -/
def gather (reports : List (Report S α)) : Report S (List α) := gatherFrom [] [] reports

end Report

end MidiFile
