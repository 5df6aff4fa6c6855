import MidiFile.Song

/-! # Playing a song

The tracks are played together: the next event is the one with the lowest tick among those that
the cursors are at, and at one tick the one of the first track. Seeking plays from the start up
to the event that is sought and stays in front of it.
-/

namespace MidiFile.Song

variable {S : Type}

/-- The earlier of two events, each given by its tick and its track; the first at one tick. -/
def earlier (best? : Option (Nat × Nat)) (candidate : Nat × Nat) : Option (Nat × Nat) :=
  match best? with
  | none => some candidate
  | some best => if candidate.1 < best.1 then some candidate else some best

/-- The ticks and tracks that the cursors are at. -/
def pending (song : Song S) : List (Nat × Nat) :=
  song.tracks.zipIdx.filterMap fun (track, number) =>
    if track.cursor.next?.isSome then some (track.cursor.tick, number) else none

/-- The track of the next event. -/
def nextTrack? (song : Song S) : Option Nat := (song.pending.foldl earlier none).map Prod.snd

/-- The next event; all cursors stay where they are. -/
def peek? (song : Song S) : Option (Event S) :=
  song.nextTrack?.bind fun number => song.tracks[number]?.bind Track.peek?

/-- The next event, and the song with the cursor behind it. -/
def next? (song : Song S) : Option (Event S × Song S) :=
  match song.nextTrack? with
  | none => none
  | some number =>
    match song.tracks[number]? with
    | none => none
    | some track =>
      match track.advance? with
      | none => none
      | some (event, track) => some (event, { song with tracks := song.tracks.set number track })

/-- The measures of all members of a list taken together. -/
def total {α : Type} (measure : α → Nat) (xs : List α) : Nat := xs.foldr (fun x sum => measure x + sum) 0

theorem total_set_lt {α : Type} (measure : α → Nat) {xs : List α} {i : Nat} {old new : α}
    (found : xs[i]? = some old) (less : measure new < measure old) :
    total measure (xs.set i new) < total measure xs := by
  induction xs generalizing i with
  | nil => simp at found
  | cons head tail ih =>
    cases i with
    | zero =>
      simp only [List.getElem?_cons_zero, Option.some.injEq] at found
      subst found
      simp only [total, List.set_cons_zero, List.foldr_cons]
      omega
    | succ i =>
      simp only [List.getElem?_cons_succ] at found
      have later := ih found
      simp only [total, List.set_cons_succ, List.foldr_cons] at later ⊢
      omega

def remaining (song : Song S) : Nat := total Track.remaining song.tracks

/-- Each event that is played is one less to be played. -/
theorem remaining_next? {song after : Song S} {event : Event S} (found : song.next? = some (event, after)) :
    after.remaining < song.remaining := by
  unfold next? at found
  split at found
  · simp at found
  · split at found
    · simp at found
    · rename_i number _ track here
      split at found
      · simp at found
      · rename_i event played advanced
        simp only [Option.some.injEq, Prod.mk.injEq] at found
        rw [← found.2]
        exact total_set_lt Track.remaining here (Track.remaining_advance? advanced)

/-- Play up to the given count of events behind those already played, which come in reverse order. -/
def playFrom (played : List (Event S)) : Nat → Song S → List (Event S) × Song S
  | 0, song => (played.reverse, song)
  | count + 1, song =>
    match song.next? with
    | none => (played.reverse, song)
    | some (event, song) => playFrom (event :: played) count song

def play (count : Nat) (song : Song S) : List (Event S) × Song S := playFrom [] count song

def playAll (song : Song S) : List (Event S) × Song S := song.play song.remaining

/-- Play on as long as the next event is one to pass. The result tells whether there is another;
    the time in seconds of that one is where the song stands then. -/
def seekWhile (pass : Event S → Bool) (song : Song S) : Bool × Song S :=
  match found : song.next? with
  | none => (false, { song with position? := none })
  | some (event, after) =>
    have : after.remaining < song.remaining := remaining_next? found
    if pass event then seekWhile pass after else (true, { song with position? := event.seconds? })
termination_by song.remaining

variable [Clock S]

/-- Go to the first event at or behind a tick. -/
def seekTick (tick : Nat) (song : Song S) : Bool × Song S := song.rewind.seekWhile (·.tick < tick)

/-- Go to the first event at or behind a time in seconds, which is then where the song stands. -/
def seekSeconds (seconds : S) (song : Song S) : Bool × Song S :=
  let (found, song) := song.rewind.seekWhile fun event => event.seconds?.all (Clock.lt · seconds)
  (found, if found then { song with position? := some seconds } else song)

/-- Go to the event of the given track and number. -/
def seekEvent (track number : Nat) (song : Song S) : Bool × Song S :=
  song.rewind.seekWhile fun event => event.track? != some track || event.number? != some number

end MidiFile.Song
