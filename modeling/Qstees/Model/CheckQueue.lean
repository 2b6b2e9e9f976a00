import Qstees.Library.Runs

/-!
# The queue of script checks

A master adds checks and then joins the workers in `Loop` until all of them are done. Between two
critical sections a thread runs the checks of its batch. A thread that waits may wake up at any time,
so notifications are left out, and so is what unsigned counters do beyond 2^32 checks.
-/

namespace Qstees

/-- `queue` has its back first. -/
structure CCheckQueue (T : Type) where
  queue : List T := []
  nIdle : Nat := 0
  nTotal : Nat := 0
  fAllOk : Bool := true
  nTodo : Nat := 0
deriving DecidableEq, Repr

/-- Where a thread is in `Loop`, with the checks of its batch that it has not run. -/
inductive LoopState (T : Type) where
  | start
  | waiting
  | working (vChecks : List T) (nNow : ℕ+) (fOk : Bool)
deriving DecidableEq

namespace CCheckQueue

variable {T : Type}

def add (q : CCheckQueue T) (vChecks : List T) : CCheckQueue T :=
  { q with queue := vChecks.reverse ++ q.queue, nTodo := q.nTodo + vChecks.length }

def batchSize (nBatchSize : Nat) (q : CCheckQueue T) : ℕ+ :=
  ⟨max 1 (min nBatchSize (q.queue.length / (q.nTotal + q.nIdle + 1))), by simp⟩

/-- The beginning of a critical section of `Loop`; there is none while the batch has checks left. -/
def release (q : CCheckQueue T) : LoopState T → Option (CCheckQueue T)
  | .start => some { q with nTotal := q.nTotal + 1 }
  | .waiting => some { q with nIdle := q.nIdle - 1 }
  | .working [] nNow fOk => some { q with fAllOk := q.fAllOk && fOk, nTodo := q.nTodo - nNow }
  | .working (_ :: _) _ _ => none

/-- The critical section from the test of the queue on, with what `Wait` returns. -/
def fetch (nBatchSize : Nat) (fMaster : Bool) (q : CCheckQueue T) : Option Bool × LoopState T × CCheckQueue T :=
  if q.queue.isEmpty then
    if fMaster && q.nTodo == 0 then (some q.fAllOk, .start, { q with nTotal := q.nTotal - 1, fAllOk := true })
    else (none, .waiting, { q with nIdle := q.nIdle + 1 })
  else
    let nNow := q.batchSize nBatchSize
    (none, .working (q.queue.take nNow) nNow q.fAllOk, { q with queue := q.queue.drop nNow })

def enter (nBatchSize : Nat) (fMaster : Bool) (q : CCheckQueue T) (thread : LoopState T) :
    Option Bool × LoopState T × CCheckQueue T :=
  match q.release thread with
  | some q => q.fetch nBatchSize fMaster
  | none => (none, thread, q)

end CCheckQueue

/-- `if (fOk) fOk = check();` for the next check of the batch. -/
def LoopState.execute {T : Type} (check : T → Bool) : LoopState T → LoopState T
  | .working (c :: vChecks) nNow fOk => .working vChecks nNow (if fOk then check c else fOk)
  | thread => thread

/-- The queue and its threads, the checks added in this session and what `Wait` has returned. The master
is the thread `none`, which is at `start` until it calls `Wait`. -/
structure CheckSession (T : Type) (n : Nat) where
  q : CCheckQueue T := {}
  threads : Option (Fin n) → LoopState T := fun _ => .start
  added : List T := []
  result : Option Bool := none

/-- What may happen next: a call of `Add`, a critical section or a check of a thread, and once `Wait` has
returned the next `CCheckQueueControl`. -/
inductive CheckAction (T : Type) (n : Nat) where
  | add (vChecks : List T)
  | enter (thread : Option (Fin n))
  | execute (thread : Option (Fin n))
  | control

/-- One action on the queue. -/
def CheckSession.step {T : Type} {n : Nat} (check : T → Bool) (nBatchSize : Nat) (s : CheckSession T n) :
    CheckAction T n → CheckSession T n
  | .add vChecks =>
    match s.result, s.threads none with
    | none, .start => { s with q := s.q.add vChecks, added := s.added ++ vChecks }
    | _, _ => s
  | .enter thread =>
    if thread.isNone && s.result.isSome then s
    else
      let next := s.q.enter nBatchSize thread.isNone (s.threads thread)
      { s with q := next.2.2, threads := Function.update s.threads thread next.2.1, result := s.result.or next.1 }
  | .execute thread => { s with threads := Function.update s.threads thread ((s.threads thread).execute check) }
  | .control => if s.result.isSome then { s with added := [], result := none } else s

end Qstees
