import ChatHub.Fault
/-!
# The pool of workers

A fixed number of workers takes tasks from one queue, first come first served. A task here is the
whole life of a session, so the number of workers is the number of sessions at one time.

A worker with nothing to do is `parked`, and somebody has to wake it. Adding a task wakes the
worker that has been parked longest; if nobody is parked the call is kept as a `permit`, and the
next worker that is about to park takes the permit and looks once more. Stopping the pool wakes
everybody. A worker that looks and finds the queue empty parks, or goes home when the pool has been
stopped; so a stopped pool still works off its queue.

A worker does its looking in one go: between finding nothing and being on the list of the parked, no
task can slip in. That is why `look` is one step.

What a task does is no concern of this module. Its owner says when the task of a worker is over.
-/

namespace ChatHub

/-- What a worker does. -/
inductive Worker (τ : Type) where
  /-- About to look for a task. -/
  | awake
  /-- Waiting to be woken. -/
  | parked
  | busy (task : τ)
  /-- Gone home for good. -/
  | gone
deriving Repr, DecidableEq

namespace Worker

variable {τ : Type}

/-- Whether a worker has a task. -/
def isBusy : Worker τ → Bool
  | busy _ => true
  | _ => false

/-- Whether a worker is about to look for a task. -/
def isAwake : Worker τ → Bool
  | awake => true
  | _ => false

/-- Whether a worker has gone. -/
def isGone : Worker τ → Bool
  | gone => true
  | _ => false

/-- A parked worker wakes up. -/
def wake : Worker τ → Worker τ
  | parked => awake
  | w => w

end Worker

/-- The workers and what waits for them. -/
structure WorkPool (τ : Type) where
  workers : List (Worker τ)
  queue : List τ
  /-- The parked workers, the one that has been parked longest first. -/
  parked : List Nat
  /-- Whether a call found nobody parked. -/
  permit : Bool
  stopped : Bool
  /-- How many workers have a task. -/
  active : Nat
  /-- Whether somebody waits for the workers to go home. -/
  joined : Bool
deriving Repr, DecidableEq

namespace WorkPool

variable {τ : Type}

/-- A pool of `size` workers that have not looked yet. -/
def create (size : Nat) : Except Fault (WorkPool τ) :=
  if size = 0 then .error .poolSize
  else
    .ok
      { workers := List.replicate size .awake, queue := [], parked := [], permit := false,
        stopped := false, active := 0, joined := false }

/-- How many workers there are. -/
def size (p : WorkPool τ) : Nat := p.workers.length

/-- Whether all workers have gone home. -/
def isDeserted (p : WorkPool τ) : Bool := p.workers.all (·.isGone)

/-- Sets what a worker does. -/
def setWorker (p : WorkPool τ) (i : Nat) (w : Worker τ) : WorkPool τ :=
  { p with workers := p.workers.set i w }

/-- Wakes the worker that has been parked longest, or keeps the call as a permit. -/
def callOne (p : WorkPool τ) : WorkPool τ :=
  match p.parked with
  | [] => { p with permit := true }
  | i :: rest => { p with parked := rest, workers := p.workers.modify i Worker.wake }

/-- Adds a task at the end of the queue; a stopped pool takes none. -/
def enqueue (p : WorkPool τ) (task : τ) : Except Fault (WorkPool τ) :=
  if p.stopped then .error .poolStopped
  else .ok { p with queue := p.queue ++ [task] }.callOne

/-- Takes no more tasks and wakes everybody. -/
def stop (p : WorkPool τ) : WorkPool τ :=
  { p with stopped := true, parked := [], workers := p.workers.map Worker.wake }

/-- Stops the pool, and says whether the caller is the one to wait for the workers. Only the first
caller is: it takes the workers' handles, and later ones find none to wait for. -/
def shutdown (p : WorkPool τ) : Bool × WorkPool τ := (!p.joined, { p.stop with joined := true })

/-- A worker that is awake looks for a task: it takes the first one, or goes home, or parks. A
permit that it finds is used up in any case. -/
def look (p : WorkPool τ) (i : Nat) : WorkPool τ :=
  match p.workers[i]? with
  | some .awake =>
    let p := { p with permit := false }
    match p.queue with
    | task :: rest => { p.setWorker i (.busy task) with queue := rest, active := p.active + 1 }
    | [] =>
      if p.stopped then p.setWorker i .gone
      else { p.setWorker i .parked with parked := p.parked ++ [i] }
  | _ => p

/-- The task of a worker is over. -/
def finish (p : WorkPool τ) (i : Nat) : WorkPool τ :=
  match p.workers[i]? with
  | some (.busy _) => { p.setWorker i .awake with active := p.active - 1 }
  | _ => p

/-- The task of a worker. -/
def taskOf? (p : WorkPool τ) (i : Nat) : Option τ :=
  match p.workers[i]? with
  | some (.busy task) => some task
  | _ => none

/-- The pool in one line. -/
def summary (p : WorkPool τ) : String :=
  "WorkerPool \x7b size: " ++ toString p.size ++ ", active: " ++ toString p.active
    ++ ", queued: " ++ toString p.queue.length ++ ", stopped: " ++ toString p.stopped ++ " \x7d"

end WorkPool

end ChatHub
