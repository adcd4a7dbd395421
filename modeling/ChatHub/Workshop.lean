import ChatHub.Gauges
import ChatHub.Tally
import ChatHub.WorkPool
/-!
# A pool at work

To see what a pool does, its tasks have to do something. The tasks of a workshop start, wait at a
gate until somebody opens it, and end: well, with a fault, or by breaking down. Whichever it is,
the worker books the end and looks for the next task; a fault or a breakdown leaves a line in the
error log and nothing else.

Workers take turns only where a task waits: `look` takes a worker from looking to the gate of the
task it found, `resume` takes it from an open gate to looking again. `settle` lets them go on until
nobody can. Every step uses up some of the work that is left, which is what bounds it.
-/

namespace ChatHub

/-- How a task ends. -/
inductive Ending where
  | well
  | fault (f : Fault)
  | breakdown (text : String)
deriving Repr, DecidableEq

namespace Ending

/-- The line in the error log, if the ending deserves one. -/
def complaint : Ending → Option String
  | well => none
  | fault f => some ("task failed: " ++ f.message)
  | breakdown text => some ("task panicked: " ++ text)

end Ending

/-- One task. -/
structure Job where
  id : Nat
  /-- The number of the call that handed it in. -/
  ticket : Nat
  ending : Ending
deriving Repr, DecidableEq

/-- What comes of asking a pool for something. -/
inductive PoolAnswer where
  /-- The task was taken in. -/
  | queued
  | refused (f : Fault)
  /-- Whether the gate was there. -/
  | opened (wasThere : Bool)
  /-- The handle of the pool has been let go, so there is nobody to ask. -/
  | noPool
  /-- It was done, and there is nothing to tell. -/
  | done
deriving Repr, DecidableEq

/-- Somebody who asked the pool to shut down. -/
structure Closer where
  /-- Whether it waits for the workers. -/
  waits : Bool
  returned : Bool
deriving Repr, DecidableEq

/-- A pool, its tasks, and the books. -/
structure Workshop where
  pool : WorkPool Job
  /-- Whether the handle of the pool is still held. -/
  held : Bool
  /-- The gates that are shut: the task's id and its ticket. -/
  gates : List (Nat × Nat)
  tickets : Nat
  /-- The tasks that were taken in, in the order of the calls. -/
  accepted : List Job
  /-- The tasks that a worker has begun, in that order. -/
  begun : List Job
  /-- The tasks that are over, in that order. -/
  ended : List Job
  /-- The error log. -/
  errors : List String
  /-- Whether the workers book into `tally`. -/
  sharesTally : Bool
  tally : Tally
  gauges : Gauges
  closers : List Closer
deriving Repr, DecidableEq

namespace Workshop

/-- A workshop with `size` workers. -/
def create (size : Nat) (sharesTally : Bool) : Except Fault Workshop := do
  let pool ← WorkPool.create size
  return { pool, held := true, gates := [], tickets := 0, accepted := [], begun := [],
           ended := [], errors := [], sharesTally, tally := .zero, gauges := .zero,
           closers := [] }

/-- The ids of the tasks that have started, in that order. -/
def started (w : Workshop) : List Nat := w.begun.map (·.id)

/-- The ids of the tasks that are finished, in that order. -/
def finished (w : Workshop) : List Nat := w.ended.map (·.id)

/-! ## From outside -/

/-- Hands in a task, with a shut gate if `gated`. -/
def enqueue (w : Workshop) (id : Nat) (gated : Bool) (ending : Ending) :
    PoolAnswer × Workshop :=
  let job : Job := { id, ticket := w.tickets, ending }
  match w.pool.enqueue job with
  | .error f => (.refused f, { w with tickets := w.tickets + 1 })
  | .ok pool =>
    (.queued,
      { w with
        pool
        tickets := w.tickets + 1
        accepted := w.accepted ++ [job]
        gates :=
          if gated then (id, w.tickets) :: w.gates.filter (·.1 != id) else w.gates
        gauges := { w.gauges with queued := w.pool.queue.length + 1 } })

/-- Opens a gate. -/
def release (w : Workshop) (id : Nat) : PoolAnswer × Workshop :=
  (.opened (w.gates.any (·.1 == id)), { w with gates := w.gates.filter (·.1 != id) })

/-- Somebody asks the pool to shut down. -/
def shutdown (w : Workshop) : Workshop :=
  let (waits, pool) := w.pool.shutdown
  { w with pool, closers := w.closers ++ [{ waits, returned := false }] }

/-- The handle of the pool is let go, which stops the pool. -/
def letGo (w : Workshop) : Workshop := { w with held := false, pool := w.pool.stop }

/-! ## The workers -/

/-- Whether nothing holds a task back. -/
def isOpen (w : Workshop) (job : Job) : Bool := !w.gates.any (·.2 == job.ticket)

/-- A worker looks for a task, and takes it to its gate. -/
def look (w : Workshop) (i : Nat) : Workshop :=
  let before := w.pool.taskOf? i
  let pool := w.pool.look i
  let w := { w with pool, gauges := { w.gauges with queued := pool.queue.length } }
  match before, pool.taskOf? i with
  | none, some job =>
    { w with
      begun := w.begun ++ [job]
      tally := if w.sharesTally then w.tally.workerBusy else w.tally
      gauges := { w.gauges with busyWorkers := w.gauges.busyWorkers + 1 } }
  | _, _ => w

/-- A worker takes its task through an open gate to its end. -/
def resume (w : Workshop) (i : Nat) : Workshop :=
  match w.pool.taskOf? i with
  | some job =>
    if w.isOpen job then
      { w with
        pool := w.pool.finish i
        ended := w.ended ++ [job]
        errors := w.errors ++ job.ending.complaint.toList
        tally := if w.sharesTally then w.tally.workerFree else w.tally
        gauges := { w.gauges with busyWorkers := w.gauges.busyWorkers - 1 } }
    else w
  | none => w

/-- Whoever waits for the shutdown finds out whether it is over. -/
def notice (w : Workshop) : Workshop :=
  { w with closers := w.closers.map fun c =>
      { c with returned := c.returned || !c.waits || w.pool.isDeserted } }

/-! ## Settling -/

/-- Whether a worker can go on. -/
def canGoOn (w : Workshop) (worker : Worker Job) : Bool :=
  match worker with
  | .awake => true
  | .busy job => w.isOpen job
  | _ => false

/-- The first worker that can go on does. -/
def step? (w : Workshop) : Option Workshop :=
  match w.pool.workers.findIdx? w.canGoOn with
  | none => none
  | some i => some (if (w.pool.taskOf? i).isSome then w.resume i else w.look i)

/-- How many steps are left at most: three for a task in the queue, two for one that a worker has,
and one for a worker about to look. -/
def effort (w : Workshop) : Nat :=
  3 * w.pool.queue.length + 2 * w.pool.workers.countP (·.isBusy)
    + w.pool.workers.countP (·.isAwake)

/-- Goes on for at most so many steps. -/
def run : (fuel : Nat) → Workshop → Workshop
  | 0, w => w
  | fuel + 1, w =>
    match w.step? with
    | none => w
    | some w => w.run fuel

/-- Lets the workers go on until nobody can. -/
def settle (w : Workshop) : Workshop := (w.run w.effort).notice

end Workshop

/-! ## Everything that can happen -/

/-- What can happen to a workshop: something from outside, a step of one worker, or as many steps as
there are. -/
inductive PoolMove where
  | enqueue (id : Nat) (gated : Bool) (ending : Ending)
  | release (id : Nat)
  | shutdown
  | letGo
  | look (worker : Nat)
  | resume (worker : Nat)
  | notice
  | settle
deriving Repr, DecidableEq

namespace Workshop

/-- Asks the pool for something, if its handle is still held. -/
def ifHeld (w : Workshop) (ask : PoolAnswer × Workshop) : PoolAnswer × Workshop :=
  if w.held then ask else (.noPool, w)

/-- The workshop after a move, and what came of it. -/
def act (w : Workshop) : PoolMove → PoolAnswer × Workshop
  | .enqueue id gated ending => w.ifHeld (w.enqueue id gated ending)
  | .release id => w.release id
  | .shutdown => w.ifHeld (.done, w.shutdown)
  | .letGo => w.ifHeld (.done, w.letGo)
  | .look i => (.done, w.look i)
  | .resume i => (.done, w.resume i)
  | .notice => (.done, w.notice)
  | .settle => (.done, w.settle)

/-- The pool in one line, if its handle is still held. -/
def summary? (w : Workshop) : Option String := if w.held then some w.pool.summary else none

end Workshop

end ChatHub
