import ChatHub.Proofs.WorkPool.FirstCome
/-!
# How a task ends is its own affair

A fault or a breakdown leaves a line in the error log and nothing else. To see it, take a workshop
and suppose that all its tasks end well: the tasks are the same but for that, and the log is empty
(`Workshop.well`). Whatever happens then happens as it did (`well_act`), since a worker that comes
to the end of a task does the same things whatever the end is like. Two workshops that differ in
nothing but the endings of their tasks become one in this way, so they are never seen to differ.

What the pool does with its tasks depends on no task at all. That is said for tasks of any sort, by
exchanging all of them at once (`WorkPool.map`).
-/

namespace ChatHub

/-! ## A pool with other tasks -/

variable {σ τ : Type}

namespace Worker

/-- The worker with something else in place of its task. -/
def map (f : σ → τ) : Worker σ → Worker τ
  | awake => .awake
  | parked => .parked
  | busy task => .busy (f task)
  | gone => .gone

variable (f : σ → τ) (w : Worker σ)

theorem map_wake : w.wake.map f = (w.map f).wake := by
  cases w <;> rfl

@[simp] theorem isBusy_map : (w.map f).isBusy = w.isBusy := by
  cases w <;> rfl

@[simp] theorem isAwake_map : (w.map f).isAwake = w.isAwake := by
  cases w <;> rfl

@[simp] theorem isGone_map : (w.map f).isGone = w.isGone := by
  cases w <;> rfl

end Worker

namespace WorkPool

/-- The pool with something else in place of each of its tasks. -/
def map (f : σ → τ) (p : WorkPool σ) : WorkPool τ :=
  { workers := p.workers.map (Worker.map f), queue := p.queue.map f, parked := p.parked,
    permit := p.permit, stopped := p.stopped, active := p.active, joined := p.joined }

variable (f : σ → τ) (p : WorkPool σ)

@[simp] theorem size_map : (p.map f).size = p.size := by
  simp [size, map]

@[simp] theorem isDeserted_map : (p.map f).isDeserted = p.isDeserted := by
  simp [isDeserted, map, Function.comp_def]

theorem summary_map : (p.map f).summary = p.summary := by
  have hlength : (p.map f).queue.length = p.queue.length := List.length_map _
  have hactive : (p.map f).active = p.active := rfl
  have hstopped : (p.map f).stopped = p.stopped := rfl
  unfold summary
  rw [size_map, hactive, hlength, hstopped]

theorem getElem?_map_workers (i : Nat) :
    (p.map f).workers[i]? = p.workers[i]?.map (Worker.map f) := by
  simp [map]

theorem taskOf?_map (i : Nat) : (p.map f).taskOf? i = (p.taskOf? i).map f := by
  unfold taskOf?
  rw [getElem?_map_workers]
  cases p.workers[i]? with
  | none => rfl
  | some w => cases w <;> rfl

theorem map_callOne : p.callOne.map f = (p.map f).callOne := by
  have hmodify : ∀ i, (p.workers.modify i Worker.wake).map (Worker.map f) =
      (p.workers.map (Worker.map f)).modify i Worker.wake := by
    intro i
    refine List.ext_getElem? fun j => ?_
    simp only [List.getElem?_map, List.getElem?_modify]
    split <;> simp [Worker.map_wake, Function.comp_def]
  cases hparked : p.parked with
  | nil => simp [callOne, map, hparked]
  | cons i rest => simp [callOne, map, hparked, hmodify]

theorem enqueue_map (task : σ) :
    (p.map f).enqueue (f task) = (p.enqueue task).map (WorkPool.map f) := by
  cases hstop : p.stopped with
  | true =>
    rw [enqueue_of_stopped hstop, enqueue_of_stopped (p := p.map f) hstop]
    rfl
  | false =>
    have happend : ({ p.map f with queue := (p.map f).queue ++ [f task] } : WorkPool τ) =
        ({ p with queue := p.queue ++ [task] } : WorkPool σ).map f := by
      simp [map]
    rw [enqueue_of_open hstop, enqueue_of_open (p := p.map f) hstop, happend, ← map_callOne]
    rfl

theorem map_stop : p.stop.map f = (p.map f).stop := by
  simp [stop, map, Function.comp_def, Worker.map_wake]

theorem map_shutdown : p.shutdown.2.map f = (p.map f).shutdown.2 := by
  show ({ p.stop.map f with joined := true } : WorkPool τ) = _
  rw [map_stop]
  rfl

/-- A worker looks whether there is a task, and not what it is like. -/
theorem map_look (i : Nat) : (p.look i).map f = (p.map f).look i := by
  have hget := p.getElem?_map_workers f i
  have hqueue : (p.map f).queue = p.queue.map f := rfl
  have hstopped : (p.map f).stopped = p.stopped := rfl
  have hlooked := p.looked i
  generalize p.look i = q at hlooked
  unfold look
  cases hlooked with
  | notAwake h =>
    rw [hget]
    cases hi : p.workers[i]? with
    | none => rfl
    | some w =>
      cases w with
      | awake => exact absurd hi h
      | _ => rfl
  | @takes task rest h htask =>
    rw [hget, h]
    simp only [Option.map_some, Worker.map, hqueue, htask, List.map_cons]
    simp [map, setWorker, List.map_set, Worker.map]
  | leaves h hempty hstop =>
    rw [hget, h]
    simp only [Option.map_some, Worker.map, hqueue, hempty, List.map_nil, hstopped, hstop, if_true]
    simp [map, setWorker, List.map_set, Worker.map, hempty, hstop]
  | parks h hempty hopen =>
    rw [hget, h]
    simp only [Option.map_some, Worker.map, hqueue, hempty, List.map_nil, hstopped, hopen,
      Bool.false_eq_true, if_false]
    simp [map, setWorker, List.map_set, Worker.map, hempty, hopen]

theorem map_finish (i : Nat) : (p.finish i).map f = (p.map f).finish i := by
  unfold finish
  rw [getElem?_map_workers]
  cases p.workers[i]? with
  | none => rfl
  | some w =>
    cases w with
    | busy task => simp [Worker.map, map, setWorker, List.map_set]
    | _ => rfl

end WorkPool

/-! ## If all tasks ended well -/

/-- The task, if it ends well. -/
def Job.well (job : Job) : Job := { job with ending := .well }

/-- The same move, with a task that ends well. -/
def PoolMove.well : PoolMove → PoolMove
  | enqueue id gated _ => enqueue id gated .well
  | m => m

namespace Workshop

/-- The workshop, if all its tasks end well. -/
def well (w : Workshop) : Workshop :=
  { w with
    pool := w.pool.map Job.well
    accepted := w.accepted.map Job.well
    begun := w.begun.map Job.well
    ended := w.ended.map Job.well
    errors := [] }

variable (w : Workshop)

theorem well_look (i : Nat) : (w.look i).well = w.well.look i := by
  have hbefore : w.well.pool.taskOf? i = (w.pool.taskOf? i).map Job.well :=
    w.pool.taskOf?_map _ i
  have hpool : w.well.pool.look i = (w.pool.look i).map Job.well := (w.pool.map_look _ i).symm
  unfold look
  dsimp only
  rw [hbefore, hpool, WorkPool.taskOf?_map]
  cases w.pool.taskOf? i with
  | some job => simp [well, WorkPool.map]
  | none =>
    cases (w.pool.look i).taskOf? i with
    | none => simp [well, WorkPool.map]
    | some job => cases hshares : w.sharesTally <;> simp [well, WorkPool.map, hshares]

/-- Whatever the end is like, the worker does the same; only what it writes into the log differs. -/
theorem well_resume (i : Nat) : (w.resume i).well = w.well.resume i := by
  have htask : w.well.pool.taskOf? i = (w.pool.taskOf? i).map Job.well := w.pool.taskOf?_map _ i
  unfold resume
  rw [htask]
  cases hjob : w.pool.taskOf? i with
  | none => rfl
  | some job =>
    have hopen : w.well.isOpen job.well = w.isOpen job := rfl
    simp only [Option.map_some, hopen]
    split
    · cases hshares : w.sharesTally <;>
        simp [well, WorkPool.map_finish, Job.well, Ending.complaint, hshares]
    · rfl

theorem well_notice : w.notice.well = w.well.notice := by
  simp [notice, well]

theorem well_enqueue (id : Nat) (gated : Bool) (ending : Ending) :
    w.well.enqueue id gated .well =
      ((w.enqueue id gated ending).1, (w.enqueue id gated ending).2.well) := by
  have hpool := w.pool.enqueue_map Job.well { id, ticket := w.tickets, ending }
  unfold enqueue
  simp only [well, Job.well] at hpool ⊢
  rw [hpool]
  cases w.pool.enqueue { id, ticket := w.tickets, ending } with
  | error f => rfl
  | ok pool => simp [Except.map, WorkPool.map, Job.well]

theorem well_shutdown : w.shutdown.well = w.well.shutdown := by
  simp only [shutdown, well]
  rw [w.pool.map_shutdown]
  rfl

theorem well_letGo : w.letGo.well = w.well.letGo := by
  simp only [letGo, well, WorkPool.map_stop]

/-! ### The steps of the workers -/

theorem step?_well : w.well.step? = w.step?.map well := by
  have hfind : w.well.pool.workers.findIdx? w.well.canGoOn =
      w.pool.workers.findIdx? w.canGoOn := by
    show (w.pool.workers.map _).findIdx? _ = _
    rw [List.findIdx?_map]
    congr 1
    funext worker
    cases worker <;> rfl
  unfold step?
  rw [hfind]
  cases w.pool.workers.findIdx? w.canGoOn with
  | none => rfl
  | some i =>
    have htask : w.well.pool.taskOf? i = (w.pool.taskOf? i).map Job.well := w.pool.taskOf?_map _ i
    simp only [htask, Option.isSome_map, Option.map_some, Option.some.injEq]
    split
    · exact (w.well_resume i).symm
    · exact (w.well_look i).symm

theorem well_run (fuel : Nat) : (w.run fuel).well = w.well.run fuel := by
  induction fuel generalizing w with
  | zero => rfl
  | succ fuel ih =>
    unfold run
    rw [step?_well]
    cases w.step? with
    | none => rfl
    | some v => exact ih v

theorem effort_well : w.well.effort = w.effort := by
  simp [effort, well, WorkPool.map, List.countP_map, Function.comp_def]

theorem well_settle : w.settle.well = w.well.settle := by
  show ((w.run w.effort).notice).well = (w.well.run w.well.effort).notice
  rw [well_notice, well_run, effort_well]

/-- Whatever happens, it happens as if all tasks ended well, and callers are told the same. -/
theorem well_act (m : PoolMove) : w.well.act m.well = ((w.act m).1, (w.act m).2.well) := by
  cases m with
  | enqueue id gated ending =>
    show w.well.ifHeld (w.well.enqueue id gated .well) =
      ((w.ifHeld (w.enqueue id gated ending)).1, (w.ifHeld (w.enqueue id gated ending)).2.well)
    rw [well_enqueue w id gated ending]
    unfold ifHeld
    show (if w.held then _ else _) = _
    cases w.held <;> rfl
  | shutdown =>
    show (if w.held then (PoolAnswer.done, w.well.shutdown) else (.noPool, w.well)) = _
    rw [← well_shutdown]
    simp only [act, ifHeld]
    cases w.held <;> rfl
  | letGo =>
    show (if w.held then (PoolAnswer.done, w.well.letGo) else (.noPool, w.well)) = _
    rw [← well_letGo]
    simp only [act, ifHeld]
    cases w.held <;> rfl
  | release id => rfl
  | look i => exact congrArg (PoolAnswer.done, ·) (w.well_look i).symm
  | resume i => exact congrArg (PoolAnswer.done, ·) (w.well_resume i).symm
  | notice => exact congrArg (PoolAnswer.done, ·) w.well_notice.symm
  | settle => exact congrArg (PoolAnswer.done, ·) w.well_settle.symm

/-! ## What there is to see -/

/-- All that there is to see of a workshop besides its error log. A task is shown by its id and its
ticket. -/
structure View where
  begun : List (Nat × Nat)
  ended : List (Nat × Nat)
  active : Nat
  queue : List (Nat × Nat)
  tally : Tally
  gauges : Gauges
  stopped : Bool
  /-- For each call to shut down, whether it has returned. -/
  returned : List Bool
  summary? : Option String
deriving DecidableEq

def view (w : Workshop) : View :=
  { begun := w.begun.map fun job => (job.id, job.ticket)
    ended := w.ended.map fun job => (job.id, job.ticket)
    active := w.pool.active
    queue := w.pool.queue.map fun job => (job.id, job.ticket)
    tally := w.tally
    gauges := w.gauges
    stopped := w.pool.stopped
    returned := w.closers.map (·.returned)
    summary? := w.summary? }

/-- What callers are told and what there is to see, after each move of a run. -/
def views (w : Workshop) : List PoolMove → List (PoolAnswer × View)
  | [] => []
  | m :: ms => ((w.act m).1, (w.act m).2.view) :: (w.act m).2.views ms

theorem view_well : w.well.view = w.view := by
  have hsummary : w.well.summary? = w.summary? :=
    congrArg (fun text => if w.held then some text else none) (w.pool.summary_map Job.well)
  unfold view
  rw [hsummary]
  simp [well, WorkPool.map, Job.well, Function.comp_def]

theorem views_well (ms : List PoolMove) : w.well.views (ms.map PoolMove.well) = w.views ms := by
  induction ms generalizing w with
  | nil => rfl
  | cons m ms ih =>
    simp only [List.map_cons, views, well_act, view_well]
    rw [ih]

/-! ## The error log -/

/-- The log has the complaints about the tasks that are over, in their order. -/
def Logged (w : Workshop) : Prop := w.errors = w.ended.filterMap (·.ending.complaint)

variable {w : Workshop}

theorem Logged.look (h : w.Logged) (i : Nat) : (w.look i).Logged := by
  rcases w.look_cases i with ⟨job, rest, gauges, -, -, hlook⟩ | ⟨gauges, -, -, hlook⟩
  · rw [hlook]
    exact h
  · rw [hlook]
    exact h

theorem Logged.resume (h : w.Logged) (i : Nat) : (w.resume i).Logged := by
  unfold Workshop.resume
  split
  · rename_i job _
    split
    · show w.errors ++ job.ending.complaint.toList = (w.ended ++ [job]).filterMap _
      rw [List.filterMap_append, ← h]
      cases hend : job.ending.complaint <;> simp [hend]
    · exact h
  · exact h

theorem Logged.act (h : w.Logged) (m : PoolMove) : (w.act m).2.Logged := by
  have hheld : ∀ {ask : PoolAnswer × Workshop}, ask.2.Logged → (w.ifHeld ask).2.Logged := by
    intro ask hask
    unfold ifHeld
    split
    · exact hask
    · exact h
  cases m with
  | enqueue id gated ending =>
    refine hheld ?_
    unfold Workshop.enqueue
    dsimp only
    split <;> exact h
  | release id => exact h
  | shutdown => exact hheld h
  | letGo => exact hheld h
  | look i => exact h.look i
  | resume i => exact h.resume i
  | notice => exact h
  | settle =>
    exact settle_induction (fun _ i h => h.look i) (fun _ i h => h.resume i) (fun _ h => h) h

theorem Logged.after (h : w.Logged) (moves : List PoolMove) : (w.after moves).Logged := by
  induction moves generalizing w with
  | nil => exact h
  | cons m moves ih => exact ih (h.act m)

theorem complaint_eq_none_iff (e : Ending) : e.complaint = none ↔ e = .well := by
  cases e <;> simp [Ending.complaint]

/-- One line of the log goes with each task that did not end well. -/
theorem forall₂_complaints (jobs : List Job) :
    List.Forall₂ (fun job line => job.ending.complaint = some line)
      (jobs.filter (·.ending ≠ .well)) (jobs.filterMap (·.ending.complaint)) := by
  induction jobs with
  | nil => exact .nil
  | cons job jobs ih =>
    cases hend : job.ending.complaint with
    | none =>
      have hwell := (complaint_eq_none_iff _).1 hend
      rw [List.filterMap_cons, List.filter_cons_of_neg (by simp [hwell])]
      simp only [hend]
      exact ih
    | some line =>
      have hnot : job.ending ≠ .well := fun hwell => by simp [hwell, Ending.complaint] at hend
      rw [List.filterMap_cons, List.filter_cons_of_pos (by simp [hnot])]
      simp only [hend]
      exact .cons hend ih

/-! ## Nobody else's concern -/

/-- **How a task ends concerns nobody else.** Take two runs of a pool whose moves are the same but
for the endings of the tasks that are handed in. After every move callers are told the same and
there is the same to see: which tasks have begun and which are over and in which order, who waits,
the counters, and who has returned from a shutdown. And in every run the error log has one line for
each task that is over and has not ended well, in that order, and no other; no task is over twice.
-/
theorem ending_concerns_nobody_else {size : Nat} (hsize : 1 ≤ size) (sharesTally : Bool) :
    ∃ fresh, create size sharesTally = .ok fresh ∧
      (∀ ms ns : List PoolMove, ms.map PoolMove.well = ns.map PoolMove.well →
        fresh.views ms = fresh.views ns) ∧
      ∀ ms : List PoolMove,
        let w := fresh.after ms
        List.Forall₂ (fun job line => job.ending.complaint = some line)
          (w.ended.filter (·.ending ≠ .well)) w.errors ∧
        (w.ended.map (·.ticket)).Nodup := by
  obtain ⟨fresh, hfresh, -⟩ := exists_fresh hsize sharesTally
  have haccounts := Accounts.create hfresh
  have hlogged : fresh.Logged := by
    unfold create WorkPool.create at hfresh
    rw [if_neg (Nat.ne_of_gt hsize)] at hfresh
    cases hfresh
    rfl
  refine ⟨fresh, hfresh, fun ms ns hsame => ?_, fun ms => ?_⟩
  · calc fresh.views ms
      _ = fresh.well.views (ms.map PoolMove.well) := (fresh.views_well ms).symm
      _ = fresh.well.views (ns.map PoolMove.well) := by rw [hsame]
      _ = fresh.views ns := fresh.views_well ns
  · have hw := haccounts.after ms
    have herrors : (fresh.after ms).errors = _ := hlogged.after ms
    refine ⟨herrors ▸ forall₂_complaints _, ?_⟩
    have hnodup := hw.accepted_nodup
    rw [(hw.accepted_perm.map Job.ticket).nodup_iff, List.map_append] at hnodup
    exact (List.nodup_append.1 hnodup).1

/-- Three tasks and two workers. The first task fails while the pool shuts down, and the second
breaks down before; or both end well. -/
theorem ending_concerns_nobody_else_of_three_tasks :
    let moves (first second : Ending) : List PoolMove :=
      [.enqueue 1 true first, .enqueue 2 false second, .enqueue 3 true .well, .settle, .shutdown,
        .release 1, .settle, .letGo, .release 3, .settle]
    1 ≤ 2 ∧ ∃ fresh, create 2 true = .ok fresh ∧
      fresh.views (moves (.fault .closed) (.breakdown "boom")) = fresh.views (moves .well .well) ∧
      ((fresh.after (moves (.fault .closed) (.breakdown "boom"))).ended.map (·.ticket)).Nodup ∧
      (fresh.after (moves (.fault .closed) (.breakdown "boom"))).errors =
        ["task panicked: boom", "task failed: " ++ Fault.closed.message] ∧
      (fresh.after (moves .well .well)).errors = [] := by
  intro moves
  have hsize : 1 ≤ 2 := by decide
  obtain ⟨fresh, hfresh, hsame, hlog⟩ := ending_concerns_nobody_else hsize true
  refine ⟨hsize, fresh, hfresh, hsame _ _ (by decide), (hlog _).2, ?_, ?_⟩
  · cases hfresh
    decide
  · cases hfresh
    decide

end Workshop

end ChatHub
