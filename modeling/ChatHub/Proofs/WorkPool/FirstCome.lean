import ChatHub.Proofs.WorkPool.Workers
import ChatHub.Workshop
/-!
# First come, first served

Tasks are begun in the order in which they were taken in, each of them once, and none is lost. At
any moment the tasks that were taken in are those that were begun, followed by those that still wait
(`Accounts.order`); and those that were begun are those that workers have and those that are over
(`Accounts.work`). Each step of one worker moves one task from one of these places to the next, so
the order in which workers get their turns does not matter, nor does how a task ends.

A task here is the ticket of the call that handed it in: ids are the callers' business, and two
calls may use the same one.
-/

namespace ChatHub

namespace Workshop

variable {w : Workshop}

/-! ## Runs and calls -/

/-- The workshop after a run. -/
def after (w : Workshop) (moves : List PoolMove) : Workshop :=
  moves.foldl (fun w m => (w.act m).2) w

/-- The task that a move hands in, if there is anybody to hand it to, and the answer. -/
def call? (w : Workshop) : PoolMove → Option (Job × PoolAnswer)
  | .enqueue id gated ending =>
    if w.held then
      some ({ id, ticket := w.tickets, ending }, (w.act (.enqueue id gated ending)).1)
    else none
  | _ => none

/-- The calls of a run that hand in a task, in their order. -/
def calls (w : Workshop) : List PoolMove → List (Job × PoolAnswer)
  | [] => []
  | m :: moves => (w.call? m).toList ++ (w.act m).2.calls moves

/-- The tasks that a run hands in and that are taken, in the order of the calls. -/
def acceptedIn (w : Workshop) (moves : List PoolMove) : List Job :=
  ((w.calls moves).filter (·.2 = .queued)).map (·.1)

/-- The tasks that a run hands in and that are turned away. -/
def refusedIn (w : Workshop) (moves : List PoolMove) : List Job :=
  ((w.calls moves).filter (·.2 ≠ .queued)).map (·.1)

/-! ## What a worker does -/

theorem look_cases (w : Workshop) (i : Nat) :
    (∃ job rest gauges, w.pool.workers[i]? = some .awake ∧ w.pool.queue = job :: rest ∧
      w.look i =
        { w with
          pool := w.pool.look i
          begun := w.begun ++ [job]
          tally := if w.sharesTally then w.tally.workerBusy else w.tally
          gauges }) ∨
    (∃ gauges, (w.pool.look i).queue = w.pool.queue ∧
      (w.pool.look i).tasks.Perm w.pool.tasks ∧
      w.look i = { w with pool := w.pool.look i, gauges }) := by
  have hlook := w.pool.looked i
  unfold look
  generalize w.pool.look i = pool at hlook
  cases hlook with
  | notAwake h =>
    refine .inr ⟨{ w.gauges with queued := w.pool.queue.length }, rfl, .refl _, ?_⟩
    dsimp only
    cases w.pool.taskOf? i <;> rfl
  | @takes job rest h hqueue =>
    have hi := (List.getElem?_eq_some_iff.1 h).1
    refine .inl ⟨job, rest,
      { w.gauges with queued := rest.length, busyWorkers := w.gauges.busyWorkers + 1 }, h, hqueue,
      ?_⟩
    simp only [WorkPool.taskOf?, h, WorkPool.setWorker, List.getElem?_set_self hi]
  | leaves h hqueue hstop =>
    have hi := (List.getElem?_eq_some_iff.1 h).1
    refine .inr ⟨{ w.gauges with queued := w.pool.queue.length }, rfl,
      WorkPool.tasks_setWorker h .gone, ?_⟩
    simp only [WorkPool.taskOf?, h, WorkPool.setWorker, List.getElem?_set_self hi]
  | parks h hqueue hopen =>
    have hi := (List.getElem?_eq_some_iff.1 h).1
    refine .inr ⟨{ w.gauges with queued := w.pool.queue.length }, rfl,
      WorkPool.tasks_setWorker h .parked, ?_⟩
    simp only [WorkPool.taskOf?, h, WorkPool.setWorker, List.getElem?_set_self hi]

theorem resume_cases (w : Workshop) (i : Nat) :
    w.resume i = w ∨
    ∃ job errors gauges, w.pool.workers[i]? = some (.busy job) ∧ w.isOpen job = true ∧
      w.resume i =
        { w with
          pool := w.pool.finish i
          ended := w.ended ++ [job]
          tally := if w.sharesTally then w.tally.workerFree else w.tally
          errors, gauges } := by
  unfold resume
  split
  · rename_i job hjob
    split
    · rename_i hopen
      exact .inr ⟨job, _, _, WorkPool.taskOf?_eq_some_iff.1 hjob, hopen, rfl⟩
    · exact .inl rfl
  · exact .inl rfl

/-- What holds of a workshop and outlives every step of a worker holds once it has settled. -/
theorem settle_induction {P : Workshop → Prop} (hlook : ∀ v i, P v → P (v.look i))
    (hresume : ∀ v i, P v → P (v.resume i)) (hnotice : ∀ v, P v → P v.notice) (h : P w) :
    P w.settle := by
  refine hnotice _ ?_
  generalize w.effort = fuel
  induction fuel generalizing w with
  | zero => exact h
  | succ fuel ih =>
    unfold run
    split
    · exact h
    · rename_i v hv
      refine ih ?_
      unfold step? at hv
      split at hv
      · cases hv
      · cases hv
        split
        · exact hresume w _ h
        · exact hlook w _ h

/-! ## What only callers change -/

/-- The part of a workshop that no worker's step changes. -/
structure Desk where
  held : Bool
  stopped : Bool
  gates : List (Nat × Nat)
  tickets : Nat
  accepted : List Job

def desk (w : Workshop) : Desk :=
  { held := w.held, stopped := w.pool.stopped, gates := w.gates, tickets := w.tickets,
    accepted := w.accepted }

/-- What a move does to the desk. -/
def Desk.act (d : Desk) : PoolMove → Desk
  | .enqueue id gated ending =>
    if d.held then
      if d.stopped then { d with tickets := d.tickets + 1 }
      else
        { d with
          tickets := d.tickets + 1
          accepted := d.accepted ++ [{ id, ticket := d.tickets, ending }]
          gates :=
            if gated then (id, d.tickets) :: d.gates.filter (·.1 != id) else d.gates }
    else d
  | .release id => { d with gates := d.gates.filter (·.1 != id) }
  | .shutdown => if d.held then { d with stopped := true } else d
  | .letGo => if d.held then { d with held := false, stopped := true } else d
  | _ => d

theorem desk_look (w : Workshop) (i : Nat) : (w.look i).desk = w.desk := by
  have hstopped : (w.pool.look i).stopped = w.pool.stopped := by
    have hlook := w.pool.looked i
    generalize w.pool.look i = pool at hlook
    cases hlook <;> rfl
  rcases w.look_cases i with ⟨job, rest, gauges, -, -, h⟩ | ⟨gauges, -, -, h⟩
  · rw [h, desk, desk, hstopped]
  · rw [h, desk, desk, hstopped]

theorem desk_resume (w : Workshop) (i : Nat) : (w.resume i).desk = w.desk := by
  rcases w.resume_cases i with h | ⟨job, errors, gauges, hjob, -, h⟩
  · rw [h]
  · rw [h, WorkPool.finish_of_busy hjob]
    rfl

theorem desk_settle (w : Workshop) : w.settle.desk = w.desk :=
  settle_induction (P := fun v => v.desk = w.desk) (fun v i h => (v.desk_look i).trans h)
    (fun v i h => (v.desk_resume i).trans h) (fun _ h => h) rfl

theorem desk_act (w : Workshop) (m : PoolMove) : (w.act m).2.desk = w.desk.act m := by
  cases m with
  | enqueue id gated ending =>
    cases hheld : w.held with
    | false => simp [act, ifHeld, Desk.act, desk, hheld]
    | true =>
      cases hstop : w.pool.stopped with
      | true =>
        simp [act, ifHeld, Desk.act, desk, enqueue, WorkPool.enqueue_of_stopped hstop, hheld, hstop]
      | false =>
        simp [act, ifHeld, Desk.act, desk, enqueue, WorkPool.enqueue_of_open hstop, hheld, hstop]
  | shutdown =>
    cases hheld : w.held <;>
      simp [act, ifHeld, Desk.act, desk, shutdown, WorkPool.shutdown, WorkPool.stop, hheld]
  | letGo =>
    cases hheld : w.held <;>
      simp [act, ifHeld, Desk.act, desk, letGo, WorkPool.stop, hheld]
  | release id => rfl
  | look i => exact w.desk_look i
  | resume i => exact w.desk_resume i
  | notice => rfl
  | settle => exact w.desk_settle

/-! ## The books -/

/-- The books of a workshop with `size` workers are in order. -/
structure Accounts (size : Nat) (w : Workshop) : Prop where
  pool : w.pool.Sound
  staff : w.pool.size = size
  /-- What was taken in was begun or still waits, in this order. -/
  order : w.accepted = w.begun ++ w.pool.queue
  /-- What was begun is over, or a worker has it. -/
  work : w.begun.Perm (w.pool.tasks ++ w.ended)
  tickets : (w.accepted.map Job.ticket).Pairwise (· < ·)
  recent : ∀ job ∈ w.accepted, job.ticket < w.tickets

namespace Accounts

variable {size : Nat}

theorem accepted_nodup (hw : w.Accounts size) : (w.accepted.map Job.ticket).Nodup :=
  hw.tickets.imp Nat.ne_of_lt

/-- Wherever they are, the tasks that were taken in are there. -/
theorem accepted_perm (hw : w.Accounts size) :
    w.accepted.Perm (w.ended ++ (w.pool.tasks ++ w.pool.queue)) := by
  rw [hw.order, ← List.append_assoc]
  exact (hw.work.trans List.perm_append_comm).append_right _

theorem create {sharesTally : Bool} (h : create size sharesTally = .ok w) : w.Accounts size := by
  unfold Workshop.create at h
  cases hpool : WorkPool.create (τ := Job) size with
  | error f =>
    rw [hpool] at h
    cases h
  | ok pool =>
    rw [hpool] at h
    cases h
    have hsound := WorkPool.Sound.create hpool
    have hempty : pool.size = size ∧ pool.queue = [] ∧ pool.active = 0 := by
      unfold WorkPool.create at hpool
      split at hpool
      · cases hpool
      · cases hpool
        exact ⟨List.length_replicate, rfl, rfl⟩
    have htasks : pool.tasks = [] :=
      List.length_eq_zero_iff.1 (hsound.active.symm.trans hempty.2.2)
    exact
      { pool := hsound
        staff := hempty.1
        order := hempty.2.1.symm
        work := by
          show ([] : List Job).Perm (pool.tasks ++ [])
          rw [htasks]
          exact .refl _
        tickets := .nil
        recent := nofun }

theorem look (hw : w.Accounts size) (i : Nat) : (w.look i).Accounts size := by
  rcases w.look_cases i with ⟨job, rest, gauges, hi, hqueue, h⟩ | ⟨gauges, hqueue, htasks, h⟩
  · rw [h]
    have hlook : w.pool.look i =
        { w.pool.setWorker i (.busy job) with
          permit := false, queue := rest, active := w.pool.active + 1 } := by
      simp only [WorkPool.look, hi, hqueue]
      rfl
    have htasks : (w.pool.look i).tasks.Perm (job :: w.pool.tasks) := by
      rw [hlook]
      exact WorkPool.tasks_setWorker hi (.busy job)
    refine { hw with pool := hw.pool.look i, staff := ?_, order := ?_, work := ?_ }
    · exact (w.pool.size_look i).trans hw.staff
    · show w.accepted = (w.begun ++ [job]) ++ (w.pool.look i).queue
      rw [hlook, hw.order, hqueue, List.append_assoc, List.singleton_append]
    · show (w.begun ++ [job]).Perm ((w.pool.look i).tasks ++ w.ended)
      calc (w.begun ++ [job]).Perm (job :: w.begun) := List.perm_append_singleton ..
        List.Perm _ (job :: (w.pool.tasks ++ w.ended)) := hw.work.cons job
        List.Perm _ ((w.pool.look i).tasks ++ w.ended) := (htasks.append_right w.ended).symm
  · rw [h]
    refine { hw with pool := hw.pool.look i, staff := ?_, order := ?_, work := ?_ }
    · exact (w.pool.size_look i).trans hw.staff
    · show w.accepted = w.begun ++ (w.pool.look i).queue
      rw [hqueue, hw.order]
    · exact hw.work.trans (htasks.append_right _).symm

theorem resume (hw : w.Accounts size) (i : Nat) : (w.resume i).Accounts size := by
  rcases w.resume_cases i with h | ⟨job, errors, gauges, hi, -, h⟩
  · rwa [h]
  · rw [h]
    have hfinish := WorkPool.finish_of_busy hi
    have htasks : (job :: (w.pool.finish i).tasks).Perm w.pool.tasks := by
      rw [hfinish]
      exact WorkPool.tasks_setWorker hi .awake
    refine { hw with pool := hw.pool.finish i, staff := ?_, order := ?_, work := ?_ }
    · exact (w.pool.size_finish i).trans hw.staff
    · show w.accepted = w.begun ++ (w.pool.finish i).queue
      rw [hfinish]
      exact hw.order
    · show w.begun.Perm ((w.pool.finish i).tasks ++ (w.ended ++ [job]))
      calc w.begun.Perm (w.pool.tasks ++ w.ended) := hw.work
        List.Perm _ (job :: (w.pool.finish i).tasks ++ w.ended) := htasks.symm.append_right _
        List.Perm _ ((w.pool.finish i).tasks ++ job :: w.ended) := List.perm_middle.symm
        List.Perm _ ((w.pool.finish i).tasks ++ (w.ended ++ [job])) :=
          (List.perm_append_singleton ..).symm.append_left _

theorem enqueue (hw : w.Accounts size) (id : Nat) (gated : Bool) (ending : Ending) :
    (w.enqueue id gated ending).2.Accounts size := by
  have hrecent : ∀ job ∈ w.accepted, job.ticket < w.tickets + 1 := fun job hjob =>
    Nat.lt_succ_of_lt (hw.recent job hjob)
  cases hstop : w.pool.stopped with
  | true =>
    simp only [Workshop.enqueue, WorkPool.enqueue_of_stopped hstop]
    exact { hw with recent := hrecent }
  | false =>
    simp only [Workshop.enqueue, WorkPool.enqueue_of_open hstop]
    refine
      { pool := hw.pool.callOne hstop _, staff := ?_, order := ?_, work := ?_, tickets := ?_,
        recent := ?_ }
    · exact (WorkPool.size_callOne _).trans hw.staff
    · rw [WorkPool.queue_callOne, hw.order, List.append_assoc]
    · rw [WorkPool.tasks_callOne]
      exact hw.work
    · rw [List.map_append, List.pairwise_append]
      refine ⟨hw.tickets, List.pairwise_singleton .., fun a ha b hb => ?_⟩
      obtain ⟨job, hjob, rfl⟩ := List.mem_map.1 ha
      rw [List.mem_singleton.1 hb]
      exact hw.recent job hjob
    · intro job hjob
      rcases List.mem_append.1 hjob with hjob | hjob
      · exact hrecent job hjob
      · rw [List.mem_singleton.1 hjob]
        exact Nat.lt_succ_self _

theorem stop (hw : w.Accounts size) (held joined : Bool) (closers : List Closer) :
    ({ w with held, closers, pool := { w.pool.stop with joined } } : Workshop).Accounts size :=
  { hw with
    pool := { hw.pool.stop with }
    staff := w.pool.size_stop.trans hw.staff
    work := by
      show w.begun.Perm (w.pool.stop.tasks ++ w.ended)
      rw [WorkPool.tasks_stop]
      exact hw.work }

theorem act (hw : w.Accounts size) (m : PoolMove) : (w.act m).2.Accounts size := by
  have hheld : ∀ {ask : PoolAnswer × Workshop}, ask.2.Accounts size →
      (w.ifHeld ask).2.Accounts size := by
    intro ask hask
    unfold ifHeld
    split
    · exact hask
    · exact hw
  cases m with
  | enqueue id gated ending => exact hheld (hw.enqueue id gated ending)
  | release id => exact { hw with }
  | shutdown => exact hheld (hw.stop _ _ _)
  | letGo => exact hheld (hw.stop _ _ _)
  | look i => exact hw.look i
  | resume i => exact hw.resume i
  | notice => exact { hw with }
  | settle =>
    exact settle_induction (fun _ i h => h.look i) (fun _ i h => h.resume i)
      (fun _ h => { h with }) hw

theorem after (hw : w.Accounts size) (moves : List PoolMove) : (w.after moves).Accounts size := by
  induction moves generalizing w with
  | nil => exact hw
  | cons m moves ih => exact ih (hw.act m)

end Accounts

/-! ## What callers are told -/

theorem answer_enqueue (w : Workshop) (id : Nat) (gated : Bool) (ending : Ending) :
    (w.act (.enqueue id gated ending)).1 =
      if w.held then if w.pool.stopped then .refused .poolStopped else .queued else .noPool := by
  simp only [act, ifHeld]
  split
  · cases hstop : w.pool.stopped with
    | true => simp only [enqueue, WorkPool.enqueue_of_stopped hstop, if_true]
    | false => simp only [enqueue, WorkPool.enqueue_of_open hstop, Bool.false_eq_true, if_false]
  · rfl

theorem Desk.held_act_iff (d : Desk) (m : PoolMove) :
    (d.act m).held = true ↔ d.held = true ∧ m ≠ .letGo := by
  cases m with
  | enqueue id gated ending =>
    cases h : d.held <;> cases hstop : d.stopped <;> simp [Desk.act, h, hstop]
  | shutdown => cases h : d.held <;> simp [Desk.act, h]
  | letGo => cases h : d.held <;> simp [Desk.act, h]
  | _ => simp [Desk.act]

theorem Desk.stopped_act_iff {d : Desk} {m : PoolMove} (h : (d.act m).held = true) :
    (d.act m).stopped = true ↔ d.stopped = true ∨ m = .shutdown := by
  obtain ⟨hheld, hm⟩ := (d.held_act_iff m).1 h
  cases m with
  | enqueue id gated ending => cases hstop : d.stopped <;> simp [Desk.act, hheld, hstop]
  | shutdown => simp [Desk.act, hheld]
  | letGo => exact absurd rfl hm
  | _ => simp [Desk.act]

/-- The handle is held until it is let go. -/
theorem held_after_iff (w : Workshop) (moves : List PoolMove) :
    (w.after moves).held = true ↔ w.held = true ∧ .letGo ∉ moves := by
  induction moves generalizing w with
  | nil => simp [after]
  | cons m moves ih =>
    have hheld : (w.act m).2.held = true ↔ w.held = true ∧ m ≠ .letGo :=
      (congrArg (Desk.held · = true) (w.desk_act m)).to_iff.trans (w.desk.held_act_iff m)
    rw [show w.after (m :: moves) = (w.act m).2.after moves from rfl, ih, hheld, List.mem_cons,
      not_or, and_assoc, ne_comm]

/-- While the handle is held, the pool is stopped as soon as somebody asks it to shut down. -/
theorem stopped_after_iff {moves : List PoolMove} (h : (w.after moves).held = true) :
    (w.after moves).pool.stopped = true ↔ w.pool.stopped = true ∨ .shutdown ∈ moves := by
  induction moves generalizing w with
  | nil => simp [after]
  | cons m moves ih =>
    have hheld : (w.desk.act m).held = true := by
      rw [← desk_act]
      exact ((held_after_iff _ moves).1 h).1
    have hstopped : (w.act m).2.pool.stopped = true ↔ w.pool.stopped = true ∨ m = .shutdown :=
      (congrArg (Desk.stopped · = true) (w.desk_act m)).to_iff.trans
        (Desk.stopped_act_iff hheld)
    rw [show w.after (m :: moves) = (w.act m).2.after moves from rfl, ih h, hstopped,
      List.mem_cons, or_assoc, @eq_comm _ m]

/-! ## The calls of a run -/

theorem tickets_accepted_act (w : Workshop) (m : PoolMove) :
    (w.act m).2.tickets = w.tickets + (w.call? m).toList.length ∧
      (w.act m).2.accepted =
        w.accepted ++ ((w.call? m).toList.filter (·.2 = .queued)).map (·.1) := by
  have htickets : (w.act m).2.tickets = (w.desk.act m).tickets :=
    congrArg Desk.tickets (w.desk_act m)
  have haccepted : (w.act m).2.accepted = (w.desk.act m).accepted :=
    congrArg Desk.accepted (w.desk_act m)
  rw [htickets, haccepted]
  cases m with
  | enqueue id gated ending =>
    cases hheld : w.held with
    | false => simp [call?, Desk.act, desk, hheld]
    | true =>
      cases hstop : w.pool.stopped <;> simp [call?, answer_enqueue, Desk.act, desk, hheld, hstop]
  | shutdown => cases hheld : w.held <;> simp [Desk.act, desk, call?, hheld]
  | letGo => cases hheld : w.held <;> simp [Desk.act, desk, call?, hheld]
  | _ => simp [Desk.act, desk, call?]

/-- What was taken in is what callers were told has been taken in. -/
theorem accepted_after (w : Workshop) (moves : List PoolMove) :
    (w.after moves).accepted = w.accepted ++ w.acceptedIn moves := by
  induction moves generalizing w with
  | nil => exact (List.append_nil _).symm
  | cons m moves ih =>
    rw [show w.after (m :: moves) = (w.act m).2.after moves from rfl, ih,
      (w.tickets_accepted_act m).2, acceptedIn, acceptedIn, calls, List.filter_append,
      List.map_append, List.append_assoc]

/-- Tickets number the calls. -/
theorem tickets_calls (w : Workshop) (moves : List PoolMove) :
    (w.calls moves).map (·.1.ticket) = List.range' w.tickets (w.calls moves).length := by
  induction moves generalizing w with
  | nil => rfl
  | cons m moves ih =>
    have htickets := (w.tickets_accepted_act m).1
    rw [calls, List.map_append, ih, List.length_append, ← List.range'_append_1, htickets]
    congr 1
    cases m with
    | enqueue id gated ending =>
      simp only [call?]
      split <;> rfl
    | _ => rfl

/-- No ticket stands both for a task that was taken in and for one that was turned away. -/
theorem ticket_ne_of_refused {moves : List PoolMove} {a b : Job} (ha : a ∈ w.acceptedIn moves)
    (hb : b ∈ w.refusedIn moves) : a.ticket ≠ b.ticket := by
  obtain ⟨c, hc, rfl⟩ := List.mem_map.1 ha
  obtain ⟨d, hd, rfl⟩ := List.mem_map.1 hb
  obtain ⟨hc, hqueued⟩ := List.mem_filter.1 hc
  obtain ⟨hd, hrefused⟩ := List.mem_filter.1 hd
  intro heq
  have hnodup : ((w.calls moves).map (·.1.ticket)).Nodup := by
    rw [tickets_calls]
    exact List.nodup_range'
  obtain rfl := List.inj_on_of_nodup_map hnodup hc hd heq
  simp_all

/-! ## In order, once, and all of them -/

theorem exists_fresh {size : Nat} (hsize : 1 ≤ size) (sharesTally : Bool) :
    ∃ fresh, create size sharesTally = .ok fresh ∧
      fresh.held = true ∧ fresh.pool.stopped = false ∧ fresh.accepted = [] := by
  simp only [create, WorkPool.create, if_neg (Nat.ne_of_gt hsize)]
  exact ⟨_, rfl, rfl, rfl, rfl⟩

theorem Accounts.nothing_left {size : Nat} (hw : w.Accounts size) (hsize : 1 ≤ size)
    (h : w.pool.isDeserted = true) : w.pool.tasks = [] ∧ w.pool.queue = [] :=
  hw.pool.nothing_left (hw.staff.symm ▸ hsize) h

/-- **Tasks are begun first come, first served.** In every state of every run, whichever order the
workers get their turns in and however tasks end: the tasks that were taken in, in the order of the
calls, are those that were begun, in the order in which they were begun, followed by those in the
queue; no task is begun twice or ends twice; a caller is turned away exactly if a shutdown was asked
for before, and a task that was turned away is never begun; and when all workers have gone home,
nothing waits and every task that was taken in is over. -/
theorem begun_in_order_of_calls {size : Nat} (hsize : 1 ≤ size) (sharesTally : Bool) :
    ∃ fresh, create size sharesTally = .ok fresh ∧ ∀ moves : List PoolMove,
      let w := fresh.after moves
      fresh.acceptedIn moves = w.begun ++ w.pool.queue ∧
      (w.begun.map Job.ticket).Nodup ∧ (w.ended.map Job.ticket).Nodup ∧ w.ended ⊆ w.begun ∧
      (∀ id gated ending,
        (w.act (.enqueue id gated ending)).1 =
          if .letGo ∈ moves then .noPool
          else if .shutdown ∈ moves then .refused .poolStopped
          else .queued) ∧
      (∀ job ∈ fresh.refusedIn moves, job.ticket ∉ w.begun.map Job.ticket) ∧
      (w.pool.isDeserted = true →
        w.pool.queue = [] ∧ w.ended.Perm (fresh.acceptedIn moves)) := by
  obtain ⟨fresh, hfresh, hstartHeld, hstartOpen, hnothing⟩ := exists_fresh hsize sharesTally
  refine ⟨fresh, hfresh, fun moves => ?_⟩
  have hw := (Accounts.create hfresh).after moves
  have haccepted : (fresh.after moves).accepted = fresh.acceptedIn moves := by
    rw [accepted_after, hnothing, List.nil_append]
  have hbegun : ((fresh.after moves).begun.map Job.ticket).Nodup := by
    have hnodup := hw.accepted_nodup
    rw [hw.order, List.map_append] at hnodup
    exact (List.nodup_append.1 hnodup).1
  refine ⟨haccepted ▸ hw.order, hbegun, ?_, fun job hjob => ?_, ?_, ?_, fun hdeserted => ?_⟩
  · rw [(hw.work.map Job.ticket).nodup_iff, List.map_append] at hbegun
    exact (List.nodup_append.1 hbegun).2.1
  · exact hw.work.mem_iff.2 (List.mem_append_right _ hjob)
  · intro id gated ending
    have hheld := held_after_iff fresh moves
    rw [hstartHeld] at hheld
    rw [answer_enqueue]
    by_cases hgone : PoolMove.letGo ∈ moves
    · rw [if_pos hgone, if_neg (fun h => (hheld.1 h).2 hgone)]
    · have h := hheld.2 ⟨rfl, hgone⟩
      have hstopped := stopped_after_iff h
      rw [hstartOpen] at hstopped
      simp only [h, hgone, hstopped, if_true, if_false, Bool.false_eq_true, false_or]
  · intro job hjob hmem
    obtain ⟨begun, hin, heq⟩ := List.mem_map.1 hmem
    have hacc : begun ∈ fresh.acceptedIn moves := by
      rw [← haccepted, hw.order]
      exact List.mem_append_left _ hin
    exact ticket_ne_of_refused hacc hjob heq
  · obtain ⟨htasks, hqueue⟩ := hw.nothing_left hsize hdeserted
    have hperm := hw.accepted_perm
    rw [htasks, hqueue, List.append_nil, List.append_nil, haccepted] at hperm
    exact ⟨hqueue, hperm.symm⟩

/-- Two workers; the first task waits at its gate until after the shutdown, the second fails, the
third breaks down, and the fourth comes too late. -/
theorem begun_in_order_of_calls_amid_failures :
    let moves : List PoolMove :=
      [.enqueue 1 true .well, .enqueue 2 false (.fault .closed), .look 1,
        .enqueue 1 false (.breakdown "boom"), .look 0, .resume 1, .resume 0, .shutdown,
        .enqueue 4 false .well, .release 1, .settle]
    1 ≤ 2 ∧ ∃ fresh, create 2 true = .ok fresh ∧
      (fresh.acceptedIn moves).map (·.id) = [1, 2, 1] ∧
      (fresh.refusedIn moves).map (·.id) = [4] ∧
      (fresh.after moves).finished = [2, 1, 1] ∧
      (fresh.after moves).pool.isDeserted = true ∧
      (fresh.after moves).ended.Perm (fresh.acceptedIn moves) := by
  intro moves
  obtain ⟨fresh, hfresh, h⟩ := begun_in_order_of_calls (by decide : 1 ≤ 2) true
  have hdeserted : (fresh.after moves).pool.isDeserted = true := by
    cases hfresh
    decide
  refine ⟨by decide, fresh, hfresh, ?_, ?_, ?_, hdeserted, ((h moves).2.2.2.2.2.2 hdeserted).2⟩
  · cases hfresh
    decide
  · cases hfresh
    decide
  · cases hfresh
    decide

end Workshop

end ChatHub
