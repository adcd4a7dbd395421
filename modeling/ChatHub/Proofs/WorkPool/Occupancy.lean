import ChatHub.Proofs.WorkPool.FirstCome
/-!
# How many are at work

The number of workers bounds the number of tasks that are going on at once. The other half is that
the bound is used: when nobody can go on any more, either all workers have a task or none waits. A
task that waited beside an idle worker would be one whose wakeup got lost.

At such a point the workers' counter and the length of the queue are therefore functions of one
number, that of the tasks which were taken in and are not over. They stay so while callers neither
hand in a task nor open a gate; stopping the pool wakes people up, but there is nothing for them to
do.
-/

namespace ChatHub

namespace PoolMove

/-- Whether a move gives the workers nothing to do. -/
def isCalm : PoolMove → Bool
  | enqueue .. | release _ => false
  | _ => true

end PoolMove

namespace Workshop

variable {w v : Workshop} {size : Nat}

/-! ## Settling comes to an end -/

/-- Nobody can go on. -/
def IsSettled (w : Workshop) : Prop := ∀ worker ∈ w.pool.workers, w.canGoOn worker = false

theorem step?_eq_none_iff : w.step? = none ↔ w.IsSettled := by
  unfold step? IsSettled
  rw [← List.findIdx?_eq_none_iff]
  split
  · rename_i h
    simp [h]
  · rename_i i h
    simp [h]

theorem effort_eq (w : Workshop) :
    w.effort = 3 * w.pool.queue.length + 2 * w.pool.tasks.length + w.pool.awake := by
  rw [effort, WorkPool.length_tasks]
  rfl

/-- How many steps a worker makes before it needs another task. -/
def stepsLeft : Worker Job → Nat
  | .awake => 1
  | .busy _ => 2
  | _ => 0

theorem stepsLeft_setWorker {p : WorkPool Job} {i : Nat} {old : Worker Job}
    (h : p.workers[i]? = some old) (new : Worker Job) :
    2 * (p.setWorker i new).tasks.length + (p.setWorker i new).awake + stepsLeft old =
      2 * p.tasks.length + p.awake + stepsLeft new := by
  have htasks := WorkPool.length_tasks_setWorker h new
  have hawake := WorkPool.awake_setWorker h new
  have hsteps : ∀ worker : Worker Job, stepsLeft worker =
      2 * worker.task?.toList.length + if worker.isAwake then 1 else 0 := by
    intro worker
    cases worker <;> rfl
  rw [hsteps, hsteps]
  omega

/-- A step takes a task out of the queue, brings one to its end, or sends a worker to rest. -/
theorem effort_lt_of_step (h : w.step? = some v) : v.effort < w.effort := by
  unfold step? at h
  split at h
  · cases h
  · rename_i i hi
    obtain rfl := Option.some.inj h
    obtain ⟨hlt, hgoes, -⟩ := List.findIdx?_eq_some_iff_getElem.1 hi
    have hget := List.getElem?_eq_getElem hlt
    rw [effort_eq, effort_eq]
    cases hworker : w.pool.workers[i] with
    | parked => simp [canGoOn, hworker] at hgoes
    | gone => simp [canGoOn, hworker] at hgoes
    | awake =>
      rw [hworker] at hget
      have hnone : (w.pool.taskOf? i).isSome = false := by simp [WorkPool.taskOf?, hget]
      have hpool : (w.look i).pool = w.pool.look i := by
        rcases w.look_cases i with ⟨_, _, _, -, -, h⟩ | ⟨_, -, -, h⟩ <;> rw [h]
      rw [hnone, if_neg Bool.false_ne_true, hpool]
      have hlook := w.pool.looked i
      generalize w.pool.look i = pool at hlook
      cases hlook with
      | notAwake h => exact absurd hget h
      | @takes job rest _ hqueue =>
        have hsteps : 2 * (w.pool.setWorker i (.busy job)).tasks.length
            + (w.pool.setWorker i (.busy job)).awake + 1 = _ + 2 := stepsLeft_setWorker hget _
        show 3 * rest.length + 2 * (w.pool.setWorker i (.busy job)).tasks.length
          + (w.pool.setWorker i (.busy job)).awake < _
        rw [hqueue, List.length_cons]
        omega
      | leaves _ hqueue hstop =>
        have hsteps : 2 * (w.pool.setWorker i .gone).tasks.length
            + (w.pool.setWorker i .gone).awake + 1 = _ + 0 := stepsLeft_setWorker hget _
        show 3 * w.pool.queue.length + 2 * (w.pool.setWorker i .gone).tasks.length
          + (w.pool.setWorker i .gone).awake < _
        omega
      | parks _ hqueue hopen =>
        have hsteps : 2 * (w.pool.setWorker i .parked).tasks.length
            + (w.pool.setWorker i .parked).awake + 1 = _ + 0 := stepsLeft_setWorker hget _
        show 3 * w.pool.queue.length + 2 * (w.pool.setWorker i .parked).tasks.length
          + (w.pool.setWorker i .parked).awake < _
        omega
    | busy job =>
      rw [hworker] at hget
      have hsome : w.pool.taskOf? i = some job := WorkPool.taskOf?_eq_some_iff.2 hget
      have hopen : w.isOpen job = true := by simpa [canGoOn, hworker] using hgoes
      have hpool : (w.resume i).pool = w.pool.finish i := by
        simp only [resume, hsome, hopen, if_true]
      rw [hsome, Option.isSome_some, if_pos rfl, hpool, WorkPool.finish_of_busy hget]
      have hsteps : 2 * (w.pool.setWorker i .awake).tasks.length
          + (w.pool.setWorker i .awake).awake + 2 = _ + 1 := stepsLeft_setWorker hget _
      show 3 * w.pool.queue.length + 2 * (w.pool.setWorker i .awake).tasks.length
        + (w.pool.setWorker i .awake).awake < _
      omega

theorem step?_run {fuel : Nat} (h : w.effort ≤ fuel) : (w.run fuel).step? = none := by
  induction fuel generalizing w with
  | zero =>
    cases hstep : w.step? with
    | none => exact hstep
    | some v => exact absurd (effort_lt_of_step hstep) (by omega)
  | succ fuel ih =>
    unfold run
    cases hstep : w.step? with
    | none => exact hstep
    | some v => exact ih (Nat.le_of_lt_succ (Nat.lt_of_lt_of_le (effort_lt_of_step hstep) h))

theorem isSettled_settle (w : Workshop) : w.settle.IsSettled :=
  show (w.run w.effort).IsSettled from step?_eq_none_iff.1 (step?_run (Nat.le_refl w.effort))

/-! ## Either all are at work or nothing waits -/

/-- The workers do what they can: unless nothing waits each of them has a task, and every task that
one of them has is held back. -/
structure Saturated (w : Workshop) : Prop where
  full : w.pool.queue = [] ∨ w.pool.tasks.length = w.pool.size
  shut : ∀ job ∈ w.pool.tasks, w.isOpen job = false

theorem all_busy_iff : w.pool.tasks.length = w.pool.size ↔
    ∀ worker ∈ w.pool.workers, worker.isBusy = true := by
  rw [WorkPool.length_tasks]
  exact List.countP_eq_length

theorem IsSettled.saturated (h : w.IsSettled) (hw : w.pool.Sound) : w.Saturated where
  full := by
    by_cases hqueue : w.pool.queue = []
    · exact .inl hqueue
    -- A task waits and nobody is awake, so nobody is parked; and nobody has gone.
    have hawake : w.pool.awake = 0 := List.countP_eq_zero.2 fun worker hworker => by
      have hstays := h worker hworker
      cases worker with
      | awake => simp [canGoOn] at hstays
      | _ => simp [Worker.isAwake]
    have hparked : w.pool.parked = [] := by
      by_contra hparked
      have hcovered := hw.covered hparked
      rw [hawake] at hcovered
      exact hqueue (List.length_eq_zero_iff.1 (Nat.le_zero.1 hcovered))
    refine .inr (all_busy_iff.2 fun worker hworker => ?_)
    cases worker with
    | busy job => rfl
    | awake => simpa [canGoOn] using h _ hworker
    | gone => exact absurd (hw.gone _ hworker rfl).2 hqueue
    | parked =>
      obtain ⟨i, hi⟩ := List.mem_iff_getElem?.1 hworker
      have hin := (hw.mem_parked i).2 hi
      rw [hparked] at hin
      exact absurd hin List.not_mem_nil
  shut := fun job hjob => h _ (WorkPool.mem_tasks_iff.1 hjob)

theorem Saturated.look (h : w.Saturated) (i : Nat) : (w.look i).Saturated := by
  rcases w.look_cases i with ⟨job, rest, gauges, hi, hqueue, -⟩ | ⟨gauges, hqueue, htasks, hlook⟩
  · -- Whoever is awake has no task, so not all have one although one waits.
    rcases h.full with hempty | hall
    · exact absurd hempty (by simp [hqueue])
    · have hbusy := all_busy_iff.1 hall .awake (List.mem_of_getElem? hi)
      cases hbusy
  · rw [hlook]
    refine ⟨?_, fun job hjob => h.shut job (htasks.mem_iff.1 hjob)⟩
    show (w.pool.look i).queue = [] ∨ (w.pool.look i).tasks.length = (w.pool.look i).size
    rw [hqueue, htasks.length_eq, w.pool.size_look i]
    exact h.full

theorem Saturated.resume (h : w.Saturated) (i : Nat) : (w.resume i).Saturated := by
  rcases w.resume_cases i with hsame | ⟨job, errors, gauges, hi, hopen, -⟩
  · rwa [hsame]
  · have hshut := h.shut job (WorkPool.mem_tasks_iff.2 (List.mem_of_getElem? hi))
    exact absurd (hopen.symm.trans hshut) nofun

theorem Saturated.stop (h : w.Saturated) (held joined : Bool) (closers : List Closer) :
    ({ w with held, closers, pool := { w.pool.stop with joined } } : Workshop).Saturated where
  full := by
    show w.pool.queue = [] ∨ w.pool.stop.tasks.length = w.pool.stop.size
    rw [WorkPool.tasks_stop, WorkPool.size_stop]
    exact h.full
  shut := by
    show ∀ job ∈ w.pool.stop.tasks, w.isOpen job = false
    rw [WorkPool.tasks_stop]
    exact h.shut

theorem Saturated.act (h : w.Saturated) {m : PoolMove} (hm : m.isCalm = true) :
    (w.act m).2.Saturated := by
  cases m with
  | enqueue id gated ending => cases hm
  | release id => cases hm
  | shutdown =>
    simp only [Workshop.act, ifHeld]
    split
    · exact h.stop _ _ _
    · exact h
  | letGo =>
    simp only [Workshop.act, ifHeld]
    split
    · exact h.stop _ _ _
    · exact h
  | look i => exact h.look i
  | resume i => exact h.resume i
  | notice => exact ⟨h.full, h.shut⟩
  | settle =>
    exact settle_induction (fun _ i h => h.look i) (fun _ i h => h.resume i)
      (fun _ h => ⟨h.full, h.shut⟩) h

theorem Saturated.after (h : w.Saturated) {calm : List PoolMove}
    (hcalm : ∀ m ∈ calm, m.isCalm = true) : (w.after calm).Saturated := by
  induction calm generalizing w with
  | nil => exact h
  | cons m calm ih =>
    exact ih (h.act (hcalm m List.mem_cons_self)) fun n hn => hcalm n (List.mem_cons_of_mem m hn)

/-! ## Counting -/

/-- The tasks that were taken in and are not over. -/
def unfinished (w : Workshop) : List Job := w.accepted.filter (· ∉ w.ended)

theorem Accounts.unfinished_perm (hw : w.Accounts size) :
    w.unfinished.Perm (w.pool.tasks ++ w.pool.queue) := by
  have hnodup := (hw.accepted_perm.nodup_iff).1 (hw.accepted_nodup.of_map _)
  have hdisjoint := (List.nodup_append.1 hnodup).2.2
  have hperm := hw.accepted_perm.filter (fun job => decide (job ∉ w.ended))
  have hended : w.ended.filter (fun job => decide (job ∉ w.ended)) = [] := by
    simp [List.filter_eq_nil_iff]
  have hothers : (w.pool.tasks ++ w.pool.queue).filter (fun job => decide (job ∉ w.ended)) =
      w.pool.tasks ++ w.pool.queue :=
    List.filter_eq_self.2 fun job hjob => decide_eq_true fun hin => hdisjoint job hin job hjob rfl
  rwa [List.filter_append, hended, hothers, List.nil_append] at hperm

theorem Accounts.active_le (hw : w.Accounts size) : w.pool.active ≤ size := by
  rw [hw.pool.active, ← hw.staff]
  exact w.pool.length_tasks_le

/-- What the workers and the queue come to when the workers do what they can. -/
theorem Saturated.counts (h : w.Saturated) (hw : w.Accounts size) :
    w.pool.active = min size w.unfinished.length ∧
      w.pool.queue.length = w.unfinished.length - min size w.unfinished.length := by
  have hunfinished := hw.unfinished_perm.length_eq
  rw [List.length_append, ← hw.pool.active] at hunfinished
  have hle := hw.active_le
  rcases h.full with hqueue | hall
  · rw [hqueue, List.length_nil] at hunfinished ⊢
    omega
  · rw [← hw.pool.active, hw.staff] at hall
    omega

/-! ## The shared total -/

/-- The workers book into the shared totals, and these agree with their own counter. -/
structure Booked (w : Workshop) : Prop where
  shares : w.sharesTally = true
  workers : w.tally.workers.toNat = w.pool.active

namespace Booked

theorem create (h : create size true = .ok w) : w.Booked := by
  unfold Workshop.create WorkPool.create at h
  by_cases hsize : size = 0
  · rw [if_pos hsize] at h
    cases h
  · rw [if_neg hsize] at h
    cases h
    exact ⟨rfl, rfl⟩

theorem look (hb : w.Booked) (hw : w.Accounts size) (hword : size < UInt64.size) (i : Nat) :
    (w.look i).Booked := by
  have hle := (hw.look i).active_le
  have hlook := w.pool.looked i
  rcases w.look_cases i with ⟨job, rest, gauges, hi, hqueue, h⟩ | ⟨gauges, hqueue, htasks, h⟩
  · rw [h] at hle ⊢
    have hactive : (w.pool.look i).active = w.pool.active + 1 := by
      simp only [WorkPool.look, hi, hqueue]
    refine ⟨hb.shares, ?_⟩
    show (if w.sharesTally then w.tally.workerBusy else w.tally).workers.toNat =
      (w.pool.look i).active
    change (w.pool.look i).active ≤ size at hle
    rw [if_pos hb.shares, Tally.workerBusy, UInt64.toNat_add, hb.workers, hactive]
    exact Nat.mod_eq_of_lt (Nat.lt_of_le_of_lt (hactive ▸ hle) hword)
  · have hactive : (w.pool.look i).active = w.pool.active := by
      rw [(hw.pool.look i).active, hw.pool.active, htasks.length_eq]
    rw [h]
    exact ⟨hb.shares, hb.workers.trans hactive.symm⟩

theorem resume (hb : w.Booked) (hw : w.Accounts size) (i : Nat) : (w.resume i).Booked := by
  rcases w.resume_cases i with h | ⟨job, errors, gauges, hi, -, h⟩
  · rwa [h]
  · rw [h, WorkPool.finish_of_busy hi]
    refine ⟨hb.shares, ?_⟩
    show (if w.sharesTally then w.tally.workerFree else w.tally).workers.toNat = w.pool.active - 1
    have hpos : 0 < w.pool.active := by
      rw [hw.pool.active]
      exact List.length_pos_of_mem (WorkPool.mem_tasks_iff.2 (List.mem_of_getElem? hi))
    have hne : w.tally.workers ≠ 0 := by
      intro hzero
      rw [← hb.workers, hzero] at hpos
      exact absurd hpos (by simp)
    have hone : (1 : UInt64) ≤ w.tally.workers := by
      rw [UInt64.le_iff_toNat_le, hb.workers]
      exact hpos
    rw [if_pos hb.shares, Tally.workerFree, Tally.decrement, if_neg hne,
      UInt64.toNat_sub_of_le _ _ hone, hb.workers]
    rfl

theorem act (hb : w.Booked) (hw : w.Accounts size) (hword : size < UInt64.size) (m : PoolMove) :
    (w.act m).2.Booked := by
  cases m with
  | enqueue id gated ending =>
    simp only [Workshop.act, ifHeld]
    split
    · cases hstop : w.pool.stopped with
      | true =>
        simp only [enqueue, WorkPool.enqueue_of_stopped hstop]
        exact ⟨hb.shares, hb.workers⟩
      | false =>
        simp only [enqueue, WorkPool.enqueue_of_open hstop]
        refine ⟨hb.shares, ?_⟩
        rw [WorkPool.active_callOne]
        exact hb.workers
    · exact hb
  | release id => exact ⟨hb.shares, hb.workers⟩
  | shutdown =>
    simp only [Workshop.act, ifHeld]
    split
    · exact ⟨hb.shares, hb.workers⟩
    · exact hb
  | letGo =>
    simp only [Workshop.act, ifHeld]
    split
    · exact ⟨hb.shares, hb.workers⟩
    · exact hb
  | look i => exact hb.look hw hword i
  | resume i => exact hb.resume hw i
  | notice => exact ⟨hb.shares, hb.workers⟩
  | settle =>
    have hboth : w.settle.Accounts size ∧ w.settle.Booked :=
      settle_induction (P := fun v => v.Accounts size ∧ v.Booked)
        (fun v i h => ⟨h.1.look i, h.2.look h.1 hword i⟩)
        (fun v i h => ⟨h.1.resume i, h.2.resume h.1 i⟩)
        (fun v h => ⟨{ h.1 with }, ⟨h.2.shares, h.2.workers⟩⟩) ⟨hw, hb⟩
    exact hboth.2

theorem after (hb : w.Booked) (hw : w.Accounts size) (hword : size < UInt64.size)
    (moves : List PoolMove) : (w.after moves).Booked := by
  induction moves generalizing w with
  | nil => exact hb
  | cons m moves ih => exact ih (hb.act hw hword m) (hw.act m)

end Booked

/-! ## The bound is exact -/

/-- **As many are at work as there can be.** In every state of every run of a pool that books into
shared totals, however its tasks end: no more than `size` tasks are going on, the totals say how
many, and no worker has gone while the pool is open. Letting the workers go on always comes to an
end. And whenever nobody can go on, and from then on until a task is handed in or a gate is opened,
the workers have as many of the tasks that are not over as they can have, and the rest waits.

The number of workers is a word, like the total that counts them. -/
theorem active_eq_min_unfinished (hsize : 1 ≤ size) (hword : size < UInt64.size) :
    ∃ fresh, create size true = .ok fresh ∧ ∀ moves : List PoolMove,
      let w := fresh.after moves
      w.pool.active ≤ size ∧ w.tally.workers.toNat = w.pool.active ∧
      (w.pool.stopped = false → ∀ worker ∈ w.pool.workers, worker.isGone = false) ∧
      (w.unfinished = [] → w.pool.active = 0 ∧ w.tally.workers = 0 ∧ w.pool.queue = []) ∧
      w.settle.IsSettled ∧
      (w.IsSettled → ∀ calm : List PoolMove, (∀ m ∈ calm, m.isCalm = true) →
        let v := w.after calm
        v.pool.active = min size v.unfinished.length ∧
        v.pool.queue.length = v.unfinished.length - min size v.unfinished.length) := by
  obtain ⟨fresh, hfresh, -⟩ := exists_fresh hsize true
  have hstart := Accounts.create hfresh
  refine ⟨fresh, hfresh, fun moves => ?_⟩
  have hw := hstart.after moves
  have hb := (Booked.create hfresh).after hstart hword moves
  refine ⟨hw.active_le, hb.workers, hw.pool.not_gone, fun hnone => ?_, isSettled_settle _,
    fun hsettled calm hcalm => ?_⟩
  · have hperm := hw.unfinished_perm
    rw [hnone, List.nil_perm, List.append_eq_nil_iff] at hperm
    have hactive : (fresh.after moves).pool.active = 0 := by rw [hw.pool.active, hperm.1]; rfl
    exact ⟨hactive, UInt64.toNat_inj.1 (hb.workers.trans hactive), hperm.2⟩
  · exact ((hsettled.saturated hw.pool).after hcalm).counts (hw.after calm)

/-- Five tasks and two workers. The third task fails and the fourth breaks down as soon as they are
begun; the gates of the others stay shut while the pool is shut down. -/
theorem active_eq_min_unfinished_through_shutdown :
    let moves : List PoolMove :=
      [.enqueue 1 true .well, .enqueue 2 true .well, .enqueue 3 false (.fault .closed),
        .enqueue 4 false (.breakdown "boom"), .enqueue 5 true .well, .look 1, .settle, .release 1,
        .settle]
    let calm : List PoolMove := [.shutdown, .settle, .letGo, .look 0, .settle]
    1 ≤ 2 ∧ 2 < UInt64.size ∧ ∃ fresh, create 2 true = .ok fresh ∧
      (fresh.after moves).IsSettled ∧ (∀ m ∈ calm, m.isCalm = true) ∧
      ((fresh.after moves).after calm).unfinished.map (·.id) = [2, 5] ∧
      ((fresh.after moves).after calm).pool.active =
        min 2 ((fresh.after moves).after calm).unfinished.length := by
  intro moves calm
  have hword : 2 < UInt64.size := by decide
  obtain ⟨fresh, hfresh, h⟩ := active_eq_min_unfinished (by decide : 1 ≤ 2) hword
  have hsettled : (fresh.after moves).IsSettled := by
    cases hfresh
    unfold IsSettled
    decide
  have hcalm : ∀ m ∈ calm, m.isCalm = true := by decide
  refine ⟨by decide, hword, fresh, hfresh, hsettled, hcalm, ?_,
    ((h moves).2.2.2.2.2 hsettled calm hcalm).1⟩
  cases hfresh
  decide

end Workshop

end ChatHub
