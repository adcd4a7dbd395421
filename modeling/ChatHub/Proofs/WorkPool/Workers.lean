import Mathlib.Data.List.Nodup
import ChatHub.WorkPool
/-!
# What the workers of a pool are up to

Workers wake each other, race for the head of the queue and go home at different times. What keeps a
task from being stranded meanwhile is one line of `WorkPool.Sound`: as long as anybody is parked,
there is an awake worker for every task in the queue. A call wakes one worker for the one task it
adds; a worker that takes a task uses up both; and nobody parks unless the queue is empty. Wakeups
that find nobody parked need not be remembered for this, so the permit plays no part here.

`Looked` says once all that looking for a task can come to. Everything about a worker's step is read
off its four cases.
-/

namespace ChatHub

/-- An entry of a list, and what is before and behind it whatever stands there. -/
theorem exists_split_of_getElem? {α : Type} {l : List α} {i : Nat} {a : α} (h : l[i]? = some a) :
    ∃ front back, l = front ++ a :: back ∧ ∀ b, l.set i b = front ++ b :: back := by
  obtain ⟨hi, ha⟩ := List.getElem?_eq_some_iff.1 h
  refine ⟨l.take i, l.drop (i + 1), ?_, fun b => ?_⟩
  · rw [← ha, ← List.drop_eq_getElem_cons hi, List.take_append_drop]
  · rw [List.set_eq_take_append_cons_drop, if_pos hi]

namespace Worker

variable {τ : Type}

/-- The task of a worker. -/
def task? : Worker τ → Option τ
  | busy task => some task
  | _ => none

theorem isBusy_eq (w : Worker τ) : w.isBusy = w.task?.isSome := by
  cases w <;> rfl

theorem task?_eq_some_iff {w : Worker τ} {task : τ} : w.task? = some task ↔ w = .busy task := by
  cases w <;> simp [task?]

@[simp] theorem task?_wake (w : Worker τ) : w.wake.task? = w.task? := by
  cases w <;> rfl

@[simp] theorem isGone_wake (w : Worker τ) : w.wake.isGone = w.isGone := by
  cases w <;> rfl

theorem wake_ne_parked (w : Worker τ) : w.wake ≠ .parked := by
  cases w <;> simp [wake]

end Worker

namespace WorkPool

variable {τ : Type} {p q : WorkPool τ}

/-- The tasks that workers have, in the order of the workers. -/
def tasks (p : WorkPool τ) : List τ := p.workers.filterMap Worker.task?

theorem length_tasks (p : WorkPool τ) : p.tasks.length = p.workers.countP (·.isBusy) := by
  rw [tasks, List.length_filterMap_eq_countP]
  exact List.countP_congr fun w _ => by rw [w.isBusy_eq]

theorem length_tasks_le (p : WorkPool τ) : p.tasks.length ≤ p.size :=
  List.length_filterMap_le ..

theorem mem_tasks_iff {task : τ} : task ∈ p.tasks ↔ .busy task ∈ p.workers := by
  simp only [tasks, List.mem_filterMap, Worker.task?_eq_some_iff, exists_eq_right]

theorem taskOf?_eq_some_iff {i : Nat} {task : τ} :
    p.taskOf? i = some task ↔ p.workers[i]? = some (.busy task) := by
  unfold taskOf?
  split
  · rename_i task' h
    simp [h]
  · rename_i h
    simpa using h task

/-! ## One worker turns to something else -/

theorem tasks_setWorker {i : Nat} {old : Worker τ} (h : p.workers[i]? = some old)
    (new : Worker τ) :
    (old.task?.toList ++ (p.setWorker i new).tasks).Perm (new.task?.toList ++ p.tasks) := by
  obtain ⟨front, back, hworkers, hset⟩ := exists_split_of_getElem? h
  have hsplit : ∀ w : Worker τ, (front ++ w :: back).filterMap Worker.task? =
      front.filterMap Worker.task? ++ (w.task?.toList ++ back.filterMap Worker.task?) := by
    intro w
    rw [List.filterMap_append, List.filterMap_cons]
    cases w.task? <;> rfl
  rw [tasks, tasks, setWorker, hset, hworkers, hsplit, hsplit]
  -- The other workers' tasks stand between the two, so both lists are moved to the front.
  refine (List.perm_append_comm_assoc ..).trans ?_
  refine .trans ?_ (List.perm_append_comm_assoc ..)
  exact (List.perm_append_comm_assoc ..).append_left _

theorem length_tasks_setWorker {i : Nat} {old : Worker τ} (h : p.workers[i]? = some old)
    (new : Worker τ) :
    (p.setWorker i new).tasks.length + old.task?.toList.length =
      p.tasks.length + new.task?.toList.length := by
  have hlength := (tasks_setWorker h new).length_eq
  simp only [List.length_append] at hlength
  omega

/-- How many workers are about to look for a task. -/
def awake (p : WorkPool τ) : Nat := p.workers.countP (·.isAwake)

theorem awake_setWorker {i : Nat} {old : Worker τ} (h : p.workers[i]? = some old)
    (new : Worker τ) :
    (p.setWorker i new).awake + (if old.isAwake then 1 else 0) =
      p.awake + if new.isAwake then 1 else 0 := by
  obtain ⟨front, back, hworkers, hset⟩ := exists_split_of_getElem? h
  rw [awake, awake, setWorker, hset, hworkers]
  simp only [List.countP_append, List.countP_cons]
  omega

/-- All that looking for a task can come to. -/
inductive Looked (p : WorkPool τ) (i : Nat) : WorkPool τ → Prop where
  /-- The worker is not awake. -/
  | notAwake (h : p.workers[i]? ≠ some .awake) : Looked p i p
  | takes {task : τ} {rest : List τ} (h : p.workers[i]? = some .awake)
      (hqueue : p.queue = task :: rest) :
      Looked p i
        { p.setWorker i (.busy task) with
          permit := false, queue := rest, active := p.active + 1 }
  | leaves (h : p.workers[i]? = some .awake) (hqueue : p.queue = []) (hstop : p.stopped = true) :
      Looked p i { p.setWorker i .gone with permit := false }
  | parks (h : p.workers[i]? = some .awake) (hqueue : p.queue = []) (hopen : p.stopped = false) :
      Looked p i { p.setWorker i .parked with permit := false, parked := p.parked ++ [i] }

theorem looked (p : WorkPool τ) (i : Nat) : p.Looked i (p.look i) := by
  by_cases h : p.workers[i]? = some .awake
  · simp only [look, h]
    split
    · rename_i task rest hqueue
      exact .takes h hqueue
    · rename_i hqueue
      split
      · rename_i hstop
        exact .leaves h hqueue hstop
      · rename_i hopen
        exact .parks h hqueue (Bool.eq_false_iff.2 hopen)
  · have hsame : p.look i = p := by
      unfold look
      split
      · rename_i heq
        exact absurd heq h
      · rfl
    rw [hsame]
    exact .notAwake h

theorem finish_of_busy {i : Nat} {task : τ} (h : p.workers[i]? = some (.busy task)) :
    p.finish i = { p.setWorker i .awake with active := p.active - 1 } := by
  simp only [finish, h]

theorem enqueue_of_stopped (h : p.stopped = true) (task : τ) :
    p.enqueue task = .error .poolStopped := if_pos h

theorem enqueue_of_open (h : p.stopped = false) (task : τ) :
    p.enqueue task = .ok ({ p with queue := p.queue ++ [task] } : WorkPool τ).callOne :=
  if_neg (by simp [h])

theorem callOne_of_nobody {queue : List τ} (h : p.parked = []) :
    ({ p with queue } : WorkPool τ).callOne = { p with queue, permit := true } := by
  simp only [callOne, h]

theorem callOne_of_parked {queue : List τ} {i : Nat} {rest : List Nat} (h : p.parked = i :: rest)
    (hi : p.workers[i]? = some .parked) :
    ({ p with queue } : WorkPool τ).callOne =
      { p.setWorker i .awake with queue, parked := rest } := by
  simp only [callOne, h, List.modify_eq_set_getElem?, hi]
  rfl

theorem tasks_callOne (p : WorkPool τ) : p.callOne.tasks = p.tasks := by
  unfold callOne
  split
  · rfl
  · rename_i i rest _
    show (p.workers.modify i Worker.wake).filterMap Worker.task? = _
    cases hi : p.workers[i]? with
    | none => rw [List.modify_eq_set_getElem?, hi]; rfl
    | some w =>
      obtain ⟨front, back, hworkers, hset⟩ := exists_split_of_getElem? hi
      rw [List.modify_eq_set_getElem?, hi, Option.map_eq_map, Option.map_some, Option.getD_some,
        hset, tasks, hworkers]
      simp only [List.filterMap_append, List.filterMap_cons, Worker.task?_wake]

@[simp] theorem queue_callOne (p : WorkPool τ) : p.callOne.queue = p.queue := by
  unfold callOne
  split <;> rfl

@[simp] theorem stopped_callOne (p : WorkPool τ) : p.callOne.stopped = p.stopped := by
  unfold callOne
  split <;> rfl

@[simp] theorem active_callOne (p : WorkPool τ) : p.callOne.active = p.active := by
  unfold callOne
  split <;> rfl

@[simp] theorem size_callOne (p : WorkPool τ) : p.callOne.size = p.size := by
  unfold callOne size
  split
  · rfl
  · exact List.length_modify ..

@[simp] theorem tasks_stop (p : WorkPool τ) : p.stop.tasks = p.tasks := by
  show (p.workers.map Worker.wake).filterMap Worker.task? = _
  rw [List.filterMap_map]
  exact congrArg (List.filterMap · p.workers) (funext Worker.task?_wake)

@[simp] theorem size_stop (p : WorkPool τ) : p.stop.size = p.size := List.length_map ..

theorem size_look (p : WorkPool τ) (i : Nat) : (p.look i).size = p.size := by
  have h := p.looked i
  generalize p.look i = q at h
  cases h with
  | notAwake => rfl
  | takes | leaves | parks => exact List.length_set

@[simp] theorem stopped_look (p : WorkPool τ) (i : Nat) : (p.look i).stopped = p.stopped := by
  have h := p.looked i
  generalize p.look i = q at h
  cases h <;> rfl

@[simp] theorem stopped_finish (p : WorkPool τ) (i : Nat) : (p.finish i).stopped = p.stopped := by
  unfold finish
  split <;> rfl

theorem size_finish (p : WorkPool τ) (i : Nat) : (p.finish i).size = p.size := by
  unfold finish
  split
  · exact List.length_set
  · rfl

theorem joined_callOne (p : WorkPool τ) : p.callOne.joined = p.joined := by
  unfold callOne
  split <;> rfl

theorem joined_look (p : WorkPool τ) (i : Nat) : (p.look i).joined = p.joined := by
  have h := p.looked i
  generalize p.look i = q at h
  cases h <;> rfl

theorem joined_finish (p : WorkPool τ) (i : Nat) : (p.finish i).joined = p.joined := by
  unfold finish
  split <;> rfl

/-- Nobody looks and nobody is busy in a pool where all have gone home. -/
theorem eq_gone_of_deserted (h : p.isDeserted = true) {i : Nat} {w : Worker τ}
    (hi : p.workers[i]? = some w) : w = .gone := by
  have hgone := List.all_eq_true.1 h w (List.mem_of_getElem? hi)
  cases w <;> first | rfl | cases hgone

/-! ## What always holds -/

/-- A pool in order. -/
structure Sound (p : WorkPool τ) : Prop where
  /-- The counter tells how many workers have a task. -/
  active : p.active = p.tasks.length
  /-- Who is on the list of the parked is parked, and the other way round. -/
  mem_parked : ∀ i, i ∈ p.parked ↔ p.workers[i]? = some .parked
  parked_nodup : p.parked.Nodup
  /-- As long as anybody is parked, there is an awake worker for every task that waits. -/
  covered : p.parked ≠ [] → p.queue.length ≤ p.awake
  /-- Nobody goes home before the pool has been stopped and its queue worked off. -/
  gone : ∀ w ∈ p.workers, w.isGone = true → p.stopped = true ∧ p.queue = []
  /-- Nobody is parked in a pool that has been stopped. -/
  stopped : p.stopped = true → p.parked = []

theorem Sound.create {size : Nat} (h : create size = .ok p) : p.Sound := by
  unfold WorkPool.create at h
  split at h
  · cases h
  · cases h
    exact
      { active := by
          rw [length_tasks, List.countP_eq_zero.2]
          exact fun w hw => by simp [List.eq_of_mem_replicate hw, Worker.isBusy]
        mem_parked := fun i => by
          simp only [List.not_mem_nil, false_iff, List.getElem?_replicate]
          split <;> simp
        parked_nodup := .nil
        covered := fun h => absurd rfl h
        gone := fun w hw hgone => by
          rw [List.eq_of_mem_replicate hw] at hgone
          cases hgone
        stopped := nofun }

/-- Nobody has gone home from a pool that is open. -/
theorem Sound.not_gone (hp : p.Sound) (hopen : p.stopped = false) :
    ∀ w ∈ p.workers, w.isGone = false := fun w hw =>
  Bool.eq_false_iff.2 fun hg => by simp [(hp.gone w hw hg).1] at hopen

/-- A worker that is not parked turns to something else than parking. -/
theorem Sound.setWorker (hp : p.Sound) {i : Nat} {old : Worker τ}
    (h : p.workers[i]? = some old) (hold : old ≠ .parked) (new : Worker τ) (hnew : new ≠ .parked)
    {queue : List τ} {active : Nat} {permit : Bool}
    (hactive : active = (p.setWorker i new).tasks.length)
    (hcovered : p.parked ≠ [] → queue.length ≤ (p.setWorker i new).awake)
    (hgone : ∀ w ∈ (p.setWorker i new).workers, w.isGone = true →
      p.stopped = true ∧ queue = []) :
    ({ p.setWorker i new with queue, active, permit } : WorkPool τ).Sound :=
  { active := hactive
    mem_parked := fun j => by
      show j ∈ p.parked ↔ (p.workers.set i new)[j]? = some .parked
      rw [hp.mem_parked, List.getElem?_set]
      by_cases hj : i = j
      · subst hj
        simp [h, hold, hnew]
      · rw [if_neg hj]
    parked_nodup := hp.parked_nodup
    covered := hcovered
    gone := hgone
    stopped := hp.stopped }

theorem Sound.callOne (hp : p.Sound) (hopen : p.stopped = false) (task : τ) :
    ({ p with queue := p.queue ++ [task] } : WorkPool τ).callOne.Sound := by
  have hgone := hp.not_gone hopen
  obtain hparked | ⟨i, rest, hparked⟩ : p.parked = [] ∨ ∃ i rest, p.parked = i :: rest := by
    cases p.parked <;> simp
  · rw [callOne_of_nobody hparked]
    exact
      { hp with
        covered := fun h => absurd hparked h
        gone := fun w hw hg => absurd hg (by simp [hgone w hw]) }
  · have hi : p.workers[i]? = some .parked := (hp.mem_parked i).1 (hparked ▸ List.mem_cons_self)
    have hnodup := List.nodup_cons.1 (hparked ▸ hp.parked_nodup)
    rw [callOne_of_parked hparked hi]
    exact
      { active := hp.active.trans (length_tasks_setWorker hi .awake).symm
        mem_parked := fun j => by
          show j ∈ rest ↔ (p.workers.set i .awake)[j]? = some .parked
          rw [List.getElem?_set]
          by_cases hj : i = j
          · subst hj
            simp [hnodup.1]
          · rw [if_neg hj, ← hp.mem_parked, hparked, List.mem_cons, or_iff_right (Ne.symm hj)]
        parked_nodup := hnodup.2
        covered := fun _ => by
          have hcovered := hp.covered (by simp [hparked])
          have hawake : (p.setWorker i .awake).awake = p.awake + 1 := awake_setWorker hi .awake
          show (p.queue ++ [task]).length ≤ (p.setWorker i .awake).awake
          rw [hawake, List.length_append, List.length_singleton]
          exact Nat.succ_le_succ hcovered
        gone := fun w hw hg => by
          rcases List.mem_or_eq_of_mem_set hw with hw | rfl
          · exact absurd hg (by simp [hgone w hw])
          · cases hg
        stopped := fun h => absurd (h.symm.trans hopen) nofun }

theorem Sound.enqueue (hp : p.Sound) {task : τ} (h : p.enqueue task = .ok q) : q.Sound := by
  cases hstop : p.stopped with
  | true =>
    rw [enqueue_of_stopped hstop] at h
    cases h
  | false =>
    rw [enqueue_of_open hstop] at h
    exact Except.ok.inj h ▸ hp.callOne hstop task

theorem Sound.stop (hp : p.Sound) : p.stop.Sound :=
  { active := hp.active.trans (by rw [tasks_stop])
    mem_parked := fun i => by
      simp only [WorkPool.stop, List.not_mem_nil, false_iff, List.getElem?_map,
        Option.map_eq_some_iff, not_exists, not_and]
      exact fun w _ => w.wake_ne_parked
    parked_nodup := .nil
    covered := fun h => absurd rfl h
    gone := fun w hw hg => by
      obtain ⟨v, hv, rfl⟩ := List.mem_map.1 hw
      exact ⟨rfl, (hp.gone v hv (v.isGone_wake ▸ hg)).2⟩
    stopped := fun _ => rfl }

theorem Sound.shutdown (hp : p.Sound) : p.shutdown.2.Sound :=
  { hp.stop with }

theorem Sound.look (hp : p.Sound) (i : Nat) : (p.look i).Sound := by
  have h := p.looked i
  generalize p.look i = q at h
  cases h with
  | notAwake => exact hp
  | @takes task rest h hqueue =>
    refine hp.setWorker h nofun (.busy task) nofun ?_ (fun hparked => ?_) fun w hw hg => ?_
    · rw [hp.active]
      exact (length_tasks_setWorker h (.busy task)).symm
    · -- One task and one awake worker fewer.
      have hcovered := hp.covered hparked
      have hawake : (p.setWorker i (.busy task)).awake + 1 = p.awake := awake_setWorker h _
      rw [hqueue, ← hawake] at hcovered
      exact Nat.le_of_succ_le_succ hcovered
    · rcases List.mem_or_eq_of_mem_set hw with hw | rfl
      · exact absurd (hp.gone w hw hg).2 (by simp [hqueue])
      · cases hg
  | leaves h hqueue hstop =>
    refine hp.setWorker h nofun .gone nofun ?_ (fun hparked => ?_) fun _ _ _ => ⟨hstop, hqueue⟩
    · exact hp.active.trans (length_tasks_setWorker h .gone).symm
    · exact absurd (hp.stopped hstop) hparked
  | parks h hqueue hopen =>
    have hnew : i ∉ p.parked := fun hin => by
      simp [(hp.mem_parked i).1 hin] at h
    exact
      { active := hp.active.trans (length_tasks_setWorker h .parked).symm
        mem_parked := fun j => by
          show j ∈ p.parked ++ [i] ↔ (p.workers.set i .parked)[j]? = some .parked
          rw [List.mem_append, List.mem_singleton, hp.mem_parked, List.getElem?_set]
          by_cases hj : i = j
          · subst hj
            simp [(List.getElem?_eq_some_iff.1 h).1]
          · simp [hj, Ne.symm hj]
        parked_nodup := hp.parked_nodup.append (List.nodup_singleton i) (by simpa using hnew)
        covered := fun _ => by
          show p.queue.length ≤ _
          rw [hqueue]
          exact Nat.zero_le _
        gone := fun w hw hg => by
          rcases List.mem_or_eq_of_mem_set hw with hw | rfl
          · exact hp.gone w hw hg
          · cases hg
        stopped := fun hstop => absurd (hstop.symm.trans hopen) nofun }

theorem Sound.finish (hp : p.Sound) (i : Nat) : (p.finish i).Sound := by
  unfold WorkPool.finish
  split
  · rename_i task h
    refine hp.setWorker h nofun .awake nofun ?_ (fun hparked => ?_) fun w hw hg => ?_
    · rw [hp.active]
      exact Nat.sub_eq_of_eq_add (length_tasks_setWorker h .awake).symm
    · have hawake : (p.setWorker i .awake).awake = p.awake + 1 := awake_setWorker h .awake
      rw [hawake]
      exact Nat.le_succ_of_le (hp.covered hparked)
    · rcases List.mem_or_eq_of_mem_set hw with hw | rfl
      · exact hp.gone w hw hg
      · cases hg
  · exact hp

/-- When everybody has gone home there is no task left, neither in a worker's hands nor waiting. -/
theorem Sound.nothing_left (hp : p.Sound) (hsize : 1 ≤ p.size) (h : p.isDeserted = true) :
    p.tasks = [] ∧ p.queue = [] := by
  have hgone := List.all_eq_true.1 h
  constructor
  · refine List.filterMap_eq_nil_iff.2 fun w hw => ?_
    have hwgone := hgone w hw
    cases w <;> first | rfl | cases hwgone
  · obtain ⟨w, hw⟩ : ∃ w, w ∈ p.workers := List.exists_mem_of_length_pos hsize
    exact (hp.gone w hw (hgone w hw)).2

end WorkPool

end ChatHub
