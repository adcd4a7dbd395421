import ChatHub.Proofs.WorkPool.Occupancy
/-!
# When a shutdown returns

Whoever holds the pool may ask it to shut down, any number of times and also while somebody else is
still waiting. Every caller stops the pool, but only one of them waits: the first takes the workers'
handles, so that those who come later find none.

For the first caller a shutdown is what it says. When it returns, all workers have gone home, and
with them everything is over: nobody is at work, nothing waits, and every task that was taken in has
ended (`Over`). It does return, namely as soon as the last of these tasks has ended. The later
callers return the next time they get their turn, and what the workers do meanwhile is not their
concern (`shutdown_returned_iff`).

`Asked` is what holds of the callers between any two moves. Its last field is the promise to the
first caller; it survives because nothing brings a worker back who has gone home.
-/

namespace ChatHub

/-! ## Nobody comes back -/

namespace WorkPool

variable {τ : Type} {p : WorkPool τ}

theorem look_of_deserted (h : p.isDeserted = true) (i : Nat) : p.look i = p := by
  have hlook := p.looked i
  generalize p.look i = q at hlook
  cases hlook with
  | notAwake => rfl
  | takes hi | leaves hi | parks hi => cases eq_gone_of_deserted h hi

theorem finish_of_deserted (h : p.isDeserted = true) (i : Nat) : p.finish i = p := by
  unfold finish
  split
  · rename_i task hi
    cases eq_gone_of_deserted h hi
  · rfl

theorem isDeserted_stop (p : WorkPool τ) : p.stop.isDeserted = p.isDeserted := by
  show (p.workers.map Worker.wake).all (·.isGone) = p.workers.all (·.isGone)
  simp only [List.all_map, Function.comp_def, Worker.isGone_wake]

end WorkPool

namespace Workshop

variable {w v : Workshop} {size : Nat}

/-! ## Everything is over -/

/-- Everything is over: there is nothing left of what was handed in, and nobody left to do it. -/
structure Over (w : Workshop) : Prop where
  unfinished : w.unfinished = []
  queue : w.pool.queue = []
  active : w.pool.active = 0
  deserted : w.pool.isDeserted = true

theorem Accounts.over_of_deserted (hw : w.Accounts size) (hsize : 1 ≤ size)
    (h : w.pool.isDeserted = true) : w.Over := by
  obtain ⟨htasks, hqueue⟩ := hw.nothing_left hsize h
  refine ⟨?_, hqueue, ?_, h⟩
  · have hperm := hw.unfinished_perm
    rw [htasks, hqueue] at hperm
    exact hperm.eq_nil
  · rw [hw.pool.active, htasks]
    rfl

/-- In a stopped pool in which nobody can go on, whoever has not gone home has a task. -/
theorem IsSettled.deserted_of_finished (h : w.IsSettled) (hw : w.Accounts size)
    (hstop : w.pool.stopped = true) (hfinished : w.unfinished = []) :
    w.pool.isDeserted = true := by
  have hperm := hw.unfinished_perm
  rw [hfinished, List.nil_perm, List.append_eq_nil_iff] at hperm
  refine List.all_eq_true.2 fun worker hworker => ?_
  cases worker with
  | gone => rfl
  | awake => cases h _ hworker
  | busy job =>
    have hin := WorkPool.mem_tasks_iff.2 hworker
    rw [hperm.1] at hin
    cases hin
  | parked =>
    obtain ⟨i, hi⟩ := List.mem_iff_getElem?.1 hworker
    have hin := (hw.pool.mem_parked i).2 hi
    rw [hw.pool.stopped hstop] at hin
    cases hin

/-! ## Those who asked -/

theorem unasked_of_create {sharesTally : Bool} (h : create size sharesTally = .ok w) :
    w.closers = [] ∧ w.pool.joined = false := by
  unfold create WorkPool.create at h
  by_cases hsize : size = 0
  · rw [if_pos hsize] at h
    cases h
  · rw [if_neg hsize] at h
    cases h
    exact ⟨rfl, rfl⟩

/-- What holds of those who asked the pool to shut down. -/
structure Asked (w : Workshop) : Prop where
  /-- The handles are taken as soon as anybody has asked. -/
  joined : w.pool.joined = !w.closers.isEmpty
  stopped : w.closers ≠ [] → w.pool.stopped = true
  waits : ∀ i c, w.closers[i]? = some c → (c.waits = true ↔ i = 0)
  /-- Whoever waits for the workers returns after they have gone. -/
  returned : ∀ c ∈ w.closers, c.waits = true → c.returned = true → w.pool.isDeserted = true

namespace Asked

theorem create {sharesTally : Bool} (h : create size sharesTally = .ok w) : w.Asked := by
  obtain ⟨hnone, hjoined⟩ := unasked_of_create h
  refine ⟨?_, fun hasked => absurd hnone hasked, ?_, ?_⟩
  · rw [hjoined, hnone]
    rfl
  · rw [hnone]
    nofun
  · rw [hnone]
    nofun

/-- What the callers know is not touched by what the workers do. -/
theorem frame (ha : w.Asked) (hclosers : v.closers = w.closers)
    (hjoined : v.pool.joined = w.pool.joined) (hstopped : v.pool.stopped = w.pool.stopped)
    (hdeserted : w.closers ≠ [] → w.pool.isDeserted = true → v.pool.isDeserted = true) :
    v.Asked := by
  refine ⟨?_, ?_, ?_, ?_⟩
  · rw [hjoined, hclosers]
    exact ha.joined
  · rw [hstopped, hclosers]
    exact ha.stopped
  · rw [hclosers]
    exact ha.waits
  · rw [hclosers]
    intro c hc hwaits hreturned
    exact hdeserted (List.ne_nil_of_mem hc) (ha.returned c hc hwaits hreturned)

theorem look (ha : w.Asked) (i : Nat) : (w.look i).Asked := by
  have hstay : w.pool.isDeserted = true → (w.pool.look i).isDeserted = true := by
    intro h
    rw [WorkPool.look_of_deserted h]
    exact h
  rcases w.look_cases i with ⟨job, rest, gauges, -, -, h⟩ | ⟨gauges, -, -, h⟩
  · rw [h]
    exact ha.frame rfl (w.pool.joined_look i) (w.pool.stopped_look i) fun _ => hstay
  · rw [h]
    exact ha.frame rfl (w.pool.joined_look i) (w.pool.stopped_look i) fun _ => hstay

theorem resume (ha : w.Asked) (i : Nat) : (w.resume i).Asked := by
  rcases w.resume_cases i with h | ⟨job, errors, gauges, -, -, h⟩
  · rwa [h]
  · rw [h]
    refine ha.frame rfl (w.pool.joined_finish i) (w.pool.stopped_finish i) fun _ hdeserted => ?_
    show (w.pool.finish i).isDeserted = true
    rw [WorkPool.finish_of_deserted hdeserted]
    exact hdeserted

theorem enqueue (ha : w.Asked) (id : Nat) (gated : Bool) (ending : Ending) :
    (w.enqueue id gated ending).2.Asked := by
  cases hstop : w.pool.stopped with
  | true =>
    simp only [Workshop.enqueue, WorkPool.enqueue_of_stopped hstop]
    exact ha.frame rfl rfl rfl fun _ h => h
  | false =>
    -- Nobody has asked yet, so there is nobody to whom a newly woken worker would matter.
    simp only [Workshop.enqueue, WorkPool.enqueue_of_open hstop]
    refine ha.frame rfl (WorkPool.joined_callOne _) (WorkPool.stopped_callOne _) fun hasked => ?_
    rw [ha.stopped hasked] at hstop
    cases hstop

theorem shutdown (ha : w.Asked) : w.shutdown.Asked := by
  refine ⟨?_, fun _ => rfl, ?_, ?_⟩
  · show true = !(w.closers ++ [_]).isEmpty
    simp
  · intro i c hc
    change (w.closers ++ [_])[i]? = some c at hc
    rcases Nat.lt_or_ge i w.closers.length with hlt | hge
    · rw [List.getElem?_append_left hlt] at hc
      exact ha.waits i c hc
    · rw [List.getElem?_append_right hge, List.getElem?_singleton] at hc
      split at hc
      · rename_i hlast
        obtain rfl := Option.some.inj hc
        have hi : i = w.closers.length := by omega
        show (!w.pool.joined) = true ↔ i = 0
        rw [ha.joined, Bool.not_not, List.isEmpty_iff, hi, List.length_eq_zero_iff]
      · cases hc
  · intro c hc hwaits hreturned
    show w.pool.stop.isDeserted = true
    rw [WorkPool.isDeserted_stop]
    rcases List.mem_append.1 hc with hc | hc
    · exact ha.returned c hc hwaits hreturned
    · rw [List.mem_singleton.1 hc] at hreturned
      cases hreturned

theorem letGo (ha : w.Asked) : w.letGo.Asked := by
  refine ⟨ha.joined, fun _ => rfl, ha.waits, ?_⟩
  show ∀ c ∈ w.closers, c.waits = true → c.returned = true → w.pool.stop.isDeserted = true
  rw [WorkPool.isDeserted_stop]
  exact ha.returned

theorem notice (ha : w.Asked) : w.notice.Asked := by
  refine ⟨?_, ?_, ?_, ?_⟩
  · show w.pool.joined = !(w.closers.map _).isEmpty
    rw [List.isEmpty_map]
    exact ha.joined
  · intro hasked
    exact ha.stopped fun hnone => hasked (congrArg (List.map _) hnone)
  · intro i c hc
    change (w.closers.map _)[i]? = some c at hc
    rw [List.getElem?_map, Option.map_eq_some_iff] at hc
    obtain ⟨d, hd, rfl⟩ := hc
    exact ha.waits i d hd
  · intro c hc hwaits hreturned
    obtain ⟨d, hd, rfl⟩ := List.mem_map.1 hc
    change d.waits = true at hwaits
    change (d.returned || !d.waits || w.pool.isDeserted) = true at hreturned
    rw [hwaits, Bool.not_true, Bool.or_false, Bool.or_eq_true] at hreturned
    rcases hreturned with hreturned | hdeserted
    · exact ha.returned d hd hwaits hreturned
    · exact hdeserted

theorem act (ha : w.Asked) (m : PoolMove) : (w.act m).2.Asked := by
  have hheld : ∀ {ask : PoolAnswer × Workshop}, ask.2.Asked → (w.ifHeld ask).2.Asked := by
    intro ask hask
    unfold ifHeld
    split
    · exact hask
    · exact ha
  cases m with
  | enqueue id gated ending => exact hheld (ha.enqueue id gated ending)
  | release id => exact ha.frame rfl rfl rfl fun _ h => h
  | shutdown => exact hheld ha.shutdown
  | letGo => exact hheld ha.letGo
  | look i => exact ha.look i
  | resume i => exact ha.resume i
  | notice => exact ha.notice
  | settle =>
    exact settle_induction (fun _ i h => h.look i) (fun _ i h => h.resume i)
      (fun _ h => h.notice) ha

theorem after (ha : w.Asked) (moves : List PoolMove) : (w.after moves).Asked := by
  induction moves generalizing w with
  | nil => exact ha
  | cons m moves ih => exact ih (ha.act m)

end Asked

/-- Once everybody has had a turn, whoever has nobody to wait for has returned. -/
theorem returned_settle (w : Workshop) {c : Closer} (hc : c ∈ w.settle.closers)
    (h : c.waits = false ∨ w.settle.pool.isDeserted = true) : c.returned = true := by
  obtain ⟨d, -, rfl⟩ := List.mem_map.1 hc
  show (d.returned || !d.waits || (w.run w.effort).pool.isDeserted) = true
  rcases h with hwaits | hdeserted
  · change d.waits = false at hwaits
    rw [hwaits, Bool.not_false, Bool.or_true, Bool.true_or]
  · change (w.run w.effort).pool.isDeserted = true at hdeserted
    rw [hdeserted, Bool.or_true]

/-! ## How many asked -/

theorem length_closers_act (w : Workshop) (m : PoolMove) :
    (w.act m).2.closers.length =
      w.closers.length + if w.held = true ∧ m = .shutdown then 1 else 0 := by
  cases m with
  | enqueue id gated ending =>
    have hsame : (w.enqueue id gated ending).2.closers = w.closers := by
      unfold enqueue
      dsimp only
      split <;> rfl
    cases hheld : w.held <;> simp [act, ifHeld, hheld, hsame]
  | release id => simp [act, release]
  | shutdown => cases hheld : w.held <;> simp [act, ifHeld, hheld, shutdown]
  | letGo => cases hheld : w.held <;> simp [act, ifHeld, hheld, letGo]
  | look i =>
    rcases w.look_cases i with ⟨job, rest, gauges, -, -, h⟩ | ⟨gauges, -, -, h⟩ <;> simp [act, h]
  | resume i =>
    rcases w.resume_cases i with h | ⟨job, errors, gauges, -, -, h⟩ <;> simp [act, h]
  | notice => simp [act, notice]
  | settle =>
    have hsame : w.settle.closers.length = w.closers.length := by
      refine settle_induction (P := fun v => v.closers.length = w.closers.length) ?_ ?_ ?_ rfl
      · intro v i hv
        rcases v.look_cases i with ⟨job, rest, gauges, -, -, h⟩ | ⟨gauges, -, -, h⟩ <;> rw [h] <;>
          exact hv
      · intro v i hv
        rcases v.resume_cases i with h | ⟨job, errors, gauges, -, -, h⟩ <;> rw [h] <;> exact hv
      · intro v hv
        exact (List.length_map _).trans hv
    simp [act, hsame]

/-- Everybody who asks before the handle is let go is on the list. -/
theorem length_closers_after (w : Workshop) (moves : List PoolMove) :
    (w.after moves).closers.length = w.closers.length +
      if w.held = true then (moves.takeWhile (· ≠ .letGo)).count .shutdown else 0 := by
  induction moves generalizing w with
  | nil => simp [after]
  | cons m moves ih =>
    have hheld : (w.act m).2.held = true ↔ w.held = true ∧ m ≠ .letGo :=
      (congrArg (Desk.held · = true) (w.desk_act m)).to_iff.trans (w.desk.held_act_iff m)
    rw [show w.after (m :: moves) = (w.act m).2.after moves from rfl, ih, length_closers_act]
    by_cases hw : w.held = true
    · by_cases hm : m = .letGo
      · subst hm
        simp [hheld]
      · by_cases hasks : m = .shutdown
        · subst hasks
          simp [hheld, hw]
          omega
        · simp [hheld, hw, hm, hasks]
    · simp [hheld, hw]

/-! ## When they return -/

/-- **The first caller waits, the others do not.** In every state of every run of a pool, however
its tasks end and in whichever order the workers get their turns: everybody who asked for a shutdown
is on the list, in the order of the calls. If the first has returned, everything is over. Once the
workers have gone on until nobody can, the first has returned exactly if everything is over, and all
others have returned whether it is or not; in particular, if all tasks that were taken in have
ended, nobody is left waiting. -/
theorem shutdown_returned_iff (hsize : 1 ≤ size) (sharesTally : Bool) :
    ∃ fresh, create size sharesTally = .ok fresh ∧ ∀ moves : List PoolMove,
      let w := fresh.after moves
      w.closers.length = (moves.takeWhile (· ≠ .letGo)).count .shutdown ∧
      (∀ c, w.closers[0]? = some c → c.returned = true → w.Over) ∧
      (∀ i c, w.settle.closers[i]? = some c →
        (c.returned = true ↔ i ≠ 0 ∨ w.settle.Over)) ∧
      (w.settle.unfinished = [] → ∀ c ∈ w.settle.closers, c.returned = true) := by
  obtain ⟨fresh, hfresh, hheld, -, -⟩ := exists_fresh hsize sharesTally
  refine ⟨fresh, hfresh, fun moves => ?_⟩
  have hw := (Accounts.create hfresh).after moves
  have ha := (Asked.create hfresh).after moves
  have hwSettled : (fresh.after moves).settle.Accounts size := hw.act .settle
  have haSettled : (fresh.after moves).settle.Asked := ha.act .settle
  refine ⟨?_, ?_, ?_, ?_⟩
  · rw [length_closers_after, (unasked_of_create hfresh).1, if_pos hheld, List.length_nil,
      Nat.zero_add]
  · intro c hc hreturned
    have hwaits := (ha.waits 0 c hc).2 rfl
    exact hw.over_of_deserted hsize
      (ha.returned c (List.mem_of_getElem? hc) hwaits hreturned)
  · intro i c hc
    have hmem := List.mem_of_getElem? hc
    constructor
    · intro hreturned
      by_cases hi : i = 0
      · have hwaits := (haSettled.waits i c hc).2 hi
        exact .inr (hwSettled.over_of_deserted hsize
          (haSettled.returned c hmem hwaits hreturned))
      · exact .inl hi
    · rintro (hi | hover)
      · have hwaits : c.waits = false :=
          Bool.eq_false_iff.2 fun hwaits => hi ((haSettled.waits i c hc).1 hwaits)
        exact returned_settle _ hmem (.inl hwaits)
      · exact returned_settle _ hmem (.inr hover.deserted)
  · intro hfinished c hc
    have hstop := haSettled.stopped (List.ne_nil_of_mem hc)
    exact returned_settle _ hc
      (.inr ((isSettled_settle _).deserted_of_finished hwSettled hstop hfinished))

/-- Two workers, of whose three tasks one breaks down and one fails, and two callers, the second of
whom asks while the first still waits. Opening the last gate lets the first caller return too. -/
theorem shutdown_returned_iff_of_two_callers :
    let moves : List PoolMove :=
      [.enqueue 1 true (.breakdown "boom"), .enqueue 2 true .well, .settle,
        .enqueue 3 false (.fault .closed), .shutdown, .release 1, .settle, .shutdown]
    let rest : List PoolMove := [.settle, .release 2]
    1 ≤ 2 ∧ ∃ fresh, create 2 true = .ok fresh ∧
      (fresh.after moves).settle.closers = [⟨true, false⟩, ⟨false, true⟩] ∧
      ¬ (fresh.after moves).settle.Over ∧
      (fresh.after (moves ++ rest)).settle.closers = [⟨true, true⟩, ⟨false, true⟩] ∧
      (fresh.after (moves ++ rest)).settle.Over := by
  intro moves rest
  have hsize : 1 ≤ 2 := by decide
  obtain ⟨fresh, hfresh, h⟩ := shutdown_returned_iff hsize true
  have hwaiting : (fresh.after moves).settle.closers = [⟨true, false⟩, ⟨false, true⟩] := by
    cases hfresh
    decide
  have hback : (fresh.after (moves ++ rest)).settle.closers = [⟨true, true⟩, ⟨false, true⟩] := by
    cases hfresh
    decide
  refine ⟨hsize, fresh, hfresh, hwaiting, fun hover => ?_, hback, ?_⟩
  · have hfirst := ((h moves).2.2.1 0 ⟨true, false⟩ (by rw [hwaiting]; rfl)).2 (.inr hover)
    cases hfirst
  · have hfirst := ((h (moves ++ rest)).2.2.1 0 ⟨true, true⟩ (by rw [hback]; rfl)).1 rfl
    exact hfirst.resolve_left fun hne => hne rfl

/-- A second caller returns while the only worker still has a task that has not ended. -/
theorem second_shutdown_returns_early :
    ∃ fresh, create 1 true = .ok fresh ∧
      let w := fresh.after [.enqueue 1 true .well, .settle, .shutdown, .shutdown, .settle]
      w.closers[1]? = some ⟨false, true⟩ ∧ w.unfinished.map (·.id) = [1] ∧ w.pool.active = 1 ∧
      w.pool.isDeserted = false := by
  obtain ⟨fresh, hfresh, -⟩ := exists_fresh (by decide : 1 ≤ 1) true
  refine ⟨fresh, hfresh, ?_⟩
  cases hfresh
  decide

end Workshop

end ChatHub
