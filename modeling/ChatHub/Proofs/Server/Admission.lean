import Mathlib.Data.List.Perm.Subperm
import ChatHub.Proofs.Server.Lifecycle
import ChatHub.Proofs.Server.Steadiness
/-!
# Who is let in, and when

Three parts of a server keep their own lists of who is there: the door knows who is pending, the
pool who waits and who has a worker, and the hub who is registered. `Admission` says how they agree
after any run, whatever the sessions do in between: a handshake that fails, a peer that goes while
it still waits, workers that are free in any order.

That sessions begin in the order in which they came is said with every beginning of the run
(`startOrder`). A move begins whoever waited before it and waits no longer; together with those who
wait still, these are all who came, in the order in which they came.
-/

namespace ChatHub

theorem filter_notMem_append {α : Type} [DecidableEq α] {taken rest : List α}
    (h : (taken ++ rest).Nodup) : (taken ++ rest).filter (· ∉ rest) = taken := by
  have hdisjoint := (List.nodup_append.1 h).2.2
  rw [List.filter_append, List.filter_eq_self.2, List.filter_eq_nil_iff.2, List.append_nil]
  · intro a ha
    simpa using ha
  · intro a ha
    simpa using fun hin => hdisjoint a ha a hin rfl

namespace Server

variable {s : Server} {settings : Settings}

/-- How many come before the server is asked to close, or the process ends. -/
def arrivals (moves : List Move) : Nat :=
  (moves.takeWhile fun m => m ≠ .close ∧ m ≠ .exit).count .accept

/-- The sessions that a move begins. -/
def starts (s : Server) (m : Move) : List Nat :=
  s.queuedIds.filter (· ∉ (s.step m).queuedIds)

/-- The sessions that a run begins, one after the other. -/
def startOrder (s : Server) : List Move → List Nat
  | [] => []
  | m :: ms => s.starts m ++ (s.step m).startOrder ms

/-- Where everybody is after a run. -/
structure Admission (settings : Settings) (start : Server) (moves : List Move) : Prop where
  /-- The connections are those that came before the server was asked to close or the process ended,
  and they are numbered in that order. -/
  accepted : (start.run moves).connections.map (·.id) =
    List.range' 1 (arrivals moves)
  /-- Those who are pending are those in the queue of the pool. -/
  pending : (start.run moves).hall.pending = (start.run moves).pool.queue
  /-- These are the ones whose session nobody has begun. -/
  queued : ∀ c ∈ (start.run moves).connections,
    c.id ∈ (start.run moves).pool.queue ↔ c.stage = .queued
  /-- Nobody is registered twice. -/
  distinct : (start.run moves).hub.registry.ids.Nodup
  /-- Whoever is registered was accepted and has a worker. -/
  registered : ∀ id ∈ (start.run moves).hub.registry.ids,
    id ∈ (start.run moves).pool.tasks ∧ ∃ c ∈ (start.run moves).connections, c.id = id
  size_le : (start.run moves).hub.registry.size ≤ (start.run moves).pool.active
  /-- The counter counts the workers that are busy. -/
  active : (start.run moves).pool.active = (start.run moves).pool.tasks.length
  active_le : (start.run moves).pool.active ≤ settings.poolSize
  /-- Everybody who was accepted waits, or has a worker, or is at the end. -/
  places : ((start.run moves).pool.queue ++
    ((start.run moves).pool.tasks ++ (start.run moves).endedIds)).Perm
      ((start.run moves).connections.map (·.id))
  /-- Those who have begun, in the order in which they began, and those who wait are all who came,
  in the order in which they came. -/
  order : start.startOrder moves ++ (start.run moves).pool.queue =
    (start.run moves).connections.map (·.id)

/-! ## Arrivals -/

theorem arrivals_cons {m : Move} (hclose : m ≠ .close) (hexit : m ≠ .exit) (moves : List Move) :
    arrivals (m :: moves) = [m].count .accept + arrivals moves := by
  rw [arrivals, List.takeWhile_cons_of_pos (by simpa using ⟨hclose, hexit⟩), count_accept_cons]
  rfl

/-- Whether somebody who comes is let in. -/
def letsIn (s : Server) : Bool := s.listening && !s.gone

theorem Sound.letsIn_act (hs : s.Sound) (m : Move) :
    (s.act m).letsIn = (s.letsIn && (m ≠ .close ∧ m ≠ .exit)) := by
  have hsame : (s.act m).listening = s.listening → (s.act m).gone = s.gone → m ≠ .close →
      m ≠ .exit → (s.act m).letsIn = (s.letsIn && (m ≠ .close ∧ m ≠ .exit)) := by
    intro hlistening hgone hclose hexit
    simp [letsIn, hlistening, hgone, hclose, hexit]
  cases hm : m.isDoor with
  | false =>
    have houtcome := hs.outcome_act hm
    refine hsame houtcome.listening houtcome.gone ?_ ?_ <;>
      · rintro rfl
        cases hm
  | true =>
    cases m with
    | accept =>
      obtain ⟨-, -, hclosing, hgone, -⟩ := s.accept_kept
      exact hsame (congrArg (· == Closing.notAsked) hclosing) hgone nofun nofun
    | call =>
      have hcall : s.act .call = _ := congrArg Prod.snd s.call_eq
      exact hsame (by rw [hcall]; rfl) (by rw [hcall]) nofun nofun
    | announce =>
      show s.announce.letsIn = (s.letsIn && true)
      rw [Bool.and_true]
      cases htold : s.announcing with
      | true => rw [announce_eq htold]; rfl
      | false => rw [announce_of_told htold]
    | close =>
      show s.close.letsIn = (s.letsIn && false)
      rw [Bool.and_false]
      cases hlistening : s.listening with
      | true => rw [close_eq hlistening]; rfl
      | false => rw [close_of_shut hlistening, letsIn, hlistening]; rfl
    | dismiss =>
      show s.dismiss.letsIn = (s.letsIn && true)
      rw [Bool.and_true]
      rcases s.dismiss_cases with ⟨hkept, -⟩ | ⟨first, hcalled, -, hdismissed, -⟩
      · rw [hkept]
      · rw [hdismissed, letsIn, letsIn, listening, listening, hcalled]
        rfl
    | finishClosing =>
      show s.finishClosing.letsIn = (s.letsIn && true)
      rw [Bool.and_true]
      rcases s.finishClosing_cases with hkept | ⟨waits, hwaiting, -, hclosed⟩
      · rw [hkept]
      · rw [hclosed, letsIn, letsIn, listening, listening, hwaiting]
        rfl
    | exit =>
      show (s.listening && false) = (s.letsIn && false)
      rw [Bool.and_false, Bool.and_false]
    | _ => cases hm

namespace Steady

variable (h : s.Steady settings)
include h

theorem letsIn_step (m : Move) : (s.step m).letsIn = (s.letsIn && (m ≠ .close ∧ m ≠ .exit)) := by
  cases hgone : s.gone with
  | true =>
    rw [step_of_gone hgone, letsIn, hgone]
    simp
  | false =>
    rw [step_of_here hgone]
    exact h.sound.letsIn_act m

theorem lastId_step (m : Move) (hword : s.lastId + [m].count .accept < UInt64.size) :
    (s.step m).lastId = s.lastId + if s.letsIn then [m].count .accept else 0 := by
  by_cases hm : m = .accept
  · subst hm
    cases hgone : s.gone with
    | true =>
      rw [step_of_gone hgone, letsIn, hgone]
      simp
    | false =>
      rw [step_of_here hgone, letsIn, hgone]
      show s.accept.lastId = _
      cases hlistening : s.listening with
      | true =>
        obtain ⟨pool, -, haccept⟩ := h.sound.exists_accept_eq hlistening hword
        rw [haccept]
        rfl
      | false =>
        rw [accept_of_shut hlistening]
        rfl
  · have hcount : [m].count .accept = 0 := List.count_eq_zero_of_not_mem (by simpa using Ne.symm hm)
    rw [hcount, ite_self]
    exact (h.sound.change hm).lastId

end Steady

/-- Nobody is let in after the server was asked to close, or after the process has ended. -/
theorem Steady.lastId_run (h : s.Steady settings) (moves : List Move)
    (hfew : s.lastId + moves.count .accept < UInt64.size) :
    (s.run moves).lastId = s.lastId + if s.letsIn then arrivals moves else 0 := by
  refine h.run_induction (motive := fun s moves =>
    (s.run moves).lastId = s.lastId + if s.letsIn then arrivals moves else 0) ?_ ?_ moves hfew
  · intro s _
    show s.lastId = _
    simp [arrivals]
  · intro s m moves h hword hrest
    have hrun : (s.run (m :: moves)).lastId = _ := hrest
    rw [hrun, h.lastId_step m hword, h.letsIn_step]
    cases s.letsIn with
    | false => rfl
    | true =>
      by_cases hm : m ≠ .close ∧ m ≠ .exit
      · rw [arrivals_cons hm.1 hm.2]
        simp [hm, Nat.add_assoc]
      · have hother : [m].count .accept = 0 := by
          refine List.count_eq_zero_of_not_mem fun hin => hm ?_
          rw [← List.mem_singleton.1 hin]
          exact ⟨nofun, nofun⟩
        have hlast : decide (m ≠ .close ∧ m ≠ .exit) = false := by simpa using hm
        have hnobody : arrivals (m :: moves) = 0 := by
          rw [arrivals, List.takeWhile_cons, hlast]
          rfl
        rw [hother, hnobody, hlast]
        rfl

/-! ## Beginnings -/

/-- A move that lets nobody in takes some from the front of the queue, or nobody. -/
theorem Sound.queue_act (hs : s.Sound) {m : Move} (haccept : m ≠ .accept) :
    ∃ taken, s.pool.queue = taken ++ (s.act m).pool.queue := by
  have hsame : (s.act m).pool.queue = s.pool.queue →
      ∃ taken, s.pool.queue = taken ++ (s.act m).pool.queue := fun h => ⟨[], h.symm⟩
  cases hm : m.isDoor with
  | false => exact (follows_of_shifts (hs.outcome_act hm).staff).queue
  | true =>
    cases m with
    | accept => exact absurd rfl haccept
    | call => exact hsame (congrArg (fun r : Bool × Server => r.2.pool.queue) s.call_eq)
    | announce =>
      refine hsame ?_
      show s.announce.pool.queue = _
      cases htold : s.announcing with
      | true => rw [announce_eq htold]
      | false => rw [announce_of_told htold]
    | close =>
      refine hsame ?_
      show s.close.pool.queue = _
      cases hlistening : s.listening with
      | true => rw [close_eq hlistening]
      | false => rw [close_of_shut hlistening]
    | dismiss =>
      refine hsame ?_
      show s.dismiss.pool.queue = _
      rcases s.dismiss_cases with ⟨hkept, -⟩ | ⟨-, -, -, hdismissed, -⟩
      · rw [hkept]
      · rw [hdismissed]
        rfl
    | finishClosing =>
      refine hsame ?_
      show s.finishClosing.pool.queue = _
      rcases s.finishClosing_cases with hkept | ⟨-, -, -, hclosed⟩
      · rw [hkept]
      · rw [hclosed]
        rfl
    | exit => exact hsame rfl
    | _ => cases hm

/-- Whoever comes is put behind everybody else. -/
theorem Sound.queue_accept (hs : s.Sound) (hword : s.lastId + 1 < UInt64.size) :
    ∃ n, s.accept.lastId = s.lastId + n ∧
      s.accept.pool.queue = s.pool.queue ++ List.range' (s.lastId + 1) n := by
  cases hlistening : s.listening with
  | true =>
    obtain ⟨pool, hpool, haccept⟩ := hs.exists_accept_eq hlistening hword
    rw [WorkPool.enqueue_of_open (hs.taking hlistening)] at hpool
    obtain rfl := Except.ok.inj hpool
    rw [haccept]
    exact ⟨1, rfl, WorkPool.queue_callOne _⟩
  | false =>
    rw [accept_of_shut hlistening]
    exact ⟨0, rfl, (List.append_nil _).symm⟩

/-- What a move does to the queue: it puts newcomers behind it, or takes some from the front. -/
theorem Steady.queue_step (h : s.Steady settings) (m : Move)
    (hword : s.lastId + [m].count .accept < UInt64.size) :
    ∃ n, (s.step m).lastId = s.lastId + n ∧
      s.starts m ++ (s.step m).pool.queue = s.pool.queue ++ List.range' (s.lastId + 1) n := by
  have hstarts : s.starts m = s.pool.queue.filter (· ∉ (s.step m).pool.queue) := by
    rw [starts, ← h.sound.queue_eq, ← (h.step m hword).1.sound.queue_eq]
  rw [hstarts]
  by_cases hm : m = .accept
  · subst hm
    obtain ⟨n, hlast, hqueue⟩ : ∃ n, (s.step .accept).lastId = s.lastId + n ∧
        (s.step .accept).pool.queue = s.pool.queue ++ List.range' (s.lastId + 1) n :=
      step_cases (motive := fun _ s' => ∃ n, s'.lastId = s.lastId + n ∧
        s'.pool.queue = s.pool.queue ++ List.range' (s.lastId + 1) n) .accept
        ⟨0, rfl, (List.append_nil _).symm⟩ (h.sound.queue_accept hword)
    have hnobody : s.pool.queue.filter (· ∉ (s.step .accept).pool.queue) = [] := by
      rw [hqueue, List.filter_eq_nil_iff]
      intro id hid
      simpa using fun hout => absurd hid hout
    exact ⟨n, hlast, by rw [hnobody, hqueue]; rfl⟩
  · obtain ⟨taken, htaken⟩ : ∃ taken, s.pool.queue = taken ++ (s.step m).pool.queue :=
      step_cases (motive := fun _ s' => ∃ taken, s.pool.queue = taken ++ s'.pool.queue) m
        ⟨[], rfl⟩ (h.sound.queue_act hm)
    have hnodup := h.sound.queue_nodup
    rw [htaken] at hnodup
    refine ⟨0, (h.sound.change hm).lastId, ?_⟩
    rw [htaken, filter_notMem_append hnodup]
    exact (List.append_nil _).symm

theorem Steady.order_run (h : s.Steady settings) (moves : List Move)
    (hfew : s.lastId + moves.count .accept < UInt64.size) :
    ∃ n, (s.run moves).lastId = s.lastId + n ∧
      s.startOrder moves ++ (s.run moves).pool.queue =
        s.pool.queue ++ List.range' (s.lastId + 1) n := by
  refine h.run_induction (motive := fun s moves => ∃ n, (s.run moves).lastId = s.lastId + n ∧
    s.startOrder moves ++ (s.run moves).pool.queue =
      s.pool.queue ++ List.range' (s.lastId + 1) n)
    (fun _ _ => ⟨0, rfl, (List.append_nil _).symm⟩) ?_ moves hfew
  rintro s m moves h hword ⟨rest, hrest, hrun⟩
  obtain ⟨first, hfirst, hstep⟩ := h.queue_step m hword
  refine ⟨first + rest, by rw [← Nat.add_assoc, ← hfirst]; exact hrest, ?_⟩
  calc s.starts m ++ (s.step m).startOrder moves ++ ((s.step m).run moves).pool.queue
      _ = s.starts m ++ (s.step m).pool.queue ++ List.range' ((s.step m).lastId + 1) rest := by
        rw [List.append_assoc, hrun, List.append_assoc]
      _ = s.pool.queue ++ (List.range' (s.lastId + 1) first ++
            List.range' (s.lastId + 1 + first) rest) := by
        rw [hstep, hfirst, List.append_assoc, Nat.add_right_comm]
      _ = s.pool.queue ++ List.range' (s.lastId + 1) (first + rest) := by
        rw [List.range'_append_1]

/-! ## Everybody in their place -/

namespace Sound

variable (hs : s.Sound)
include hs

theorem mem_queue {c : Connection} (hc : c ∈ s.connections) :
    c.id ∈ s.pool.queue ↔ c.stage = .queued := by
  constructor
  · intro hqueue
    rw [hs.staffed.queue, ← hs.staffed.pending] at hqueue
    exact hs.stage_of_pending hc hqueue
  · intro hstage
    rw [hs.queue_eq]
    exact List.mem_map_of_mem (List.mem_filter.2 ⟨hc, by simpa using hstage⟩)

/-- Whoever is registered is a connection whose session is in the hub. -/
theorem exists_serving {id : Nat} (hid : s.hub.registry.contains id = true) :
    ∃ c ∈ s.connections, c.id = id ∧ ∃ user, c.stage = .serving user := by
  rw [Registry.contains_iff, (hs.seats.map Prod.fst).mem_iff] at hid
  obtain ⟨seat, hseat, rfl⟩ := List.mem_map.1 hid
  obtain ⟨σ, hσ, hσid, huser⟩ := Session.exists_of_mem_seats hseat
  obtain ⟨c, hc, rfl⟩ := List.mem_map.1 hσ
  refine ⟨c, hc, hσid, ?_⟩
  have huser : c.stage.user? = some seat.2 := huser
  cases hstage : c.stage with
  | serving user => exact ⟨user, rfl⟩
  | _ =>
    rw [hstage] at huser
    cases huser

theorem registered {id : Nat} (hid : id ∈ s.hub.registry.ids) :
    id ∈ s.pool.tasks ∧ ∃ c ∈ s.connections, c.id = id := by
  obtain ⟨client, hclient, rfl⟩ := List.mem_map.1 hid
  have hcontains : s.hub.registry.contains client.id = true := by
    rw [Registry.contains, Registry.find?_of_mem hclient]
    rfl
  obtain ⟨c, hc, hcid, user, hstage⟩ := hs.exists_serving hcontains
  exact ⟨hcid ▸ (hs.mem_tasks hc).2 (by rw [hstage]; rfl), c, hc, hcid⟩

theorem registry_size_le : s.hub.registry.size ≤ s.pool.active := by
  have hsub : s.hub.registry.ids ⊆ s.pool.tasks := fun id hid => (hs.registered hid).1
  have hle := (s.hub.registry.ids_nodup.subperm hsub).length_le
  rw [Registry.ids, List.length_map] at hle
  rw [hs.staffed.pool.active]
  exact hle

end Sound

/-- **Door, pool and hub agree on who is there.** After any run, whatever the sessions do: those who
are pending are those in the queue; those who are registered are distinct connections with a worker,
so there are at most as many of them as busy workers, and at most as many of these as the pool was
given; everybody who was accepted is in exactly one place; and sessions begin in the order in which
their connections came. -/
theorem admission_accounts {clock : Clock} {start : Server}
    (hstart : create settings clock = .ok start) {moves : List Move}
    (hfew : moves.count .accept < UInt64.size) : start.Admission settings moves := by
  obtain ⟨hfresh, hlistening, -, -, hhere⟩ := steady_of_create hstart
  obtain ⟨-, hnobody, hzero⟩ := sound_of_create hstart
  have hfew' : start.lastId + moves.count .accept < UInt64.size := by omega
  have h := steady_of_run hstart moves hfew
  have hids := (start.run moves).ids_sessions.symm.trans h.sound.ids
  obtain ⟨n, hlast, horder⟩ := hfresh.order_run moves hfew'
  have hqueue : start.pool.queue = [] := by
    rw [hfresh.sound.staffed.queue, hnobody]
    rfl
  exact
    { accepted := by
        have hletsIn : start.letsIn = true := by rw [letsIn, hlistening, hhere]; rfl
        rw [hids, hfresh.lastId_run moves hfew', hzero, hletsIn, if_pos rfl, Nat.zero_add]
      pending := h.sound.staffed.pending.trans h.sound.staffed.queue.symm
      queued := fun c hc => h.sound.mem_queue hc
      distinct := (start.run moves).hub.registry.ids_nodup
      registered := fun id hid => h.sound.registered hid
      size_le := h.sound.registry_size_le
      active := h.sound.staffed.pool.active
      active_le := by
        rw [h.sound.staffed.pool.active, ← h.size]
        exact WorkPool.length_tasks_le _
      places := h.sound.places
      order := by
        rw [horder, hqueue, hids, hlast, hzero]
        simp }

/-- Two workers. The peer of the second says nothing for too long, the third has gone before its
session begins, and the fourth has waited when the server is asked to close. -/
theorem admission_accounts_amid_refusals :
    let settings := { Settings.standard with poolSize := 2 }
    let moves : List Move :=
      [.accept, .accept, .look 0, .begin 1, .accept, .look 1, .begin 2, .endInput 3 .closed,
        .accept, .arrive 1 "ann\x00".toUTF8.toList, .handshake 1, .handshakeTimeout 2, .look 1,
        .close, .accept]
    ∃ start, create settings ⟨9, 0⟩ = .ok start ∧ moves.count .accept < UInt64.size ∧
      start.startOrder moves = [1, 2, 3] ∧ (start.run moves).hub.registry.ids = [1] ∧
      (start.run moves).pool.tasks = [1, 3] ∧ (start.run moves).endedIds = [2] ∧
      (start.run moves).hall.pending = [4] ∧ start.Admission settings moves := by
  intro settings moves
  obtain ⟨start, hstart⟩ : ∃ start, create settings ⟨9, 0⟩ = .ok start := ⟨_, rfl⟩
  have hfew : moves.count .accept < UInt64.size := by decide
  refine ⟨start, hstart, hfew, ?_, ?_, ?_, ?_, ?_, admission_accounts hstart hfew⟩ <;>
    cases hstart <;> decide +kernel

end Server

end ChatHub
