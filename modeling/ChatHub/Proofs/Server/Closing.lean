import ChatHub.Proofs.Server.Admission
/-!
# A closed server has left nothing behind

Sessions leave in many ways when a server closes. Some have the notice and some their own signal,
some have lost their client already, some run out of time, and those who still wait are turned away
by the worker that takes them. None of this is followed up here. Closing is finished when all
workers have gone home, and a pool that all have left has nobody in its queue and nobody at work; so
every session is at its end, and whoever is at the end is in no list any more.

That those who waited were never let in does need the way they went: once the server is closing, a
session can begin no more (`Server.Onward.begins`), so it can only be turned away.
-/

namespace ChatHub

theorem Roster.eq_empty {r : Roster} (h : r.Sound) (hmembers : r.members = []) : r = .empty := by
  rcases h.cursor with ⟨-, hcursor⟩ | ⟨cursor, hlt, -⟩
  · obtain ⟨members, cursor⟩ := r
    obtain rfl : members = [] := hmembers
    obtain rfl : cursor = none := hcursor
    rfl
  · rw [hmembers] at hlt
    cases hlt

/-- The four records of a hub that nobody is registered in. -/
theorem Hub.Agree.of_nobody {h : Hub} (ha : h.Agree) (hnobody : h.registry.names = []) :
    h.registry = .empty ∧ h.roster = .empty ∧ h.tally.clients = 0 := by
  have hclients : h.registry.clients = [] := List.map_eq_nil_iff.1 hnobody
  have hmembers : h.roster.members = [] :=
    List.map_eq_nil_iff.1 (List.nil_perm.1 (hnobody ▸ ha.members))
  refine ⟨Registry.ext_clients hclients, Roster.eq_empty ha.sound hmembers, ?_⟩
  rw [← UInt64.toNat_inj, ha.clients, Registry.size, hclients]
  rfl

namespace Server

variable {s : Server} {settings : Settings} {id : Nat}

/-! ## Whoever waits when the server closes -/

/-- No session with this id has begun so far. It waits, or a worker has just taken it, or it has
been turned away, or nobody has come with it. -/
def Barred (s : Server) (id : Nat) : Prop :=
  ∀ c ∈ s.connections, c.id = id →
    c.card.user = none ∧ (c.stage = .queued ∨ c.stage = .taken ∨ c.stage = .ended)

theorem Sound.barred_of_waiting (hs : s.Sound)
    (hwaiting : ∀ c ∈ s.connections, c.id = id → c.stage = .queued ∨ c.stage = .taken) :
    s.Barred id := by
  intro c hc hid
  have hproper := hs.proper _ (List.mem_map_of_mem hc)
  rcases hwaiting c hc hid with hstage | hstage
  · exact ⟨congrArg (·.card.user) (hproper.of_queued hstage), .inl hstage⟩
  · exact ⟨congrArg (·.card.user) (hproper.of_taken hstage), .inr (.inl hstage)⟩

/-- Whoever has been barred is not registered. -/
theorem Sound.not_contains_of_barred (hs : s.Sound) (h : s.Barred id) :
    s.hub.registry.contains id = false := by
  rw [Bool.eq_false_iff]
  intro hcontains
  obtain ⟨c, hc, hid, user, hserving⟩ := hs.exists_serving hcontains
  have hstage := (h c hc hid).2
  rw [hserving] at hstage
  simp at hstage

theorem Barred.onward (h : s.Barred id) (hflag : s.hall.closing = true) {c d : Connection}
    (hc : c ∈ s.connections) (hcd : d.id = c.id) (honward : s.Onward c d) (hid : d.id = id) :
    d.card.user = none ∧ (d.stage = .queued ∨ d.stage = .taken ∨ d.stage = .ended) := by
  obtain ⟨huser, hstage⟩ := h c hc (hcd.symm.trans hid)
  cases honward with
  | still hsession =>
    rw [show d.card = c.card from congrArg Session.card hsession,
      show d.stage = c.stage from congrArg Session.stage hsession]
    exact ⟨huser, hstage⟩
  | isTaken _ htaken hsame => exact ⟨hsame.trans huser, .inr (.inl htaken)⟩
  | begins hopen =>
    rw [hflag] at hopen
    cases hopen
  | registers hbefore | looks hbefore | deals hbefore | departs hbefore =>
    rw [hbefore] at hstage
    simp at hstage
  | ends hended hsame => exact ⟨hsame.trans huser, .inr (.inr hended)⟩

theorem Barred.announce (h : s.Barred id) : s.announce.Barred id := by
  cases htold : s.announcing with
  | true =>
    rw [announce_eq htold]
    intro d hd hid
    obtain ⟨c, hc, rfl⟩ := List.mem_map.1 hd
    exact h c hc hid
  | false =>
    rw [announce_of_told htold]
    exact h

/-- Once the server is closing, whoever waits stays out. -/
theorem Steady.barred_step (h : s.Steady settings) (hflag : s.hall.closing = true)
    (hbarred : s.Barred id) (m : Move) (hword : s.lastId + [m].count .accept < UInt64.size) :
    (s.step m).Barred id := by
  by_cases hannounce : m = .announce
  · subst hannounce
    exact step_cases (motive := fun _ s' => s'.Barred id) .announce hbarred hbarred.announce
  · intro d hd hid
    rcases h.sound.of_mem_step (fun he => absurd he hannounce) hword hd with
      ⟨c, hc, hcd, honward⟩ | rfl
    · exact hbarred.onward hflag hc hcd honward hid
    · exact ⟨rfl, .inl rfl⟩

theorem Steady.barred_run (h : s.Steady settings) (hflag : s.hall.closing = true)
    (hbarred : s.Barred id) (moves : List Move)
    (hfew : s.lastId + moves.count .accept < UInt64.size) : (s.run moves).Barred id := by
  refine h.run_induction
    (motive := fun s moves => s.hall.closing = true → s.Barred id → (s.run moves).Barred id)
    (fun _ _ _ hbarred => hbarred) ?_ moves hfew hflag hbarred
  intro s m moves h hword hrest hflag hbarred
  exact hrest (h.sound.flag_step hflag m) (h.barred_step hflag hbarred m hword)

/-- After the end of the process nothing happens any more. -/
theorem run_of_gone (h : s.gone = true) (moves : List Move) : s.run moves = s := by
  induction moves with
  | nil => rfl
  | cons m moves ih =>
    show (s.step m).run moves = s
    rw [step_of_gone h]
    exact ih

/-- Whoever has not begun when the server is asked to close never does, whether or not that comes to
anything. -/
theorem Steady.barred_after_close (h : s.Steady settings) (hbarred : s.Barred id)
    {after : List Move} (hfew : s.lastId + after.count .accept < UInt64.size) :
    ((s.step .close).run after).Barred id := by
  cases hgone : s.gone with
  | true =>
    rw [step_of_gone hgone, run_of_gone hgone]
    exact hbarred
  | false =>
    obtain ⟨hsteady, hlast⟩ := h.step .close h.sound.word
    have hflag : (s.step .close).hall.closing = true := by
      rw [step_of_here hgone]
      show s.close.hall.closing = true
      cases hlistening : s.listening with
      | true => rw [close_eq hlistening]
      | false =>
        rw [close_of_shut hlistening]
        cases h.door with
        | isOpen hclosing => exact absurd (listening_iff.2 hclosing) (by simp [hlistening])
        | isCalled hflag | closes hflag | isShut hflag => exact hflag
    have hlast : (s.step .close).lastId ≤ s.lastId := hlast
    have hbarred' : (s.step .close).Barred id := by
      intro d hd hid
      rw [step_of_here hgone] at hd
      have hsame : s.close.connections = s.connections := by
        cases hlistening : s.listening with
        | true => rw [close_eq hlistening]
        | false => rw [close_of_shut hlistening]
      exact hbarred d (hsame ▸ hd) hid
    exact hsteady.barred_run hflag hbarred' after (by omega)

/-- The hub has never seen whoever has stayed out. -/
theorem Barred.visits_eq {νs : List HubMove} (h : s.Barred id)
    (hrecorded : Recorded s.sessions νs) :
    HubMove.visits id νs = [] := by
  by_cases hid : id ∈ s.sessions.map Session.id
  · obtain ⟨σ, hσ, rfl⟩ := List.mem_map.1 hid
    rw [hrecorded.known σ hσ]
    obtain ⟨c, hc, rfl⟩ := List.mem_map.1 hσ
    have huser : c.session.card.user = none := (h c hc rfl).1
    unfold Session.visits
    rw [huser]
  · exact hrecorded.unknown id hid

/-- Whoever the hub has never seen is not registered. -/
theorem Sound.not_contains_of_unseen (hs : s.Sound) {νs : List HubMove}
    (hrecorded : Recorded s.sessions νs) (hunseen : HubMove.visits id νs = []) :
    s.hub.registry.contains id = false := by
  rw [Bool.eq_false_iff]
  intro hcontains
  obtain ⟨c, hc, rfl, user, hstage⟩ := hs.exists_serving hcontains
  have hσ : c.session ∈ s.sessions := List.mem_map_of_mem hc
  have hnobody : c.stage.user? = none := (hs.proper _ hσ).user?_of_visits (by
    rw [← hrecorded.known _ hσ]
    exact hunseen)
  rw [hstage] at hnobody
  cases hnobody

section

variable {clock : Clock} {start : Server} (hstart : create settings clock = .ok start)
include hstart

theorem poolSize_pos : 1 ≤ settings.poolSize := by
  unfold Server.create WorkPool.create at hstart
  by_cases hsize : settings.poolSize = 0
  · rw [if_pos hsize] at hstart
    cases hhall : Hall.create settings <;>
      · rw [hhall] at hstart
        cases hstart
  · exact Nat.one_le_iff_ne_zero.2 hsize

/-- The hub has never seen a session that still waited when the server was asked to close. -/
theorem visits_of_turned_away {before after : List Move}
    (hfew : (before ++ .close :: after).count .accept < UInt64.size) {c : Connection}
    (hc : c ∈ (start.run before).connections) (hqueued : c.stage = .queued) :
    HubMove.visits c.id (start.trace (before ++ .close :: after)) = [] := by
  obtain ⟨-, hrecorded, -⟩ := sound_of_run hstart _ hfew
  obtain ⟨h, hrest, -⟩ := steady_within hstart hfew
  have hother : Move.close ≠ .accept := nofun
  rw [List.count_cons_of_ne hother] at hrest
  have hbarred : (start.run before).Barred c.id := by
    refine h.sound.barred_of_waiting fun d hd hid => .inl ?_
    have hsame : d.session = c.session :=
      List.inj_on_of_nodup_map h.sound.nodup (List.mem_map_of_mem hd) (List.mem_map_of_mem hc) hid
    exact (congrArg Session.stage hsame).trans hqueued
  have hend := h.barred_after_close hbarred hrest
  have hrun : start.run (before ++ .close :: after) =
      ((start.run before).step .close).run after := List.foldl_append ..
  rw [← hrun] at hend
  exact hend.visits_eq hrecorded

theorem not_contains_of_unseen {moves : List Move} (hfew : moves.count .accept < UInt64.size)
    (hunseen : HubMove.visits id (start.trace moves) = []) (n : Nat) :
    (start.run (moves.take n)).hub.registry.contains id = false := by
  have hcount := (List.take_sublist n moves).count_le .accept
  obtain ⟨hs, hrecorded, -⟩ := sound_of_run hstart (moves.take n) (by omega)
  refine hs.not_contains_of_unseen hrecorded ?_
  rw [← List.take_append_drop n moves, trace_append, HubMove.visits_append] at hunseen
  exact (List.append_eq_nil_iff.1 hunseen).1

/-- What is left after a run. -/
structure Vacated (start : Server) (moves : List Move) : Prop where
  /-- Everybody who came before the server was asked to close is a connection. -/
  accepted : (start.run moves).connections.map (·.id) = List.range' 1 (arrivals moves)
  /-- Every session is over. -/
  ended : ∀ c ∈ (start.run moves).connections, c.stage = .ended
  registry : (start.run moves).hub.registry = .empty
  roster : (start.run moves).hub.roster = .empty
  pending : (start.run moves).hall.pending = []
  queue : (start.run moves).pool.queue = []
  active : (start.run moves).pool.active = 0
  workers : (start.run moves).hub.tally.workers = 0
  clients : (start.run moves).hub.tally.clients = 0
  /-- Whoever still waited when the server was asked to close has never been registered. -/
  turnedAway : ∀ before after, moves = before ++ .close :: after →
    ∀ c ∈ (start.run before).connections, c.stage = .queued →
      HubMove.visits c.id (start.trace moves) = [] ∧
        ∀ n, (start.run (moves.take n)).hub.registry.contains c.id = false

/-- **A closed server has left nothing behind.** Whatever the sessions were up to when the server
was asked to close: when closing is finished, every session is over, nobody is registered, takes
turns, is pending or waits, no worker is busy, and the totals of clients and of workers are zero.
Nobody who still waited when the server was asked to close has ever been let in. -/
theorem finished_leaves_nothing {moves : List Move} (hfew : moves.count .accept < UInt64.size)
    (hfinished : (start.run moves).closing = .finished) : start.Vacated moves := by
  have h := steady_of_run hstart moves hfew
  have hdeserted : (start.run moves).pool.isDeserted = true := by
    cases h.door with
    | isShut _ _ hdeserted => exact hdeserted
    | isOpen hclosing | isCalled _ hclosing | closes _ hclosing =>
      cases hclosing.symm.trans hfinished
  have hsize : 1 ≤ (start.run moves).pool.size := h.size ▸ poolSize_pos hstart
  obtain ⟨htasks, hqueue⟩ := h.sound.staffed.pool.nothing_left hsize hdeserted
  have hactive : (start.run moves).pool.active = 0 := by
    rw [h.sound.staffed.pool.active, htasks]
    rfl
  have hended : ∀ c ∈ (start.run moves).connections, c.stage = .ended := by
    intro c hc
    have hwaits := h.sound.mem_queue hc
    have hserved := h.sound.mem_tasks hc
    rw [hqueue] at hwaits
    rw [htasks] at hserved
    cases hstage : c.stage with
    | ended => rfl
    | _ => simp [hstage, Stage.isServed] at hwaits hserved
  have hnobody : (start.run moves).hub.registry.names = [] := by
    rw [← List.perm_nil]
    refine h.sound.seats.trans (.of_eq (List.filterMap_eq_nil_iff.2 fun σ hσ => ?_))
    obtain ⟨c, hc, rfl⟩ := List.mem_map.1 hσ
    show c.stage.user?.map _ = none
    rw [hended c hc]
    rfl
  obtain ⟨hregistry, hroster, hclients⟩ := h.sound.agree.of_nobody hnobody
  refine
    { accepted := (admission_accounts hstart hfew).accepted
      ended := hended
      registry := hregistry
      roster := hroster
      pending := h.sound.staffed.pending.trans (h.sound.staffed.queue.symm.trans hqueue)
      queue := hqueue
      active := hactive
      workers := UInt64.toNat_inj.1 (h.workers.trans hactive)
      clients := hclients
      turnedAway := ?_ }
  rintro before after rfl c hc hqueued
  have hunseen := visits_of_turned_away hstart hfew hc hqueued
  exact ⟨hunseen, fun n => not_contains_of_unseen hstart hfew hunseen n⟩

end

/-- Four workers. When the server is asked to close, the first session has lost its client to a full
mailbox, the second is active, the third has left and waits for its writer, the fourth is in its
handshake and the fifth waits. -/
theorem finished_leaves_nothing_of_five :
    let settings := { Settings.standard with poolSize := 4, mailboxSize := 1 }
    let moves : List Move :=
      [.accept, .accept, .accept, .accept, .accept, .look 0, .look 1, .look 2, .look 3, .begin 1,
        .begin 2, .begin 3, .begin 4, .arrive 1 "ann\x00".toUTF8.toList, .handshake 1,
        .arrive 2 "bob\x00".toUTF8.toList, .handshake 2, .arrive 3 "cyd\x00".toUTF8.toList,
        .handshake 3, .fetch 2, .endInput 3 .closed, .turn 3, .turn 3, .turn 3, .close, .announce,
        .dismiss, .turn 1, .turn 2, .handshakeTimeout 4, .look 3, .begin 5, .giveUp 1, .giveUp 2,
        .giveUp 3, .look 0, .look 1, .look 2, .look 3, .finishClosing]
    ∃ start, create settings ⟨9, 0⟩ = .ok start ∧ moves.count .accept < UInt64.size ∧
      (start.run (moves.take 24)).connections.map (·.stage) =
        [.serving "ann", .serving "bob", .closing, .handshake, .queued] ∧
      [1, 2].map ((start.run (moves.take 24)).hub.registry.isActive ·) = [false, true] ∧
      (start.run moves).closing = .finished ∧ start.Vacated moves := by
  intro settings moves
  obtain ⟨start, hstart⟩ : ∃ start, create settings ⟨9, 0⟩ = .ok start := ⟨_, rfl⟩
  have hfew : moves.count .accept < UInt64.size := by decide
  have hfinished : (start.run moves).closing = .finished := by
    cases hstart
    decide +kernel
  refine ⟨start, hstart, hfew, ?_, ?_, hfinished, finished_leaves_nothing hstart hfew hfinished⟩ <;>
    cases hstart <;> decide +kernel

end Server

end ChatHub
