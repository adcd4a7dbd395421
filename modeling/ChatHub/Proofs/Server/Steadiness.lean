import Mathlib.Data.List.Count
import ChatHub.Proofs.Server.Outcomes
/-!
# What a server keeps to on its way to closing

A server in order (`Server.Sound`) has its sessions where they belong. To say how it closes one must
know more: that the number of workers is as it was set, and the word that counts the busy ones
counts them; that whoever has begun and not left listens for the notice, and has it once it has been
given; that every registered session listens for its own signal; and at which door the server
stands. That is `Server.Steady`, and every move keeps it, whatever the sessions do
(`Steady.run_induction`).
-/

namespace ChatHub

/-! ## Shifts -/

theorem Tally.toNat_decrement (n : UInt64) : (decrement n).toNat = n.toNat - 1 := by
  unfold decrement
  split
  · rename_i hzero
    rw [hzero]
    rfl
  · rename_i hpos
    have hone : (1 : UInt64) ≤ n := by
      rw [UInt64.le_iff_toNat_le]
      exact Nat.one_le_iff_ne_zero.2 fun h => hpos (UInt64.toNat_inj.1 h)
    exact UInt64.toNat_sub_of_le _ _ hone

/-- The word counts the busy workers, and there is room in it for everybody who waits. -/
def Counted (a : WorkPool Nat × UInt64) : Prop :=
  a.2.toNat = a.1.active ∧ a.1.active + a.1.queue.length < UInt64.size

/-- What shifts do not change, and what they do to the queue. -/
structure Follows (a b : WorkPool Nat × UInt64) : Prop where
  size : b.1.size = a.1.size
  joined : b.1.joined = a.1.joined
  deserted : a.1.isDeserted = true → b.1.isDeserted = true
  /-- Whoever is taken from the queue is taken from its front. -/
  queue : ∃ taken, a.1.queue = taken ++ b.1.queue
  counted : Counted a → Counted b

theorem Follows.refl (a : WorkPool Nat × UInt64) : Follows a a :=
  ⟨rfl, rfl, id, ⟨[], rfl⟩, id⟩

theorem Follows.trans {a b c : WorkPool Nat × UInt64} (hab : Follows a b) (hbc : Follows b c) :
    Follows a c where
  size := hbc.size.trans hab.size
  joined := hbc.joined.trans hab.joined
  deserted := hbc.deserted ∘ hab.deserted
  queue := by
    obtain ⟨first, hfirst⟩ := hab.queue
    obtain ⟨second, hsecond⟩ := hbc.queue
    exact ⟨first ++ second, by rw [hfirst, hsecond, List.append_assoc]⟩
  counted := hbc.counted ∘ hab.counted

theorem Shift.follows {a b : WorkPool Nat × UInt64} (h : Shift a b) : Follows a b := by
  cases h with
  | @looks p w i hqueue =>
    have hsize := p.size_look i
    have hjoined := p.joined_look i
    have hlooked := p.looked i
    generalize p.look i = q at hsize hjoined hlooked
    cases hlooked with
    | notAwake => exact .refl _
    | takes _ hcons =>
      rw [hqueue] at hcons
      cases hcons
    | leaves hi | parks hi =>
      refine ⟨hsize, hjoined, fun hdeserted => ?_, ⟨[], rfl⟩, id⟩
      cases WorkPool.eq_gone_of_deserted hdeserted hi
  | @takes p w i id rest hi hqueue =>
    have hlook : p.look i =
        { p.setWorker i (.busy id) with
          permit := false, queue := rest, active := p.active + 1 } := by
      simp only [WorkPool.look, hi, hqueue]
      rfl
    refine ⟨p.size_look i, p.joined_look i, fun hdeserted => ?_, ⟨[id], ?_⟩, fun hcounted => ?_⟩
    · cases WorkPool.eq_gone_of_deserted hdeserted hi
    · rw [hlook]
      exact hqueue
    · obtain ⟨hword, hroom⟩ := hcounted
      have hroom : p.active + (rest.length + 1) < UInt64.size := by
        rw [hqueue] at hroom
        exact hroom
      rw [hlook]
      refine ⟨?_, (by omega : p.active + 1 + rest.length < UInt64.size)⟩
      show (w + 1).toNat = p.active + 1
      rw [UInt64.toNat_add, show w.toNat = p.active from hword]
      exact Nat.mod_eq_of_lt (by omega : p.active + 1 < UInt64.size)
  | @frees p w i id hi =>
    refine ⟨p.size_finish i, p.joined_finish i, fun hdeserted => ?_, ⟨[], ?_⟩, fun hcounted => ?_⟩
    · cases WorkPool.eq_gone_of_deserted hdeserted hi
    · rw [WorkPool.finish_of_busy hi]
      rfl
    · obtain ⟨hword, hroom⟩ := hcounted
      rw [WorkPool.finish_of_busy hi]
      refine ⟨?_, Nat.lt_of_le_of_lt (Nat.add_le_add_right (Nat.sub_le _ 1) _) hroom⟩
      show (Tally.decrement w).toNat = p.active - 1
      rw [Tally.toNat_decrement, show w.toNat = p.active from hword]

theorem follows_of_shifts {a b : WorkPool Nat × UInt64} (h : Relation.ReflTransGen Shift a b) :
    Follows a b := by
  induction h with
  | refl => exact .refl a
  | tail _ hlast ih => exact ih.trans hlast.follows

/-! ## Ears and doors -/

namespace Stage

/-- Whether a session at this stage is on its way to the hub. -/
def isComing : Stage → Bool
  | queued | taken | handshake => true
  | _ => false

/-- Whether a session at this stage has begun and not left, so that it is to be told of the end. -/
def listens : Stage → Bool
  | handshake | serving _ => true
  | _ => false

end Stage

/-- What a session has to have heard, and from when on it listens. -/
structure Connection.Alert (announced : Bool) (c : Connection) : Prop where
  subscribed : c.stage = .taken ∨ c.stage.listens = true → c.subscribed = true
  /-- It has the notice once it has begun, if there was one. -/
  notice : c.stage.listens = true → announced = true → c.notice = true
  /-- When it comes into the hub, it looks first whether there was one. -/
  fresh : c.stage.isComing = true → c.attention = .notice

theorem Hub.hushes_dealings {t : Clock} {limit id : Nat} {user : String} {m : Record} :
    ∀ μ ∈ Hub.dealings t limit id user m, μ.hushes = false := by
  unfold Hub.dealings
  cases m.kind <;> simp [HubMove.hushes]

namespace Server

variable {s s' : Server} {settings : Settings} {c d : Connection}

theorem ears_eq (h : d.ears = c.ears) :
    d.subscribed = c.subscribed ∧ d.notice = c.notice ∧ d.attention = c.attention :=
  ⟨congrArg (·.1) h, congrArg (·.2.1) h, congrArg (·.2.2) h⟩

/-- A session that gets on has still heard what it has to have heard. Once the notice was given, the
server is closing, and then nobody begins. -/
theorem Onward.alert {announced : Bool} (h : s.Onward c d)
    (hflag : announced = true → s.hall.closing = true) (hc : c.Alert announced) :
    d.Alert announced := by
  -- Somebody who hears what they heard, at a stage where no more has to have been heard.
  have hkept : ∀ {e : Connection}, e.ears = c.ears →
      (e.stage = .taken ∨ e.stage.listens = true → c.stage = .taken ∨ c.stage.listens = true) →
        (e.stage.listens = true → announced = true → c.stage.listens = true) →
          (e.stage.isComing = true → c.stage.isComing = true) → e.Alert announced := by
    intro e hears hsubscribed hnotice hfresh
    obtain ⟨hsub, hnot, hatt⟩ := ears_eq hears
    exact
      { subscribed := fun he => hsub.trans (hc.subscribed (hsubscribed he))
        notice := fun he ha => hnot.trans (hc.notice (hnotice he ha) ha)
        fresh := fun he => hatt.trans (hc.fresh (hfresh he)) }
  cases h with
  | still hsession hears =>
    have hstage : d.stage = c.stage := congrArg Session.stage hsession
    exact hkept hears (fun h => hstage ▸ h) (fun h _ => hstage ▸ h) (fun h => hstage ▸ h)
  | isTaken hbefore hafter _ hears =>
    exact
      { subscribed := fun _ => congrArg (·.1) hears
        notice := fun hlistens => by
          rw [hafter] at hlistens
          cases hlistens
        fresh := fun _ => (congrArg (·.2.2) hears).trans (hc.fresh (by rw [hbefore]; rfl)) }
  | begins hopen hbefore _ hears =>
    refine hkept hears (fun _ => .inl hbefore) (fun _ ha => ?_) fun _ => by rw [hbefore]; rfl
    rw [hopen] at hflag
    exact absurd (hflag ha) Bool.false_ne_true
  | registers hbefore hafter hears =>
    refine hkept hears (fun _ => .inr (by rw [hbefore]; rfl)) (fun _ _ => by rw [hbefore]; rfl) ?_
    intro hcoming
    rw [hafter] at hcoming
    cases hcoming
  | looks hstage hd =>
    obtain ⟨framer, inbox, attention, rfl⟩ := hd.eq
    refine { subscribed := hc.subscribed, notice := hc.notice, fresh := fun hcoming => ?_ }
    have hcoming : c.stage.isComing = true := hcoming
    rw [hstage] at hcoming
    cases hcoming
  | deals _ _ hd =>
    subst hd
    exact { subscribed := hc.subscribed, notice := hc.notice, fresh := fun _ => rfl }
  | departs _ hafter | ends hafter =>
    constructor <;> (rw [hafter]; simp [Stage.listens, Stage.isComing])

/-- How far a server has come with closing. -/
inductive Door (s : Server) : Prop where
  | isOpen (hclosing : s.closing = .notAsked) (hjoined : s.pool.joined = false)
  | isCalled {first : Bool} (hflag : s.hall.closing = true) (hclosing : s.closing = .called first)
      (hjoined : s.pool.joined = false)
  /-- Whoever closes it is the one that waits for the workers. -/
  | closes (hflag : s.hall.closing = true) (hclosing : s.closing = .waiting true)
  | isShut (hflag : s.hall.closing = true) (hclosing : s.closing = .finished)
      (hdeserted : s.pool.isDeserted = true)

theorem Door.of_kept (h : s.Door) (hflag : s.hall.closing = true → s'.hall.closing = true)
    (hclosing : s'.closing = s.closing) (hjoined : s'.pool.joined = s.pool.joined)
    (hdeserted : s.pool.isDeserted = true → s'.pool.isDeserted = true) : s'.Door := by
  cases h with
  | isOpen hnotAsked hnobody =>
    exact .isOpen (hclosing.trans hnotAsked) (hjoined.trans hnobody)
  | isCalled hup hcalled hnobody =>
    exact .isCalled (hflag hup) (hclosing.trans hcalled) (hjoined.trans hnobody)
  | closes hup hwaiting => exact .closes (hflag hup) (hclosing.trans hwaiting)
  | isShut hup hfinished hempty =>
    exact .isShut (hflag hup) (hclosing.trans hfinished) (hdeserted hempty)

/-- What a server keeps to, besides being in order. -/
structure Steady (settings : Settings) (s : Server) : Prop where
  sound : s.Sound
  size : s.pool.size = settings.poolSize
  workers : s.hub.tally.workers.toNat = s.pool.active
  attended : s.hub.Attended
  /-- Whoever is to tell the sessions of the end has called for it. -/
  calling : s.announcing = true → s.hall.closing = true
  alert : ∀ c ∈ s.connections, c.Alert s.isAnnounced
  door : s.Door

theorem listening_iff : s.listening = true ↔ s.closing = .notAsked := beq_iff_eq

theorem flag_of_announced (h : s.isAnnounced = true) : s.hall.closing = true :=
  (Bool.and_eq_true_iff.1 h).1

/-! ## Who is where -/

/-- The connections that nobody has begun to serve. -/
def queuedIds (s : Server) : List Nat :=
  (s.connections.filter (·.stage = .queued)).map (·.id)

/-- The connections whose session is over. -/
def endedIds (s : Server) : List Nat :=
  (s.connections.filter (·.stage = .ended)).map (·.id)

theorem waiting_eq (cs : List Connection) :
    Session.waiting (cs.map Connection.session) =
      (cs.filter (·.stage = .queued)).map (·.id) := by
  induction cs with
  | nil => rfl
  | cons c cs ih =>
    have hqueued : c.session.queued? = if c.stage = .queued then some c.id else none := rfl
    rw [List.map_cons, Session.waiting, List.filterMap_cons, hqueued]
    by_cases hc : c.stage = .queued
    · rw [List.filter_cons_of_pos (by simpa using hc), if_pos hc]
      exact congrArg (c.id :: ·) ih
    · rw [List.filter_cons_of_neg (by simpa using hc), if_neg hc]
      exact ih

/-- Everybody waits, is served, or is at the end. -/
theorem places_perm (cs : List Connection) :
    (Session.waiting (cs.map Connection.session) ++
      (Session.served (cs.map Connection.session) ++
        (cs.filter (·.stage = .ended)).map (·.id))).Perm (cs.map (·.id)) := by
  induction cs with
  | nil => exact .refl _
  | cons c cs ih =>
    have hqueued : c.session.queued? = if c.stage = .queued then some c.id else none := rfl
    have hserved : c.session.served? = if c.stage.isServed then some c.id else none := rfl
    rw [List.map_cons, List.map_cons, Session.waiting, Session.served, List.filterMap_cons,
      List.filterMap_cons, List.filter_cons, hqueued, hserved]
    cases c.stage with
    | queued => exact ih.cons c.id
    | taken | handshake | serving | closing => exact List.perm_middle.trans (ih.cons c.id)
    | ended =>
      refine (List.Perm.append_left _ List.perm_middle).trans ?_
      exact List.perm_middle.trans (ih.cons c.id)

namespace Sound

variable (hs : s.Sound)
include hs

theorem queue_eq : s.pool.queue = s.queuedIds := hs.staffed.queue.trans (waiting_eq s.connections)

theorem places :
    (s.pool.queue ++ (s.pool.tasks ++ s.endedIds)).Perm (s.connections.map (·.id)) := by
  rw [hs.staffed.queue]
  exact ((hs.staffed.tasks.append_right _).append_left _).trans (places_perm s.connections)

/-- The counter of connections leaves room to count all of them. -/
theorem fits : s.pool.active + s.pool.queue.length < UInt64.size := by
  have hlength := hs.places.length_eq
  have hids := congrArg List.length (s.ids_sessions.symm.trans hs.ids)
  rw [List.length_range'] at hids
  rw [hids, List.length_append, List.length_append] at hlength
  have hactive := hs.staffed.pool.active
  have hword := hs.word
  omega

end Sound

/-! ## Calls -/

/-- What a server can have its hub do in a move, and for whom. -/
inductive Called (s : Server) (m : Move) : HubMove → Prop where
  | signal (id : Nat) : s.Called m (.signal id)
  | hangUp (id : Nat) : s.Called m (.far id .hangUp)
  | read (id max : Nat) : s.Called m (.far id (.read max))
  | retireAll : s.Called m .retireAll
  | refreshTally : s.Called m .refreshTally
  /-- A session in its handshake has found an identity. -/
  | joins {c : Connection} {i : Identity} (hm : m = .handshake c.id) (hc : c ∈ s.connections)
      (hstage : c.stage = .handshake)
      (hi : Identity.parse (c.inbox.take identitySpace) s.hall.settings.maxUserBytes = .ok i) :
      s.Called m (.join s.clock s.clock.ms c.id i.user none s.hall.settings.mailboxSize)
  | leaves {c : Connection} {user : String} (hc : c ∈ s.connections)
      (hstage : c.stage = .serving user) : s.Called m (.leave s.clock c.id user)
  /-- A session has a record, and takes a turn. -/
  | deals {c : Connection} {user : String} {r : Record} {μ : HubMove} (hm : m = .turn c.id)
      (hc : c ∈ s.connections) (hstage : c.stage = .serving user)
      (hattention : c.attention = .record r)
      (hμ : μ ∈ Hub.dealings s.clock s.hall.settings.maxPayloadBytes c.id user r) : s.Called m μ

section

variable {m n : Move} {μs : List HubMove} {w : Server}

theorem Attends.called (h : s.Attends c m μs w) (hc : c ∈ s.connections) :
    ∀ μ ∈ μs, s.Called m μ := by
  cases h with
  | rests | looks => exact List.forall_mem_nil _
  | leaves hstage => exact List.forall_mem_singleton.2 (.leaves hc hstage)
  | deals hm hstage hattention => exact fun μ hμ => .deals hm hc hstage hattention hμ

theorem Writes.called (h : s.Writes c n μs w) : ∀ μ ∈ μs, s.Called m μ := by
  cases h with
  | takes => exact List.forall_mem_singleton.2 (.read c.id 1)
  | fails =>
    unfold failureCalls
    cases c.writer with
    | live => simpa using And.intro (Called.signal c.id) (Called.hangUp c.id)
    | _ => exact List.forall_mem_nil _
  | _ => exact List.forall_mem_nil _

end

theorem called_of_mem_act (s : Server) {m : Move} : ∀ μ ∈ s.actCalls m, s.Called m μ := by
  have hnone : ∀ μ ∈ ([] : List HubMove), s.Called m μ := List.forall_mem_nil _
  have hat : ∀ (id : Nat) (calls : Connection → List HubMove),
      (∀ c ∈ s.connections, c.id = id → ∀ μ ∈ calls c, s.Called m μ) →
        ∀ μ ∈ (s.connection? id).elim [] calls, s.Called m μ := by
    intro id calls h
    cases hc : s.connection? id with
    | none => exact hnone
    | some c =>
      obtain ⟨hmem, hid⟩ := connection?_some hc
      exact h c hmem hid
  cases m with
  | signal id => exact List.forall_mem_singleton.2 (.signal id)
  | dismiss =>
    rcases s.dismiss_cases with ⟨-, hcalls⟩ | ⟨-, -, -, -, hcalls⟩
    · rw [hcalls]
      exact hnone
    · rw [hcalls]
      exact List.forall_mem_singleton.2 .retireAll
  | finishClosing =>
    simp only [actCalls]
    split
    · split
      · exact List.forall_mem_singleton.2 .refreshTally
      · exact hnone
    · exact hnone
  | handshake id =>
    refine hat id _ fun c hc hid => ?_
    unfold handshakeCalls
    split
    · rename_i hready
      split
      · exact hnone
      · split
        · rename_i i hi
          subst hid
          exact List.forall_mem_singleton.2 (.joins rfl hc hready.1 hi)
        · exact hnone
    · exact hnone
  | turn id =>
    refine hat id _ fun c hc hid => ?_
    subst hid
    exact (s.attends_turn c).called hc
  | idle id => exact hat id _ fun c hc _ => (s.attends_idle c (.idle id)).called hc
  | fetch id => exact hat id _ fun c _ _ => (s.writes_fetch c).called
  | write id n => exact hat id _ fun c _ _ => (s.writes_write c n).called
  | writeFailure id => exact hat id _ fun c _ _ => (s.writes_failure c).called
  | _ => exact hnone

theorem called_of_mem (s : Server) {m : Move} : ∀ μ ∈ s.calls m, s.Called m μ :=
  step_cases (motive := fun μs _ => ∀ μ ∈ μs, s.Called m μ) m (List.forall_mem_nil _)
    s.called_of_mem_act

/-- No move of a server takes a signal away. -/
theorem hushes_calls (s : Server) (m : Move) : ∀ μ ∈ s.calls m, μ.hushes = false := by
  intro μ hμ
  cases s.called_of_mem μ hμ with
  | deals _ _ _ _ hdealt => exact Hub.hushes_dealings μ hdealt
  | _ => rfl

/-! ## Every move keeps to it -/

namespace Steady

/-- Shifts keep what is kept about the workers, as long as the word had not come round. -/
theorem workers_of_shifts {s' : Server} (h : s.Steady settings)
    (hstaff : Relation.ReflTransGen Shift s.staff s'.staff) :
    s'.pool.size = settings.poolSize ∧ s'.hub.tally.workers.toNat = s'.pool.active :=
  have hfollows := follows_of_shifts hstaff
  ⟨hfollows.size.trans h.size, (hfollows.counted ⟨h.workers, h.sound.fits⟩).1⟩

theorem accept (h : s.Steady settings) (hword : s.lastId + 1 < UInt64.size)
    (hsound : s.accept.Sound) : s.accept.Steady settings := by
  cases hlistening : s.listening with
  | false =>
    rw [accept_of_shut hlistening]
    exact h
  | true =>
    obtain ⟨pool, hpool, haccept⟩ := h.sound.exists_accept_eq hlistening hword
    rw [WorkPool.enqueue_of_open (h.sound.taking hlistening)] at hpool
    obtain rfl := Except.ok.inj hpool
    rw [haccept] at hsound ⊢
    refine
      { sound := hsound, size := ?_, workers := ?_, attended := h.attended
        calling := h.calling, alert := ?_, door := ?_ }
    · exact (WorkPool.size_callOne _).trans h.size
    · show s.hub.tally.workers.toNat = (WorkPool.callOne _).active
      rw [WorkPool.active_callOne]
      exact h.workers
    · intro c hc
      rcases List.mem_append.1 hc with hc | hc
      · exact h.alert c hc
      · rw [List.mem_singleton.1 hc]
        exact ⟨nofun, nofun, fun _ => rfl⟩
    · have hclosing := listening_iff.1 hlistening
      cases h.door with
      | isOpen _ hjoined => exact .isOpen hclosing ((WorkPool.joined_callOne _).trans hjoined)
      | isCalled _ hother | closes _ hother | isShut _ hother =>
        cases hclosing.symm.trans hother

/-- The flag goes up. Until the sessions are told, nobody has to have heard of it. -/
theorem alert_called (h : s.Steady settings) :
    ∀ c ∈ s.connections, c.Alert (true && !(s.announcing || !s.hall.closing)) := by
  intro c hc
  have halert := h.alert c hc
  refine { halert with notice := fun hlistens hannounced => halert.notice hlistens ?_ }
  have hannounced : s.announcing = false ∧ s.hall.closing = true := by simpa using hannounced
  simp [isAnnounced, hannounced.1, hannounced.2]

theorem call (h : s.Steady settings) (hsound : s.call.2.Sound) : s.call.2.Steady settings := by
  rw [call_eq] at hsound ⊢
  refine
    { sound := hsound, size := h.size, workers := h.workers, attended := h.attended
      calling := fun _ => rfl, alert := h.alert_called
      door := h.door.of_kept (fun _ => rfl) rfl rfl id }

/-- Whoever listens has the notice when it has been given. -/
theorem announce (h : s.Steady settings) (hsound : s.announce.Sound) :
    s.announce.Steady settings := by
  cases htold : s.announcing with
  | false =>
    rw [announce_of_told htold]
    exact h
  | true =>
    rw [announce_eq htold] at hsound ⊢
    refine
      { sound := hsound, size := h.size, workers := h.workers, attended := h.attended
        calling := nofun, alert := ?_, door := h.door.of_kept id rfl rfl id }
    intro d hd
    obtain ⟨c, hc, rfl⟩ := List.mem_map.1 hd
    have halert := h.alert c hc
    refine { halert with notice := fun hlistens _ => ?_ }
    show (c.notice || c.subscribed) = true
    rw [halert.subscribed (.inr hlistens), Bool.or_true]

theorem close (h : s.Steady settings) (hsound : s.close.Sound) : s.close.Steady settings := by
  cases hlistening : s.listening with
  | false =>
    rw [close_of_shut hlistening]
    exact h
  | true =>
    rw [close_eq hlistening] at hsound ⊢
    refine
      { sound := hsound, size := h.size, workers := h.workers, attended := h.attended
        calling := fun _ => rfl, alert := h.alert_called, door := ?_ }
    have hclosing := listening_iff.1 hlistening
    cases h.door with
    | isOpen _ hjoined => exact .isCalled rfl rfl hjoined
    | isCalled _ hother | closes _ hother | isShut _ hother => cases hclosing.symm.trans hother

theorem dismiss (h : s.Steady settings) (hsound : s.dismiss.Sound) : s.dismiss.Steady settings := by
  rcases s.dismiss_cases with ⟨hsame, -⟩ | ⟨first, hcalled, -, hdismissed, -⟩
  · rw [hsame]
    exact h
  · have hattended : (s.hub.act .retireAll).Attended := h.attended.act rfl
    rw [hdismissed] at hsound ⊢
    refine
      { sound := hsound, size := ?_, workers := h.workers, attended := hattended
        calling := h.calling, alert := h.alert, door := ?_ }
    · exact (WorkPool.size_stop s.pool).trans h.size
    · cases h.door with
      | isCalled hflag _ hjoined =>
        exact .closes hflag (congrArg (fun joined => Closing.waiting (!joined)) hjoined)
      | isOpen hother | closes _ hother | isShut _ hother => cases hcalled.symm.trans hother

theorem finishClosing (h : s.Steady settings) (hsound : s.finishClosing.Sound) :
    s.finishClosing.Steady settings := by
  rcases s.finishClosing_cases with hsame | ⟨waits, hwaiting, hdone, hclosed⟩
  · rw [hsame]
    exact h
  · rw [hclosed] at hsound ⊢
    refine
      { sound := hsound, size := h.size, workers := h.workers, attended := h.attended
        calling := h.calling, alert := h.alert, door := ?_ }
    cases h.door with
    | closes hflag hclosing =>
      obtain rfl : waits = true := Closing.waiting.inj (hwaiting.symm.trans hclosing)
      have hdeserted : s.pool.isDeserted = true := by simpa using hdone
      exact .isShut hflag rfl hdeserted
    | isOpen hother | isCalled _ hother | isShut _ hother => cases hwaiting.symm.trans hother

theorem exit (h : s.Steady settings) (hsound : (s.act .exit).Sound) :
    (s.act .exit).Steady settings where
  sound := hsound
  size := h.size
  workers := h.workers
  attended := h.attended
  calling := h.calling
  alert := h.alert
  door := h.door.of_kept id rfl rfl id

theorem of_outcome (h : s.Steady settings) (ho : s.Outcome s') (hsound : s'.Sound)
    (hattended : s'.hub.Attended) : s'.Steady settings := by
  have hfollows := follows_of_shifts ho.staff
  obtain ⟨hsize, hworkers⟩ := h.workers_of_shifts ho.staff
  have hannounced : s'.isAnnounced = s.isAnnounced := by
    rw [isAnnounced, isAnnounced, ho.flag, ho.announcing]
  refine
    { sound := hsound, size := hsize, workers := hworkers, attended := hattended
      calling := ?_, alert := ?_
      door := h.door.of_kept ho.flag.trans ho.closing hfollows.joined hfollows.deserted }
  · rw [ho.announcing, ho.flag]
    exact h.calling
  · intro d hd
    obtain ⟨c, hc, -, honward⟩ := ho.connections d hd
    rw [hannounced]
    exact honward.alert flag_of_announced (h.alert c hc)

theorem step (h : s.Steady settings) (m : Move)
    (hword : s.lastId + [m].count .accept < UInt64.size) :
    (s.step m).Steady settings ∧ (s.step m).lastId ≤ s.lastId + [m].count .accept := by
  obtain ⟨came, hcame, hchange⟩ := h.sound.exists_change m hword
  have hsound := h.sound.of_change hchange (by omega)
  have hlast := hchange.lastId
  refine ⟨?_, by omega⟩
  cases hm : m.isDoor with
  | false =>
    refine h.of_outcome (h.sound.outcome hm) hsound ?_
    have hattended := h.attended.run (s.hushes_calls m)
    unfold Hub.Attended at hattended ⊢
    rw [Hub.registry_of_indoors hchange.hub]
    exact hattended
  | true =>
    refine step_cases (motive := fun _ s' => s'.Sound → s'.Steady settings) m (fun _ => h) ?_ hsound
    cases m with
    | accept => exact h.accept hword
    | call => exact h.call
    | announce => exact h.announce
    | close => exact h.close
    | dismiss => exact h.dismiss
    | finishClosing => exact h.finishClosing
    | exit => exact h.exit
    | _ => cases hm

end Steady

/-! ## Runs -/

theorem steady_of_create {clock : Clock} {start : Server} (h : create settings clock = .ok start) :
    start.Steady settings ∧ start.listening = true ∧ start.hall.closing = false ∧
      start.announcing = false ∧ start.gone = false := by
  obtain ⟨hsound, -, -⟩ := sound_of_create h
  unfold Server.create Hall.create at h
  cases hhub : Hub.create settings.cacheCapacity settings.timeQuantumMs with
  | error e =>
    rw [hhub] at h
    cases h
  | ok hub =>
    obtain rfl := Hub.eq_empty_of_create hhub
    unfold WorkPool.create at h
    by_cases hsize : settings.poolSize = 0
    · rw [hhub, if_pos hsize] at h
      cases h
    · rw [hhub, if_neg hsize] at h
      cases h
      exact
        ⟨{ sound := hsound
           size := List.length_replicate
           workers := rfl
           attended := .empty _
           calling := nofun
           alert := List.forall_mem_nil _
           door := .isOpen rfl rfl }, rfl, rfl, rfl, rfl⟩

/-- What holds of a run when it has nothing in it, and of one more move if it holds of the rest,
holds of every run, as long as the counter of connections has not come round. -/
theorem Steady.run_induction {motive : Server → List Move → Prop}
    (nil : ∀ s, s.Steady settings → motive s [])
    (cons : ∀ s m ms, s.Steady settings → s.lastId + [m].count .accept < UInt64.size →
      motive (s.step m) ms → motive s (m :: ms))
    (h : s.Steady settings) (moves : List Move)
    (hfew : s.lastId + moves.count .accept < UInt64.size) : motive s moves := by
  induction moves generalizing s with
  | nil => exact nil s h
  | cons m moves ih =>
    rw [count_accept_cons] at hfew
    have hword : s.lastId + [m].count .accept < UInt64.size := by omega
    obtain ⟨hsteady, hlast⟩ := h.step m hword
    exact cons s m moves h hword (ih hsteady (by omega))

theorem Steady.run (h : s.Steady settings) (moves : List Move)
    (hfew : s.lastId + moves.count .accept < UInt64.size) :
    (s.run moves).Steady settings ∧ (s.run moves).lastId ≤ s.lastId + moves.count .accept := by
  refine h.run_induction (motive := fun s moves => (s.run moves).Steady settings ∧
    (s.run moves).lastId ≤ s.lastId + moves.count .accept)
    (fun _ hs => ⟨hs, Nat.le_refl _⟩) ?_ moves hfew
  intro s m moves h hword hrest
  have hlast := (h.step m hword).2
  rw [count_accept_cons]
  exact ⟨hrest.1, Nat.le_trans hrest.2 (by omega)⟩

section

variable {clock : Clock} {start : Server} (hstart : create settings clock = .ok start)
include hstart

theorem steady_of_run (moves : List Move) (hfew : moves.count .accept < UInt64.size) :
    (start.run moves).Steady settings := by
  obtain ⟨-, -, hlast⟩ := sound_of_create hstart
  exact ((steady_of_create hstart).1.run moves (by omega)).1

/-- What is known at any time of a run. -/
theorem steady_within {before rest : List Move}
    (hfew : (before ++ rest).count .accept < UInt64.size) :
    (start.run before).Steady settings ∧
      (start.run before).lastId + rest.count .accept < UInt64.size ∧
      start.run (before ++ rest) = (start.run before).run rest := by
  obtain ⟨-, -, hzero⟩ := sound_of_create hstart
  rw [List.count_append] at hfew
  obtain ⟨hsteady, hlast⟩ := (steady_of_create hstart).1.run before (by omega)
  exact ⟨hsteady, by omega, List.foldl_append ..⟩

end

end Server

end ChatHub
