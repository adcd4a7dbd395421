import ChatHub.Proofs.Hub.Signals
import ChatHub.Proofs.Server.Order
/-!
# What a move does at the desk and to the workers

`Change` says what a move does to the lives of the sessions. This module says what it does to all
the rest that decides how a server closes: whether a session listens for the notice and has it, what
it looks at next, who has a worker, and the word that counts the busy workers. Most moves are made
by one session or one worker, and of those `Outcome` says it at once: every connection goes on as
`Server.Onward` allows, the workers change by shifts, and the door stays as it is. The other moves
have equations of their own.
-/

namespace ChatHub

/-- Whether a move is made at the door: it lets somebody in, or has to do with the end. -/
def Move.isDoor : Move → Bool
  | accept | call | announce | close | dismiss | finishClosing | exit => true
  | _ => false

/-- What a session hears by: whether it listens for the notice, whether the notice has come, and
what it looks at next. -/
def Connection.ears (c : Connection) : Bool × Bool × Attention :=
  (c.subscribed, c.notice, c.attention)

/-- How the workers and the word that counts the busy ones change together. -/
inductive Shift : WorkPool Nat × UInt64 → WorkPool Nat × UInt64 → Prop where
  /-- A worker that looks finds nobody. -/
  | looks {p : WorkPool Nat} {w : UInt64} (i : Nat) (hqueue : p.queue = []) :
      Shift (p, w) (p.look i, w)
  | takes {p : WorkPool Nat} {w : UInt64} {i id : Nat} {rest : List Nat}
      (hi : p.workers[i]? = some .awake) (hqueue : p.queue = id :: rest) :
      Shift (p, w) (p.look i, w + 1)
  | frees {p : WorkPool Nat} {w : UInt64} {i id : Nat} (hi : p.workers[i]? = some (.busy id)) :
      Shift (p, w) (p.finish i, Tally.decrement w)

namespace Server

variable {s w : Server} {c d : Connection} {m : Move} {μs : List HubMove}

/-- How a connection can go on in one move, as far as its session and what it hears are concerned.
-/
inductive Onward (s : Server) (c d : Connection) : Prop where
  | still (hsession : d.session = c.session) (hears : d.ears = c.ears)
  /-- A worker takes it, and it begins to listen. -/
  | isTaken (hc : c.stage = .queued) (hd : d.stage = .taken) (huser : d.card.user = c.card.user)
      (hears : d.ears = (true, c.notice, c.attention))
  | begins (hopen : s.hall.closing = false) (hc : c.stage = .taken) (hd : d.stage = .handshake)
      (hears : d.ears = c.ears)
  | registers {user : String} (hc : c.stage = .handshake) (hd : d.stage = .serving user)
      (hears : d.ears = c.ears)
  | looks {user : String} (hc : c.stage = .serving user) (hd : s.Looks c d)
  | deals {user : String} {r : Record} (hc : c.stage = .serving user)
      (hattention : c.attention = .record r) (hd : d = { c with attention := .notice })
  | departs {user : String} (hc : c.stage = .serving user) (hd : d.stage = .closing)
      (hattention : d.attention = c.attention)
  | ends (hd : d.stage = .ended) (huser : d.card.user = c.card.user)
      (hattention : d.attention = c.attention)

theorem Onward.refl (s : Server) (c : Connection) : s.Onward c c := .still rfl rfl

/-- The workers, and the word that counts the busy ones. -/
def staff (s : Server) : WorkPool Nat × UInt64 := (s.pool, s.hub.tally.workers)

/-- What a move that is not made at the door comes to. -/
structure Outcome (s s' : Server) : Prop where
  settings : s'.hall.settings = s.hall.settings
  flag : s'.hall.closing = s.hall.closing
  announcing : s'.announcing = s.announcing
  closing : s'.closing = s.closing
  gone : s'.gone = s.gone
  connections : ∀ d ∈ s'.connections, ∃ c ∈ s.connections, d.id = c.id ∧ s.Onward c d
  staff : Relation.ReflTransGen Shift s.staff s'.staff

theorem Outcome.listening {s' : Server} (h : s.Outcome s') : s'.listening = s.listening :=
  congrArg (· == Closing.notAsked) h.closing

/-- Nothing is different but the hub and the workers. -/
structure Beside (s w : Server) : Prop where
  settings : w.hall.settings = s.hall.settings
  flag : w.hall.closing = s.hall.closing
  announcing : w.announcing = s.announcing
  closing : w.closing = s.closing
  gone : w.gone = s.gone
  connections : w.connections = s.connections
  staff : Relation.ReflTransGen Shift s.staff w.staff

theorem Beside.refl (s : Server) : s.Beside s := ⟨rfl, rfl, rfl, rfl, rfl, rfl, .refl⟩

theorem beside_withHub {h : Hub} (hworkers : h.tally.workers = s.hub.tally.workers) :
    s.Beside (s.withHub h) := by
  refine ⟨rfl, rfl, rfl, rfl, rfl, rfl, ?_⟩
  show Relation.ReflTransGen Shift (s.pool, _) (s.pool, h.tally.workers)
  rw [hworkers]

namespace Beside

theorem put (h : s.Beside w) (hc : s.connection? c.id = some c)
    (hid : d.id = c.id) (honward : s.Onward c d) : s.Outcome (w.put d) where
  settings := h.settings
  flag := h.flag
  announcing := h.announcing
  closing := h.closing
  gone := h.gone
  connections := by
    intro after hafter
    obtain ⟨e, he, rfl⟩ := List.mem_map.1 hafter
    rw [h.connections] at he
    by_cases heid : e.id = d.id
    · rw [if_pos heid]
      exact ⟨c, (connection?_some hc).1, hid, honward⟩
    · rw [if_neg heid]
      exact ⟨e, he, rfl, .refl s e⟩
  staff := h.staff

theorem outcome (h : s.Beside w) : s.Outcome w where
  settings := h.settings
  flag := h.flag
  announcing := h.announcing
  closing := h.closing
  gone := h.gone
  connections := by
    rw [h.connections]
    exact fun e he => ⟨e, he, rfl, .refl s e⟩
  staff := h.staff

theorem endSession (h : s.Beside w) (hc : s.connection? c.id = some c)
    (hid : d.id = c.id) (huser : d.card.user = c.card.user)
    (hattention : d.attention = c.attention) (htask : d.id ∈ w.pool.tasks) :
    s.Outcome (w.endSession d) := by
  obtain ⟨i, hi, hworker⟩ := workerOf?_of_mem htask
  have hput := h.put (d := d.finished) hc hid (.ends rfl huser hattention)
  rw [endSession_eq hi]
  exact
    { settings := hput.settings
      flag := hput.flag
      announcing := hput.announcing
      closing := hput.closing
      gone := hput.gone
      connections := hput.connections
      staff := h.staff.tail (.frees hworker) }

end Beside

theorem Outcome.withHub {s' : Server} (h : s.Outcome s') {hub : Hub}
    (hworkers : hub.tally.workers = s'.hub.tally.workers) : s.Outcome (s'.withHub hub) where
  settings := h.settings
  flag := h.flag
  announcing := h.announcing
  closing := h.closing
  gone := h.gone
  connections := h.connections
  staff := by
    show Relation.ReflTransGen Shift s.staff (s'.pool, hub.tally.workers)
    rw [hworkers]
    exact h.staff

theorem outcome_atConnection {id : Nat} {f : Connection → Server}
    (hf : ∀ c, s.connection? c.id = some c → s.Outcome (f c)) :
    s.Outcome (s.atConnection id f) := by
  unfold atConnection
  cases hc : s.connection? id with
  | none => exact (Beside.refl s).outcome
  | some c =>
    obtain ⟨-, rfl⟩ := connection?_some hc
    exact hf c hc

/-! ## Writing -/

theorem outcome_failWrite (hc : s.connection? c.id = some c) : s.Outcome (s.failWrite c) := by
  have hput : s.Outcome (s.put { c with writer := .done, inHand := [], shut := true }) :=
    (Beside.refl s).put hc rfl (.still rfl rfl)
  unfold failWrite
  cases c.writer with
  | live => exact hput.withHub rfl
  | _ => exact hput

theorem outcome_writes (hc : s.connection? c.id = some c) (h : s.Writes c m μs w) :
    s.Outcome w := by
  cases h with
  | rests => exact (Beside.refl s).outcome
  | @takes r =>
    have hput : s.Outcome (s.put { c with inHand := r.encode }) :=
      (Beside.refl s).put hc rfl (.still rfl rfl)
    exact hput.withHub rfl
  | drains | closes | writes => exact (Beside.refl s).put hc rfl (.still rfl rfl)
  | fails => exact outcome_failWrite hc

/-! ## The ways of one session -/

namespace Sound

variable (hs : s.Sound)
include hs

theorem mem_tasks (hc : c ∈ s.connections) : c.id ∈ s.pool.tasks ↔ c.stage.isServed = true := by
  rw [hs.staffed.tasks.mem_iff]
  constructor
  · intro h
    obtain ⟨σ, hσ, hserved⟩ := List.mem_filterMap.1 h
    unfold Session.served? at hserved
    split at hserved
    · rename_i hstage
      have hσc : σ = c.session := List.inj_on_of_nodup_map hs.nodup hσ (List.mem_map_of_mem hc)
        (Option.some.inj hserved)
      rw [hσc] at hstage
      exact hstage
    · cases hserved
  · intro h
    exact List.mem_filterMap.2 ⟨c.session, List.mem_map_of_mem hc, if_pos h⟩

theorem outcome_refuse (hc : s.connection? c.id = some c) (hstage : c.stage = .handshake) :
    s.Outcome (s.refuse c) := by
  have hcard : c.card = ⟨c.id, none, .admitted⟩ :=
    congrArg Session.card ((hs.proper_of_connection? hc).of_handshake hstage)
  have htask := (hs.mem_tasks (connection?_some hc).1).2 (by rw [hstage]; rfl)
  rw [refuse_eq (by rw [hcard]; rfl)]
  exact (Beside.refl s).endSession hc rfl rfl rfl htask

theorem outcome_conclude (hc : s.connection? c.id = some c) (hstage : c.stage = .closing) :
    s.Outcome (s.endSession c) := by
  have htask := (hs.mem_tasks (connection?_some hc).1).2 (by rw [hstage]; rfl)
  exact (Beside.refl s).endSession hc rfl rfl rfl htask

theorem outcome_breakOff (hc : s.connection? c.id = some c) {user : String}
    (hstage : c.stage = .serving user) (hd : d.session = c.session)
    (hattention : d.attention = c.attention) : s.Outcome (s.breakOff d user) := by
  have hσ := hd.trans ((hs.proper_of_connection? hc).of_serving hstage)
  have hcard : d.card = ⟨c.id, some user, .active⟩ := congrArg Session.card hσ
  obtain ⟨e, he, heattention, hbreak⟩ := breakOff_eq (c := d) (by rw [hcard]) s user
  have heid : e.id = c.id := (congrArg Session.id he).trans (congrArg Session.id hd)
  have hbeside : s.Beside (s.withHub (s.hub.leave s.clock d.id user).2) :=
    beside_withHub (HubMove.workers_act s.hub (.leave s.clock d.id user))
  rw [hbreak]
  exact hbeside.put hc heid
    (.departs hstage (congrArg Session.stage he) (heattention.trans hattention))

theorem outcome_register (hc : s.connection? c.id = some c) (hstage : c.stage = .handshake)
    (hd : d.session = c.session) (hears : d.ears = c.ears) (i : Identity) :
    s.Outcome (s.register d i) := by
  have hσ := hd.trans ((hs.proper_of_connection? hc).of_handshake hstage)
  have hcard : d.card = ⟨c.id, none, .admitted⟩ := congrArg Session.card hσ
  have hdid : d.id = c.id := congrArg Session.id hd
  have hbeside : s.Beside (s.withHub (s.hub.join s.clock
      (.arriving s.clock.ms d.id i.user none s.hall.settings.mailboxSize))) :=
    beside_withHub (HubMove.workers_act s.hub
      (.join s.clock s.clock.ms d.id i.user none s.hall.settings.mailboxSize))
  rw [register_eq (by rw [hcard])]
  exact hbeside.put (d := (d.joined i).showing .active) hc hdid
    (.registers hstage rfl hears)

/-- A worker takes a session, or finds none. -/
theorem outcome_look (i : Nat) : s.Outcome (s.look i) := by
  by_cases hawake : s.pool.workers[i]? = some .awake
  · rw [look_eq hawake]
    cases hqueue : s.pool.queue with
    | nil =>
      rw [(hs.staffed.look_of_nobody hawake hqueue).1]
      exact Beside.outcome ⟨rfl, rfl, rfl, rfl, rfl, rfl, .single (.looks i hqueue)⟩
    | cons id rest =>
      obtain ⟨front, σ, back, hsplit, rfl, hstage, hworker, -⟩ :=
        hs.staffed.look_of_waiting hawake hqueue hs.queue_nodup
      have hmem : σ ∈ s.sessions := hsplit ▸ List.mem_append_right _ List.mem_cons_self
      obtain ⟨c, hc, rfl⟩ := exists_connection?_of_mem hs.nodup hmem
      have hbeside : s.Beside ((s.withPool (s.pool.look i)).begun c.id) :=
        ⟨rfl, rfl, rfl, rfl, rfl, rfl, .single (.takes hawake hqueue)⟩
      simp only [WorkPool.taskOf?_eq_some_iff.2 hworker, Option.bind_some, hc]
      rw [start_eq]
      exact hbeside.put (d := c.isTaken) hc rfl (.isTaken hstage rfl rfl rfl)
  · have hlook : s.look i = s := by
      unfold look
      split
      · contradiction
      · rfl
    rw [hlook]
    exact (Beside.refl s).outcome

theorem outcome_begin (hc : s.connection? c.id = some c) : s.Outcome (s.begin c) := by
  unfold begin
  split
  · rename_i hstage
    have hcard : c.card = ⟨c.id, none, .queued⟩ :=
      congrArg Session.card ((hs.proper_of_connection? hc).of_taken hstage)
    split
    · have htask := (hs.mem_tasks (connection?_some hc).1).2 (by rw [hstage]; rfl)
      rw [refuse_eq (by rw [hcard]; rfl)]
      exact (Beside.refl s).endSession hc rfl rfl rfl htask
    · rename_i hopen
      rw [advance_eq (by rw [hcard]; rfl)]
      exact (Beside.refl s).put hc rfl (.begins (Bool.eq_false_iff.2 hopen) hstage rfl rfl)
  · exact (Beside.refl s).outcome

theorem outcome_handshake (hc : s.connection? c.id = some c) : s.Outcome (s.handshake c) := by
  unfold handshake
  split
  · rename_i hready
    split
    · exact hs.outcome_refuse hc hready.1
    · cases Identity.parse (c.inbox.take identitySpace) s.hall.settings.maxUserBytes with
      | ok i =>
        exact hs.outcome_register (d := { c with inbox := c.inbox.drop identitySpace }) hc
          hready.1 rfl rfl i
      | error e => exact hs.outcome_refuse hc hready.1
  · exact (Beside.refl s).outcome

theorem outcome_attends (hc : s.connection? c.id = some c) (h : s.Attends c m μs w) :
    s.Outcome w := by
  cases h with
  | rests => exact (Beside.refl s).outcome
  | @looks _ d hstage hd =>
    have hid : d.id = c.id := by
      obtain ⟨framer, inbox, attention, rfl⟩ := hd.eq
      rfl
    exact (Beside.refl s).put hc hid (.looks hstage hd)
  | leaves hstage => exact hs.outcome_breakOff hc hstage rfl rfl
  | deals _ hstage hattention =>
    have hput : s.Outcome (s.put { c with attention := .notice }) :=
      (Beside.refl s).put hc rfl (.deals hstage hattention rfl)
    rw [Hub.dispatch_eq_run]
    exact hput.withHub (Hub.workers_run ..)

/-! ## All moves but those at the door -/

theorem outcome_act (hm : m.isDoor = false) : s.Outcome (s.act m) := by
  have hrefl := (Beside.refl s).outcome
  cases m with
  | accept | call | announce | close | dismiss | finishClosing | exit => cases hm
  | time t => exact Beside.outcome ⟨rfl, rfl, rfl, rfl, rfl, rfl, .refl⟩
  | signal id => exact hrefl.withHub rfl
  | look i => exact hs.outcome_look i
  | arrive id bytes =>
    refine outcome_atConnection fun c hc => ?_
    unfold Connection.arrive
    split <;> exact (Beside.refl s).put hc rfl (.still rfl rfl)
  | endInput id e =>
    refine outcome_atConnection fun c hc => ?_
    unfold Connection.endInput
    split <;> exact (Beside.refl s).put hc rfl (.still rfl rfl)
  | begin id => exact outcome_atConnection fun c hc => hs.outcome_begin hc
  | handshake id => exact outcome_atConnection fun c hc => hs.outcome_handshake hc
  | handshakeTimeout id =>
    refine outcome_atConnection fun c hc => ?_
    split
    · exact hs.outcome_refuse hc ‹_›
    · exact hrefl
  | turn id => exact outcome_atConnection fun c hc => hs.outcome_attends hc (s.attends_turn c)
  | idle id =>
    exact outcome_atConnection fun c hc => hs.outcome_attends hc (s.attends_idle c (.idle id))
  | fetch id => exact outcome_atConnection fun c hc => outcome_writes hc (s.writes_fetch c)
  | write id n => exact outcome_atConnection fun c hc => outcome_writes hc (s.writes_write c n)
  | writeFailure id =>
    exact outcome_atConnection fun c hc => outcome_writes hc (s.writes_failure c)
  | conclude id =>
    refine outcome_atConnection fun c hc => ?_
    split
    · exact hs.outcome_conclude hc (And.left ‹_›)
    · exact hrefl
  | giveUp id =>
    refine outcome_atConnection fun c hc => ?_
    split
    · exact hs.outcome_conclude hc ‹_›
    · exact hrefl

theorem outcome (hm : m.isDoor = false) : s.Outcome (s.step m) :=
  step_cases (motive := fun _ s' => s.Outcome s') m (Beside.refl s).outcome (hs.outcome_act hm)

end Sound

/-! ## Moves at the door -/

theorem accept_of_shut (h : s.listening = false) : s.accept = s := if_neg (h ▸ Bool.false_ne_true)

/-- Whoever is let in finds everything about closing, and the books, as they were. -/
theorem accept_kept (s : Server) :
    s.accept.hall.closing = s.hall.closing ∧ s.accept.announcing = s.announcing ∧
      s.accept.closing = s.closing ∧ s.accept.gone = s.gone ∧
        s.accept.hub.effort = s.hub.effort := by
  unfold accept
  split
  · dsimp only [withHub, Hall.await]
    split <;> split <;> exact ⟨rfl, rfl, rfl, rfl, rfl⟩
  · exact ⟨rfl, rfl, rfl, rfl, rfl⟩

/-- The server when whoever closes it has seen the workers go. -/
def closed (s : Server) : Server := { s.withHub s.hub.refreshTally with closing := .finished }

theorem finishClosing_cases (s : Server) :
    s.finishClosing = s ∨
      ∃ waits, s.closing = .waiting waits ∧ (waits = false ∨ s.pool.isDeserted = true) ∧
        s.finishClosing = s.closed := by
  unfold finishClosing
  cases s.closing with
  | waiting waits =>
    dsimp only
    split
    · rename_i hdone
      exact .inr ⟨waits, rfl, by simpa using hdone, rfl⟩
    · exact .inl rfl
  | _ => exact .inl rfl

/-- Whether the end is called for in a move. -/
def endCalled (s : Server) : Move → Bool
  | .call => true
  | .close => s.listening
  | _ => false

/-- What a move does to the flag that the server is closing, and to the duty to tell the sessions.
-/
theorem Sound.calling_act (hs : s.Sound) (m : Move) :
    ((s.act m).hall.closing, (s.act m).announcing) =
      if s.endCalled m then (true, s.announcing || !s.hall.closing)
      else (s.hall.closing, s.announcing && m ≠ .announce) := by
  have hsame : s.endCalled m = false → m ≠ .announce → (s.act m).hall.closing = s.hall.closing →
      (s.act m).announcing = s.announcing → ((s.act m).hall.closing, (s.act m).announcing) =
        if s.endCalled m then (true, s.announcing || !s.hall.closing)
        else (s.hall.closing, s.announcing && m ≠ .announce) := by
    intro hcalled hannounce hflag hannouncing
    simp [hcalled, hannounce, hflag, hannouncing]
  cases hm : m.isDoor with
  | false =>
    have houtcome := hs.outcome_act hm
    refine hsame ?_ ?_ houtcome.flag houtcome.announcing
    · cases m with
      | call | close => cases hm
      | _ => rfl
    · rintro rfl
      cases hm
  | true =>
    cases m with
    | accept => exact hsame rfl nofun s.accept_kept.1 s.accept_kept.2.1
    | call => exact congrArg (fun r : Bool × Server => (r.2.hall.closing, r.2.announcing)) s.call_eq
    | announce =>
      show (s.announce.hall.closing, s.announce.announcing) =
        (s.hall.closing, s.announcing && false)
      rw [Bool.and_false]
      cases htold : s.announcing with
      | true => rw [announce_eq htold]
      | false => rw [announce_of_told htold, htold]
    | close =>
      cases hlistening : s.listening with
      | true =>
        show (s.close.hall.closing, s.close.announcing) = if s.listening then _ else _
        rw [close_eq hlistening, if_pos hlistening]
      | false =>
        have hkept : s.act .close = s := close_of_shut hlistening
        exact hsame hlistening nofun (by rw [hkept]) (by rw [hkept])
    | dismiss =>
      rcases s.dismiss_cases with ⟨hkept, -⟩ | ⟨-, -, -, hdismissed, -⟩
      · have hkept : s.act .dismiss = s := hkept
        exact hsame rfl nofun (by rw [hkept]) (by rw [hkept])
      · have hkept : s.act .dismiss = s.dismissed := hdismissed
        exact hsame rfl nofun (by rw [hkept]; rfl) (by rw [hkept]; rfl)
    | finishClosing =>
      rcases s.finishClosing_cases with hkept | ⟨-, -, -, hclosed⟩
      · have hkept : s.act .finishClosing = s := hkept
        exact hsame rfl nofun (by rw [hkept]) (by rw [hkept])
      · have hkept : s.act .finishClosing = s.closed := hclosed
        exact hsame rfl nofun (by rw [hkept]; rfl) (by rw [hkept]; rfl)
    | exit => exact hsame rfl nofun rfl rfl
    | _ => cases hm

/-- A server that is closing stays so. -/
theorem Sound.flag_step (hs : s.Sound) (hflag : s.hall.closing = true) (m : Move) :
    (s.step m).hall.closing = true := by
  refine step_cases (motive := fun _ s' => s'.hall.closing = true) m hflag ?_
  have hcalling := congrArg Prod.fst (hs.calling_act m)
  dsimp only at hcalling
  rw [hcalling]
  split
  · rfl
  · exact hflag

/-- A move that changes none of the connections, or lets one more in, or gives the notice. -/
theorem Sound.of_mem_act (hs : s.Sound) (hannounce : m = .announce → s.announcing = false)
    (hword : s.lastId + [m].count .accept < UInt64.size) (hd : d ∈ (s.act m).connections) :
    (∃ c ∈ s.connections, d.id = c.id ∧ s.Onward c d) ∨ d = .accepted (s.lastId + 1) := by
  have hsame : (s.act m).connections = s.connections →
      (∃ c ∈ s.connections, d.id = c.id ∧ s.Onward c d) ∨ d = .accepted (s.lastId + 1) := by
    intro hkept
    rw [hkept] at hd
    exact .inl ⟨d, hd, rfl, .refl s d⟩
  cases hm : m.isDoor with
  | false => exact .inl ((hs.outcome_act hm).connections d hd)
  | true =>
    cases m with
    | accept =>
      cases hlistening : s.listening with
      | true =>
        obtain ⟨pool, -, haccept⟩ := hs.exists_accept_eq hlistening hword
        rw [show s.act .accept = _ from haccept] at hd
        rcases List.mem_append.1 hd with hd | hd
        · exact .inl ⟨d, hd, rfl, .refl s d⟩
        · exact .inr (List.mem_singleton.1 hd)
      | false => exact hsame (congrArg Server.connections (accept_of_shut hlistening))
    | call => exact hsame (congrArg (fun r : Bool × Server => r.2.connections) s.call_eq)
    | announce => exact hsame (congrArg Server.connections (announce_of_told (hannounce rfl)))
    | close =>
      cases hlistening : s.listening with
      | true => exact hsame ((congrArg Server.connections (close_eq hlistening)).trans rfl)
      | false => exact hsame (congrArg Server.connections (close_of_shut hlistening))
    | dismiss =>
      rcases s.dismiss_cases with ⟨hkept, -⟩ | ⟨-, -, -, hdismissed, -⟩
      · exact hsame (congrArg Server.connections hkept)
      · exact hsame ((congrArg Server.connections hdismissed).trans rfl)
    | finishClosing =>
      rcases s.finishClosing_cases with hkept | ⟨-, -, -, hclosed⟩
      · exact hsame (congrArg Server.connections hkept)
      · exact hsame ((congrArg Server.connections hclosed).trans rfl)
    | exit => exact hsame rfl
    | _ => cases hm

/-- Each connection after a move was there before and has gone on, or has come with the move. Giving
the notice is not asked about here, because that changes what everybody hears. -/
theorem Sound.of_mem_step (hs : s.Sound) (hannounce : m = .announce → s.announcing = false)
    (hword : s.lastId + [m].count .accept < UInt64.size) (hd : d ∈ (s.step m).connections) :
    (∃ c ∈ s.connections, d.id = c.id ∧ s.Onward c d) ∨ d = .accepted (s.lastId + 1) := by
  refine step_cases (motive := fun _ s' => d ∈ s'.connections →
    (∃ c ∈ s.connections, d.id = c.id ∧ s.Onward c d) ∨ d = .accepted (s.lastId + 1)) m ?_ ?_ hd
  · exact fun hd => .inl ⟨d, hd, rfl, .refl s d⟩
  · exact fun hd => hs.of_mem_act hannounce hword hd

end Server

end ChatHub
