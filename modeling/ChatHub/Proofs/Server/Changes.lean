import ChatHub.Proofs.Server.Calls
/-!
# All that a move of a server can do

A move of a server in order does one of three things to the sessions: nothing, or it adds one that
waits, or it lets one of them take a step of its life. `Course` has these three, and `Change` adds
what goes with each of them: what the hub has done, and that the workers are still with the right
sessions. `Sound.change` shows it for every move.

The card of a session is what makes a move a step. A session asks its card before each phase and
breaks off if that refuses, and what it does then would be no step at all. In a server in order no
card ever refuses, so the functions on sessions have plain equations (`refuse_eq`, `breakOff_eq`,
`register_eq`).
-/

namespace ChatHub

namespace Hub

def workerTaken (h : Hub) : Hub :=
  { h with
    tally := h.tally.workerBusy
    gauges := { h.gauges with busyWorkers := h.gauges.busyWorkers + 1 } }

def workerFreed (h : Hub) : Hub :=
  { h with
    tally := h.tally.workerFree
    gauges := { h.gauges with busyWorkers := h.gauges.busyWorkers - 1 } }

end Hub

namespace Connection

def showing (c : Connection) (phase : Phase) : Connection :=
  { c with card := { c.card with phase } }

/-- A connection whose session has joined the hub. -/
def joined (c : Connection) (i : Identity) : Connection :=
  { c with
    card := { c.card with user := some i.user }
    stage := .serving i.user
    framer := ⟨i.leftover⟩
    writer := .live }

/-- A connection whose session a worker has taken. -/
def isTaken (c : Connection) : Connection := { c with stage := .taken, subscribed := true }

/-- A connection when the notice that the server closes goes round: whoever listens gets it. -/
def noticing (c : Connection) : Connection := { c with notice := c.notice || c.subscribed }

/-- A connection whose session is over. -/
def finished (c : Connection) : Connection :=
  { c with stage := .ended, subscribed := false, notice := false }

end Connection

namespace Server

variable {s s' w : Server} {c d : Connection} {σ τ : Session} {μs : List HubMove}

/-! ## The sessions of a server -/

def sessions (s : Server) : List Session := s.connections.map Connection.session

theorem ids_sessions (s : Server) : s.sessions.map Session.id = s.connections.map (·.id) := by
  rw [sessions, List.map_map]
  rfl

theorem connection?_some {id : Nat} (hc : s.connection? id = some c) :
    c ∈ s.connections ∧ c.id = id :=
  ⟨List.mem_of_find?_eq_some hc, by simpa using List.find?_some hc⟩

theorem session_mem {id : Nat} (hc : s.connection? id = some c) : c.session ∈ s.sessions :=
  List.mem_map_of_mem (connection?_some hc).1

theorem connection?_of_mem (hs : (s.sessions.map Session.id).Nodup) (hc : c ∈ s.connections) :
    s.connection? c.id = some c := by
  rw [ids_sessions] at hs
  cases hf : s.connection? c.id with
  | none => exact absurd (List.find?_eq_none.1 hf c hc) (by simp)
  | some d =>
    obtain ⟨hd, hid⟩ := connection?_some hf
    rw [List.inj_on_of_nodup_map hs hd hc hid]

theorem exists_connection?_of_mem (hs : (s.sessions.map Session.id).Nodup) (hσ : σ ∈ s.sessions) :
    ∃ c, s.connection? σ.id = some c ∧ c.session = σ := by
  obtain ⟨c, hc, rfl⟩ := List.mem_map.1 hσ
  exact ⟨c, connection?_of_mem hs hc, rfl⟩

/-- Putting a connection replaces one session and no other. -/
theorem sessions_put (hs : (s.sessions.map Session.id).Nodup) {front back : List Session}
    (hsplit : s.sessions = front ++ σ :: back) (hd : d.id = σ.id) :
    (s.put d).sessions = front ++ d.session :: back := by
  have hput : (s.put d).sessions =
      s.sessions.map fun τ => if τ.id = d.id then d.session else τ := by
    rw [sessions, sessions, put, List.map_map, List.map_map]
    refine List.map_congr_left fun e _ => ?_
    show (if e.id = d.id then d else e).session = if e.id = d.id then d.session else e.session
    split <;> rfl
  rw [hsplit, List.map_append, List.map_cons] at hs
  have hfront : ∀ τ ∈ front, τ.id ≠ σ.id := fun τ hτ =>
    (List.nodup_append.1 hs).2.2 _ (List.mem_map_of_mem hτ) _ List.mem_cons_self
  have hback : ∀ τ ∈ back, τ.id ≠ σ.id := fun τ hτ heq =>
    (List.nodup_cons.1 (List.nodup_append.1 hs).2.1).1 (heq ▸ List.mem_map_of_mem hτ)
  have hkeep : ∀ l : List Session, (∀ τ ∈ l, τ.id ≠ σ.id) →
      (l.map fun τ => if τ.id = d.id then d.session else τ) = l := by
    intro l hl
    refine (List.map_congr_left fun τ hτ => ?_).trans (List.map_id l)
    rw [hd]
    exact if_neg (hl τ hτ)
  rw [hput, hsplit, List.map_append, List.map_cons, hkeep front hfront, hkeep back hback,
    if_pos hd.symm]

theorem sessions_put_same (hs : (s.sessions.map Session.id).Nodup)
    (hc : s.connection? c.id = some c) (hd : d.session = c.session) :
    (s.put d).sessions = s.sessions := by
  obtain ⟨front, back, hsplit⟩ := List.append_of_mem (session_mem hc)
  have hid : d.id = c.session.id := congrArg Session.id hd
  rw [sessions_put hs hsplit hid, hd, hsplit]

theorem workerOf?_of_mem {id : Nat} (h : id ∈ s.pool.tasks) :
    ∃ i, s.workerOf? id = some i ∧ s.pool.workers[i]? = some (.busy id) := by
  have hw := WorkPool.mem_tasks_iff.1 h
  cases hf : s.workerOf? id with
  | none =>
    have hnone := List.findIdx?_eq_none_iff.1 hf _ hw
    simp at hnone
  | some i =>
    refine ⟨i, rfl, ?_⟩
    obtain ⟨hi, hp, -⟩ := List.findIdx?_eq_some_iff_getElem.1 hf
    rw [List.getElem?_eq_getElem hi]
    generalize s.pool.workers[i] = w at hp
    cases w with
    | busy task => rw [beq_iff_eq.1 hp]
    | _ => cases hp

theorem connection?_put (s : Server) (d : Connection) (id : Nat) :
    (s.put d).connection? id =
      (s.connection? id).map fun c => if c.id = d.id then d else c := by
  have hid : ∀ c : Connection, (if c.id = d.id then d else c).id = c.id := by
    intro c
    split
    · rename_i heq
      exact heq.symm
    · rfl
  show (s.connections.map _).find? _ = (s.connections.find? _).map _
  rw [List.find?_map]
  simp only [Function.comp_def, hid]

theorem connection?_of_put (hc : s.connection? c.id = some c) (hd : d.id = c.id)
    (hw : w.connections = (s.put d).connections) : w.connection? c.id = some d := by
  have hfind : w.connection? c.id = (s.put d).connection? c.id :=
    congrArg (List.find? fun e : Connection => e.id == c.id) hw
  rw [hfind, connection?_put, hc, Option.map_some, if_pos hd.symm]

theorem connection?_of_put_of_ne {id : Nat} (hid : id ≠ d.id)
    (hw : w.connections = (s.put d).connections) : w.connection? id = s.connection? id := by
  have hfind : w.connection? id = (s.put d).connection? id :=
    congrArg (List.find? fun e : Connection => e.id == id) hw
  rw [hfind, connection?_put]
  cases hc : s.connection? id with
  | none => rfl
  | some c =>
    obtain ⟨-, rfl⟩ := connection?_some hc
    rw [Option.map_some, if_neg hid]

/-! ## Sessions on their way -/

theorem advance_eq {next : Phase} (h : c.card.phase.canAdvance next = true) (s : Server)
    (onward : Server → Connection → Server) :
    s.advance c next onward = onward s (c.showing next) := by
  unfold advance SessionCard.advance
  rw [if_pos h]
  rfl

theorem depart_eq (s : Server) (c : Connection) (user : String) :
    ∃ writer, s.depart c user =
      ({ c with writer }, s.withHub (s.hub.leave s.clock c.id user).2) := by
  unfold depart
  rcases s.hub.leave s.clock c.id user with ⟨gone, h⟩
  exact ⟨_, rfl⟩

theorem refuse_eq (h : c.card.phase.canAdvance .deregistered = true) (s : Server) :
    s.refuse c = s.endSession { c.showing .deregistered with shut := true } :=
  advance_eq h s _

/-- A session that breaks off is still in the hub when its card shows that it disconnects. -/
theorem breakOff_through (h : c.card.phase = .active) (s : Server) (user : String) :
    s.breakOff c user =
      let leaving := (s.put (c.showing .disconnecting)).depart (c.showing .disconnecting) user
      leaving.2.advance leaving.1 .deregistered fun s c => s.put { c with stage := .closing } := by
  have hmay : c.card.phase.canAdvance .disconnecting = true := by
    rw [h]
    rfl
  obtain ⟨writer, hdepart⟩ := s.depart_eq (c.showing .disconnecting) user
  have hdepart' : (s.put (c.showing .disconnecting)).depart (c.showing .disconnecting) user =
      ((s.depart (c.showing .disconnecting) user).1,
        (s.depart (c.showing .disconnecting) user).2.put (c.showing .disconnecting)) := rfl
  unfold breakOff
  rw [advance_eq hmay, hdepart', hdepart]
  dsimp only
  rw [advance_eq rfl, advance_eq rfl]
  symm
  exact put_put (s.withHub _) rfl

theorem breakOff_eq (h : c.card.phase = .active) (s : Server) (user : String) :
    ∃ d, d.session = ⟨{ c.card with phase := .deregistered }, .closing, c.breach⟩ ∧
      d.attention = c.attention ∧
      s.breakOff c user = (s.withHub (s.hub.leave s.clock c.id user).2).put d := by
  obtain ⟨writer, hdepart⟩ := (s.put (c.showing .disconnecting)).depart_eq
    (c.showing .disconnecting) user
  rw [breakOff_through h, hdepart]
  dsimp only
  rw [advance_eq rfl]
  refine ⟨_, ?_, ?_, put_put (s.withHub _) rfl⟩ <;> rfl

/-- A session that registers has joined the hub when its card shows it. -/
theorem register_through (h : c.card.phase = .admitted) (s : Server) (i : Identity) :
    s.register c i =
      ((s.withHub (s.hub.join s.clock
        (.arriving s.clock.ms c.id i.user none s.hall.settings.mailboxSize))).put
          ((c.joined i).showing .registered)).advance ((c.joined i).showing .registered) .active
        fun s c => s.put c := by
  have hmay : (c.joined i).card.phase.canAdvance .registered = true := by
    show c.card.phase.canAdvance .registered = true
    rw [h]
    rfl
  have hregister : s.register c i =
      (s.withHub (s.hub.join s.clock
        (.arriving s.clock.ms c.id i.user none s.hall.settings.mailboxSize))).advance (c.joined i)
          .registered fun s c => s.advance c .active fun s c => s.put c := rfl
  rw [hregister, advance_eq hmay, advance_eq rfl, advance_eq rfl]
  symm
  exact put_put (s.withHub _) rfl

theorem register_eq (h : c.card.phase = .admitted) (s : Server) (i : Identity) :
    s.register c i = (s.withHub (s.hub.join s.clock
      (.arriving s.clock.ms c.id i.user none s.hall.settings.mailboxSize))).put
        ((c.joined i).showing .active) := by
  rw [register_through h, advance_eq rfl]
  exact put_put (s.withHub _) rfl

theorem endSession_eq {i : Nat} (h : s.workerOf? c.id = some i) :
    s.endSession c =
      { (s.put c.finished).withHub s.hub.workerFreed with pool := s.pool.finish i } := by
  have hput : (s.put { c with stage := .ended, subscribed := false, notice := false }).workerOf?
      c.id = some i := h
  unfold endSession
  dsimp only
  rw [hput]
  rfl

/-- The worker of a session that is over is free, and nothing else changes. -/
theorem endSession_spec (hs : (s.sessions.map Session.id).Nodup) {front back : List Session}
    (hsplit : s.sessions = front ++ σ :: back) (hd : d.id = σ.id)
    (hstaffed : StaffedBy (front ++ τ :: back) s.pool s.hall.pending) (hτ : τ.id = d.id)
    (hqueued : τ.queued? = none) (hserved : τ.served? = some τ.id) :
    (s.endSession d).sessions = front ++ d.finished.session :: back ∧
      StaffedBy (front ++ d.finished.session :: back) (s.endSession d).pool
        (s.endSession d).hall.pending ∧
      (s.endSession d).hub.indoors = s.hub.indoors ∧
      (s.endSession d).pool.stopped = s.pool.stopped ∧
      (s.endSession d).lastId = s.lastId ∧ (s.endSession d).listening = s.listening := by
  have htask : d.id ∈ s.pool.tasks := by
    rw [hstaffed.tasks.mem_iff, ← hτ]
    refine List.mem_filterMap.2 ⟨τ, ?_, hserved⟩
    exact List.mem_append_right _ List.mem_cons_self
  obtain ⟨i, hi, hworker⟩ := workerOf?_of_mem htask
  rw [← hτ] at hworker
  rw [endSession_eq hi]
  refine ⟨sessions_put hs hsplit hd, ?_, rfl, WorkPool.stopped_finish _ _, rfl, rfl⟩
  exact hstaffed.finish hworker hqueued hserved rfl rfl

/-- The server with another pool, and the number of those who wait in it written down. -/
def withPool (s : Server) (pool : WorkPool Nat) : Server :=
  { s.withHub { s.hub with gauges := { s.hub.gauges with queued := pool.queue.length } } with pool }

theorem look_eq {i : Nat} (h : s.pool.workers[i]? = some .awake) :
    s.look i =
      match ((s.pool.look i).taskOf? i).bind s.connection? with
      | some c => (s.withPool (s.pool.look i)).start c
      | none => s.withPool (s.pool.look i) := by
  unfold look
  rw [h]
  rfl

/-- The server when a connection has come that is about to be put into the queue. -/
def atDoor (s : Server) (id : Nat) : Server :=
  { s with
    lastId := id
    hall :=
      { s.hall with
        hub := { s.hub with gauges := { s.hub.gauges with accepted := s.hub.gauges.accepted + 1 } }
        pending := s.hall.pending ++ [id] } }

theorem accept_eq (h : s.listening = true) {id : Nat} (hid : idAfter s.lastId = id)
    (hnew : ¬s.hall.pending.contains id = true) {pool : WorkPool Nat}
    (hpool : s.pool.enqueue id = .ok pool) :
    s.accept =
      { (s.atDoor id).withPool pool with connections := s.connections ++ [.accepted id] } := by
  have hawait : ∀ hub, ({ s.hall with hub } : Hall).await id =
      { s.hall with hub, pending := s.hall.pending ++ [id] } := fun hub => if_neg hnew
  unfold accept
  rw [if_pos h]
  simp only [withHub, hid, hawait, hpool]
  rfl

theorem sessions_noticing (s : Server) :
    (s.connections.map Connection.noticing).map Connection.session = s.sessions := by
  rw [List.map_map]
  rfl

theorem call_eq (s : Server) :
    s.call =
      (!s.hall.closing,
        { s with
          hall := { s.hall with closing := true }
          announcing := s.announcing || !s.hall.closing }) := by
  unfold call Hall.beginShutdown
  cases hclosing : s.hall.closing with
  | true =>
    have hhall : s.hall = { s.hall with closing := true } := by rw [← hclosing]
    rw [← hhall]
    rfl
  | false => rfl

theorem announce_eq (h : s.announcing = true) :
    s.announce =
      { s with announcing := false, connections := s.connections.map Connection.noticing } :=
  if_pos h

theorem announce_of_told (h : s.announcing = false) : s.announce = s :=
  if_neg (h ▸ Bool.false_ne_true)

theorem close_eq (h : s.listening = true) :
    s.close =
      { s with
        hall := { s.hall with closing := true }
        announcing := s.announcing || !s.hall.closing
        closing := .called !s.hall.closing } := by
  unfold close
  rw [if_pos h, call_eq]

theorem close_of_shut (h : s.listening = false) : s.close = s := if_neg (h ▸ Bool.false_ne_true)

/-- The server when everybody has been signalled and the pool has been told to stop. -/
def dismissed (s : Server) : Server :=
  { s.withHub { s.hub with registry := s.hub.registry.retireAll.2 } with
    pool := s.pool.shutdown.2
    closing := .waiting s.pool.shutdown.1 }

/-- Whoever closes the server gets on with it, or has not come so far, or is past this. -/
theorem dismiss_cases (s : Server) :
    s.dismiss = s ∧ s.actCalls .dismiss = [] ∨
      ∃ first, s.closing = .called first ∧ (first && s.announcing) = false ∧
        s.dismiss = s.dismissed ∧ s.actCalls .dismiss = [.retireAll] := by
  unfold dismiss actCalls
  cases s.closing with
  | called first =>
    dsimp only
    split
    · exact .inl ⟨rfl, rfl⟩
    · rename_i hready
      exact .inr ⟨first, rfl, Bool.eq_false_iff.2 hready, rfl, rfl⟩
  | _ => exact .inl ⟨rfl, rfl⟩

/-- The server when a worker has taken a session from it. -/
def begun (s : Server) (id : Nat) : Server :=
  { s.withHub s.hub.workerTaken with
    hall := ((s.withHub s.hub.workerTaken).hall.unawait id).2 }

theorem start_eq (s : Server) (c : Connection) : s.start c = (s.begun c.id).put c.isTaken := rfl

/-! ## Changes -/

/-- What a move can do to the sessions: how many come, what the hub does, and what they are then. -/
inductive Course (last : Nat) (σs : List Session) : Nat → List HubMove → List Session → Prop where
  /-- Nobody gets on. -/
  | same {μs : List HubMove} (h : ∀ μ ∈ μs, μ.isVisit = false) : Course last σs 0 μs σs
  | accepted : Course last σs 1 [] (σs ++ [.of (last + 1) none .queued])
  | step {front back : List Session} {σ τ : Session} {μs : List HubMove}
      (hσs : σs = front ++ σ :: back) (h : σ.Step μs τ) :
      Course last σs 0 μs (front ++ τ :: back)

/-- What a move of a server in order comes to. -/
structure Change (s : Server) (came : Nat) (μs : List HubMove) (s' : Server) : Prop where
  lastId : s'.lastId = s.lastId + came
  hub : s'.hub.indoors = (s.hub.run μs).indoors
  staffed : StaffedBy s'.sessions s'.pool s'.hall.pending
  taking : s'.listening = true → s'.pool.stopped = false
  course : Course s.lastId s.sessions came μs s'.sessions

/-- A server in order. -/
structure Sound (s : Server) : Prop where
  /-- The connections are numbered from one. -/
  ids : s.sessions.map Session.id = List.range' 1 s.lastId
  word : s.lastId < UInt64.size
  proper : ∀ σ ∈ s.sessions, σ.Proper
  staffed : StaffedBy s.sessions s.pool s.hall.pending
  /-- A server that listens has a pool that takes tasks. -/
  taking : s.listening = true → s.pool.stopped = false
  /-- The hub has those whose sessions are in it. -/
  seats : s.hub.registry.names.Perm (Session.seats s.sessions)
  agree : s.hub.Agree

namespace Sound

variable (hs : s.Sound)
include hs

theorem nodup : (s.sessions.map Session.id).Nodup := hs.ids ▸ List.nodup_range'

theorem queue_nodup : s.pool.queue.Nodup := by
  rw [hs.staffed.queue]
  exact hs.nodup.sublist (Session.waiting_sublist s.sessions)

theorem proper_of_connection? {id : Nat} (hc : s.connection? id = some c) : c.session.Proper :=
  hs.proper _ (session_mem hc)

end Sound

/-! ## Moves that leave the sessions alone -/

/-- One server has the sessions of the other, and everything that they depend on. -/
structure Alike (s s' : Server) : Prop where
  sessions : s'.sessions = s.sessions
  pool : s'.pool = s.pool
  pending : s'.hall.pending = s.hall.pending
  lastId : s'.lastId = s.lastId
  listening : s'.listening = s.listening

theorem Alike.refl (s : Server) : s.Alike s := ⟨rfl, rfl, rfl, rfl, rfl⟩

theorem Alike.withHub (h : s.Alike s') (hub : Hub) : s.Alike (s'.withHub hub) :=
  ⟨h.sessions, h.pool, h.pending, h.lastId, h.listening⟩

namespace Sound

variable (hs : s.Sound)
include hs

theorem alike_put (hc : s.connection? c.id = some c) (hd : d.session = c.session) :
    s.Alike (s.put d) :=
  ⟨sessions_put_same hs.nodup hc hd, rfl, rfl, rfl, rfl⟩

theorem change_of_alike (h : s.Alike s') (hμs : ∀ μ ∈ μs, μ.isVisit = false)
    (hhub : s'.hub.indoors = (s.hub.run μs).indoors) : s.Change 0 μs s' where
  hub := hhub
  staffed := by
    rw [h.sessions, h.pool, h.pending]
    exact hs.staffed
  taking := by
    rw [h.listening, h.pool]
    exact hs.taking
  lastId := h.lastId
  course := by
    rw [h.sessions]
    exact .same hμs

theorem change_refl : s.Change 0 [] s := hs.change_of_alike (.refl s) (List.forall_mem_nil _) rfl

/-! ## Steps in the hub -/

theorem change_of_step (hc : s.connection? c.id = some c) (hd : d.id = c.id)
    (hstep : c.session.Step μs d.session) (hqueued : d.session.queued? = c.session.queued?)
    (hserved : d.session.served? = c.session.served?) (hub : Hub)
    (hhub : hub.indoors = (s.hub.run μs).indoors) : s.Change 0 μs ((s.withHub hub).put d) := by
  obtain ⟨front, back, hsplit⟩ := List.append_of_mem (session_mem hc)
  have hsessions : ((s.withHub hub).put d).sessions = front ++ d.session :: back :=
    sessions_put hs.nodup hsplit hd
  have hstaffed := hs.staffed
  rw [hsplit] at hstaffed
  refine { lastId := rfl, hub := hhub, staffed := ?_, taking := hs.taking, course := ?_ }
  · rw [hsessions]
    exact hstaffed.swap hqueued hserved
  · rw [hsessions]
    exact .step hsplit hstep

theorem change_breakOff (hc : s.connection? c.id = some c) {user : String}
    (hstage : c.stage = .serving user) (hd : d.session = c.session) :
    s.Change 0 [.leave s.clock c.id user] (s.breakOff d user) := by
  have hσ := (hs.proper_of_connection? hc).of_serving hstage
  have hσd : d.session = .of c.id (some user) (.serving user) := hd.trans hσ
  have hcard : d.card = ⟨c.id, some user, .active⟩ := congrArg Session.card hσd
  have hbreach : d.breach = none := congrArg Session.breach hσd
  obtain ⟨e, he, -, hbreak⟩ := breakOff_eq (c := d) (by rw [hcard]) s user
  rw [hcard, hbreach] at he
  have heid : e.id = c.id := congrArg Session.id he
  have hdid : d.id = c.id := congrArg Session.id hσd
  rw [hbreak, hdid]
  refine hs.change_of_step hc heid ?_ ?_ ?_ _ rfl
  · rw [hσ, he]
    exact .leaves s.clock c.id user
  · rw [hσ, he]
    rfl
  · rw [hσ, he]
    rfl

theorem change_register (hc : s.connection? c.id = some c) (hstage : c.stage = .handshake)
    (hd : d.session = c.session) (i : Identity) :
    s.Change 0
      [.join s.clock s.clock.ms c.id i.user none s.hall.settings.mailboxSize]
      (s.register d i) := by
  have hσ := (hs.proper_of_connection? hc).of_handshake hstage
  have hσd : d.session = .of c.id none .handshake := hd.trans hσ
  have hcard : d.card = ⟨c.id, none, .admitted⟩ := congrArg Session.card hσd
  have hbreach : d.breach = none := congrArg Session.breach hσd
  have hdid : d.id = c.id := congrArg Session.id hσd
  have hactive : ((d.joined i).showing .active).session =
      .of c.id (some i.user) (.serving i.user) := by
    show Session.mk { d.card with user := some i.user, phase := .active } _ d.breach = _
    rw [hcard, hbreach]
    rfl
  rw [register_eq (by rw [hcard]), hdid]
  refine hs.change_of_step (d := (d.joined i).showing .active) hc hdid ?_ ?_ ?_ _ rfl
  · rw [hσ, hactive]
    exact .registers s.clock s.clock.ms c.id i.user none _
  · rw [hσ, hactive]
    rfl
  · rw [hσ, hactive]
    rfl

/-! ## Steps that take a worker or free one -/

theorem change_endSession (hc : s.connection? c.id = some c) (hserved : c.stage.isServed = true)
    (hd : d.id = c.id) (hstep : c.session.Step [] d.finished.session) :
    s.Change 0 [] (s.endSession d) := by
  obtain ⟨front, back, hsplit⟩ := List.append_of_mem (session_mem hc)
  have hqueued : c.session.queued? = none := by
    apply if_neg
    intro hq
    have hstage : c.stage = .queued := hq
    rw [hstage] at hserved
    cases hserved
  have hstaffed := hs.staffed
  rw [hsplit] at hstaffed
  obtain ⟨hsessions, hstaffed', hhub, hstopped, hlast, hlistening⟩ :=
    endSession_spec hs.nodup hsplit hd hstaffed hd.symm hqueued (if_pos hserved)
  refine { lastId := hlast, hub := hhub, staffed := ?_, taking := ?_, course := ?_ }
  · rw [hsessions]
    exact hstaffed'
  · rw [hlistening, hstopped]
    exact hs.taking
  · rw [hsessions]
    exact .step hsplit hstep

theorem change_refuse (hc : s.connection? c.id = some c) (hstage : c.stage = .handshake) :
    s.Change 0 [] (s.refuse c) := by
  have hσ := (hs.proper_of_connection? hc).of_handshake hstage
  have hcard : c.card = ⟨c.id, none, .admitted⟩ := congrArg Session.card hσ
  have hbreach : c.breach = none := congrArg Session.breach hσ
  rw [refuse_eq (by rw [hcard]; rfl)]
  refine hs.change_endSession hc (by rw [hstage]; rfl) rfl ?_
  show c.session.Step [] ⟨{ c.card with phase := .deregistered }, .ended, c.breach⟩
  rw [hσ, hcard, hbreach]
  exact .refused c.id

theorem change_conclude (hc : s.connection? c.id = some c) (hstage : c.stage = .closing) :
    s.Change 0 [] (s.endSession c) := by
  obtain ⟨user, hσ⟩ := (hs.proper_of_connection? hc).of_closing hstage
  have hcard : c.card = ⟨c.id, some user, .deregistered⟩ := congrArg Session.card hσ
  have hbreach : c.breach = none := congrArg Session.breach hσ
  refine hs.change_endSession hc (by rw [hstage]; rfl) rfl ?_
  show c.session.Step [] ⟨c.card, .ended, c.breach⟩
  rw [hσ, hcard, hbreach]
  exact .concludes c.id user

theorem change_start (hc : s.connection? c.id = some c) (hstage : c.stage = .queued)
    {front back : List Session} (hsplit : s.sessions = front ++ c.session :: back)
    {pool : WorkPool Nat} (hopen : s.listening = true → pool.stopped = false)
    (hstaffed : ∀ τ : Session, τ.queued? = none → τ.served? = some c.id →
      StaffedBy (front ++ τ :: back) pool (s.hall.pending.filter (· != c.id))) :
    s.Change 0 [] ((s.withPool pool).start c) := by
  have hσ := (hs.proper_of_connection? hc).of_queued hstage
  have htaken : c.isTaken.session = .of c.id none .taken := by
    show Session.mk c.card .taken c.breach = _
    rw [show c.card = ⟨c.id, none, .queued⟩ from congrArg Session.card hσ,
      show c.breach = none from congrArg Session.breach hσ]
    rfl
  have hsessions : ((s.withPool pool).start c).sessions = front ++ c.isTaken.session :: back :=
    sessions_put hs.nodup hsplit rfl
  refine { lastId := rfl, hub := rfl, staffed := ?_, taking := hopen, course := ?_ }
  · rw [hsessions, htaken]
    exact hstaffed _ rfl rfl
  · rw [hsessions, htaken, hsplit, hσ]
    exact .step rfl (.isTaken c.id)

/-- A worker takes the session that has waited longest, or finds none. -/
theorem change_look (i : Nat) : s.Change 0 [] (s.look i) := by
  by_cases hawake : s.pool.workers[i]? = some .awake
  · rw [look_eq hawake]
    have hopen : s.listening = true → (s.pool.look i).stopped = false := by
      rw [WorkPool.stopped_look]
      exact hs.taking
    cases hqueue : s.pool.queue with
    | nil =>
      obtain ⟨htask, hstaffed⟩ := hs.staffed.look_of_nobody hawake hqueue
      rw [htask]
      exact
        { lastId := rfl
          hub := rfl
          staffed := hstaffed
          taking := hopen
          course := .same (List.forall_mem_nil _) }
    | cons id rest =>
      obtain ⟨front, σ, back, hsplit, rfl, hstage, hworker, hstaffed⟩ :=
        hs.staffed.look_of_waiting hawake hqueue hs.queue_nodup
      have hmem : σ ∈ s.sessions := hsplit ▸ List.mem_append_right _ List.mem_cons_self
      obtain ⟨c, hc, rfl⟩ := exists_connection?_of_mem hs.nodup hmem
      simp only [WorkPool.taskOf?_eq_some_iff.2 hworker, Option.bind_some, hc]
      exact hs.change_start hc hstage hsplit hopen hstaffed
  · have hlook : s.look i = s := by
      unfold look
      split
      · contradiction
      · rfl
    rw [hlook]
    exact hs.change_refl

theorem le_lastId {id : Nat} (hid : id ∈ s.hall.pending) : id ≤ s.lastId := by
  rw [hs.staffed.pending] at hid
  have hmem := (Session.waiting_sublist s.sessions).subset hid
  rw [hs.ids, List.mem_range'_1] at hmem
  omega

/-- A server that listens takes everybody in: its pool is open, and the number is a new one. -/
theorem exists_accept_eq (hlistening : s.listening = true) (hword : s.lastId + 1 < UInt64.size) :
    ∃ pool, s.pool.enqueue (s.lastId + 1) = .ok pool ∧
      s.accept =
        { (s.atDoor (s.lastId + 1)).withPool pool with
          connections := s.connections ++ [.accepted (s.lastId + 1)] } := by
  have hid : idAfter s.lastId = s.lastId + 1 := Nat.mod_eq_of_lt hword
  have hnew : ¬s.hall.pending.contains (s.lastId + 1) = true := by
    rw [List.contains_iff_mem]
    intro hin
    exact absurd (hs.le_lastId hin) (Nat.not_succ_le_self _)
  have hpool := WorkPool.enqueue_of_open (hs.taking hlistening) (s.lastId + 1)
  exact ⟨_, hpool, accept_eq hlistening hid hnew hpool⟩

theorem change_accept (hword : s.lastId + 1 < UInt64.size) :
    ∃ came ≤ 1, s.Change came [] s.accept := by
  by_cases hlistening : s.listening = true
  · obtain ⟨pool, hpool, haccept⟩ := hs.exists_accept_eq hlistening hword
    obtain ⟨_, hpool', hopen, hstaffed⟩ :=
      hs.staffed.enqueue (hs.taking hlistening) (s.lastId + 1)
    obtain rfl := Except.ok.inj (hpool.symm.trans hpool')
    rw [haccept]
    have hsessions :
        (s.connections ++ [Connection.accepted (s.lastId + 1)]).map Connection.session =
          s.sessions ++ [.of (s.lastId + 1) none .queued] := List.map_append
    refine ⟨1, Nat.le_refl 1, ?_⟩
    refine { lastId := rfl, hub := rfl, staffed := ?_, taking := fun _ => hopen, course := ?_ }
    · show StaffedBy (List.map _ _) pool (s.hall.pending ++ [s.lastId + 1])
      rw [hsessions]
      exact hstaffed
    · show Course s.lastId s.sessions 1 [] (List.map _ _)
      rw [hsessions]
      exact .accepted
  · have hsame : s.accept = s := if_neg hlistening
    rw [hsame]
    exact ⟨0, Nat.zero_le 1, hs.change_refl⟩

theorem change_call : s.Change 0 [] s.call.2 := by
  rw [call_eq]
  exact hs.change_of_alike ⟨rfl, rfl, rfl, rfl, rfl⟩ (List.forall_mem_nil _) rfl

theorem change_announce : s.Change 0 [] s.announce := by
  cases htold : s.announcing with
  | true =>
    rw [announce_eq htold]
    exact hs.change_of_alike ⟨sessions_noticing s, rfl, rfl, rfl, rfl⟩ (List.forall_mem_nil _) rfl
  | false =>
    rw [announce_of_told htold]
    exact hs.change_refl

theorem change_close : s.Change 0 [] s.close := by
  cases hlistening : s.listening with
  | true =>
    rw [close_eq hlistening]
    exact
      { lastId := rfl
        hub := rfl
        staffed := hs.staffed
        taking := nofun
        course := .same (List.forall_mem_nil _) }
  | false =>
    rw [close_of_shut hlistening]
    exact hs.change_refl

theorem change_dismiss : s.Change 0 (s.actCalls .dismiss) s.dismiss := by
  rcases s.dismiss_cases with ⟨hsame, hcalls⟩ | ⟨first, hclosing, -, hdismissed, hcalls⟩
  · rw [hsame, hcalls]
    exact hs.change_refl
  · rw [hdismissed, hcalls]
    exact
      { lastId := rfl
        hub := rfl
        staffed := hs.staffed.shutdown
        taking := nofun
        course := .same (by simp [HubMove.isVisit]) }

/-! ## Moves of one connection -/

theorem change_begin (hc : s.connection? c.id = some c) : s.Change 0 [] (s.begin c) := by
  unfold begin
  split
  · rename_i hstage
    have hσ := (hs.proper_of_connection? hc).of_taken hstage
    have hcard : c.card = ⟨c.id, none, .queued⟩ := congrArg Session.card hσ
    have hbreach : c.breach = none := congrArg Session.breach hσ
    split
    · rw [refuse_eq (by rw [hcard]; rfl)]
      refine hs.change_endSession hc (by rw [hstage]; rfl) rfl ?_
      show c.session.Step [] ⟨{ c.card with phase := .deregistered }, .ended, c.breach⟩
      rw [hσ, hcard, hbreach]
      exact .turnedAway c.id
    · rw [advance_eq (by rw [hcard]; rfl)]
      have hd : ({ c.showing .admitted with stage := .handshake } : Connection).session =
          .of c.id none .handshake := by
        show Session.mk { c.card with phase := .admitted } .handshake c.breach = _
        rw [hcard, hbreach]
        rfl
      refine hs.change_of_step (d := { c.showing .admitted with stage := .handshake }) hc rfl
        ?_ ?_ ?_ s.hub rfl
      · rw [hσ, hd]
        exact .begins c.id
      · rw [hσ, hd]
        rfl
      · rw [hσ, hd]
        rfl
  · exact hs.change_refl

theorem change_handshake (hc : s.connection? c.id = some c) :
    s.Change 0 (s.handshakeCalls c) (s.handshake c) := by
  unfold handshake handshakeCalls
  split
  · rename_i hready
    split
    · exact hs.change_refuse hc hready.1
    · cases Identity.parse (c.inbox.take identitySpace) s.hall.settings.maxUserBytes with
      | ok i =>
        exact hs.change_register (d := { c with inbox := c.inbox.drop identitySpace }) hc hready.1
          rfl i
      | error e => exact hs.change_refuse hc hready.1
  · exact hs.change_refl

theorem change_attends {m : Move} {w : Server} (hc : s.connection? c.id = some c)
    (h : s.Attends c m μs w) : s.Change 0 μs w := by
  cases h with
  | rests => exact hs.change_refl
  | looks _ hd =>
    obtain ⟨framer, inbox, attention, rfl⟩ := hd.eq
    exact hs.change_of_alike (hs.alike_put hc rfl) (List.forall_mem_nil _) rfl
  | leaves hstage => exact hs.change_breakOff hc hstage rfl
  | deals =>
    have halike : s.Alike (s.put { c with attention := .notice }) := hs.alike_put hc rfl
    refine hs.change_of_alike (halike.withHub _) Hub.isVisit_dealings ?_
    exact congrArg Hub.indoors (Hub.dispatch_eq_run ..)

theorem change_failWrite (hc : s.connection? c.id = some c) :
    s.Change 0 (failureCalls c) (s.failWrite c) := by
  have halike : s.Alike (s.put { c with writer := .done, inHand := [], shut := true }) :=
    hs.alike_put hc rfl
  unfold failWrite failureCalls
  cases c.writer with
  | live =>
    have hregistry := Registry.update_update s.hub.registry c.id (fun d => d.signal.2)
      (fun d => d.farEnd .hangUp) Client.signal_id fun _ => rfl
    refine hs.change_of_alike (halike.withHub _) (by simp [HubMove.isVisit]) ?_
    exact congrArg (fun registry => Hub.indoors { s.hub with registry }) hregistry.symm
  | _ => exact hs.change_of_alike halike (List.forall_mem_nil _) rfl

theorem change_writes {m : Move} {w : Server} (hc : s.connection? c.id = some c)
    (h : s.Writes c m μs w) : s.Change 0 μs w := by
  cases h with
  | rests => exact hs.change_refl
  | @takes r =>
    have halike : s.Alike (s.put { c with inHand := r.encode }) := hs.alike_put hc rfl
    exact hs.change_of_alike (halike.withHub _) (by simp [HubMove.isVisit]) rfl
  | drains | closes | writes =>
    exact hs.change_of_alike (hs.alike_put hc rfl) (List.forall_mem_nil _) rfl
  | fails => exact hs.change_failWrite hc

theorem change_finishClosing : s.Change 0 (s.actCalls .finishClosing) s.finishClosing := by
  unfold finishClosing actCalls
  cases hclosing : s.closing with
  | waiting waits =>
    dsimp only
    split
    · have hlistening : s.listening = false := by rw [listening, hclosing]; rfl
      refine hs.change_of_alike ⟨rfl, rfl, rfl, rfl, hlistening.symm⟩ ?_ rfl
      simp [HubMove.isVisit]
    · exact hs.change_refl
  | _ => exact hs.change_refl

/-- What a move does at a connection, if that is there. -/
theorem change_atConnection {id : Nat} {calls : Connection → List HubMove}
    {f : Connection → Server}
    (hf : ∀ c, s.connection? c.id = some c → c.id = id → s.Change 0 (calls c) (f c)) :
    s.Change 0 ((s.connection? id).elim [] calls) (s.atConnection id f) := by
  unfold atConnection
  cases hc : s.connection? id with
  | none => exact hs.change_refl
  | some c =>
    obtain ⟨-, hid⟩ := connection?_some hc
    exact hf c (hid ▸ hc) hid

/-! ## All moves -/

theorem change_act {m : Move} (hm : m ≠ .accept) : s.Change 0 (s.actCalls m) (s.act m) := by
  -- A move at a connection that has nothing to do with the hub.
  have hquiet : ∀ id (f : Connection → Server),
      (∀ c, s.connection? c.id = some c → s.Change 0 [] (f c)) →
        s.Change 0 [] (s.atConnection id f) := by
    intro id f hf
    have hnil : (s.connection? id).elim [] (fun _ => ([] : List HubMove)) = [] := by
      cases s.connection? id <;> rfl
    exact hnil ▸ hs.change_atConnection fun c hc _ => hf c hc
  -- A move that changes nothing that the sessions depend on.
  have haside : ∀ {s' : Server}, s.Alike s' → s'.hub.indoors = s.hub.indoors → s.Change 0 [] s' :=
    fun halike hhub => hs.change_of_alike halike (List.forall_mem_nil _) hhub
  cases m with
  | time t => exact haside ⟨rfl, rfl, rfl, rfl, rfl⟩ rfl
  | accept => exact absurd rfl hm
  | arrive id bytes =>
    refine hquiet id _ fun c hc => haside (hs.alike_put hc ?_) rfl
    unfold Connection.arrive
    split <;> rfl
  | endInput id e =>
    refine hquiet id _ fun c hc => haside (hs.alike_put hc ?_) rfl
    unfold Connection.endInput
    split <;> rfl
  | signal id =>
    show s.Change 0 [.signal id] _
    exact hs.change_of_alike ((Alike.refl s).withHub _) (by simp [HubMove.isVisit]) rfl
  | call => exact hs.change_call
  | announce => exact hs.change_announce
  | close => exact hs.change_close
  | dismiss => exact hs.change_dismiss
  | look i => exact hs.change_look i
  | begin id => exact hquiet id _ fun c hc => hs.change_begin hc
  | handshake id => exact hs.change_atConnection fun c hc _ => hs.change_handshake hc
  | handshakeTimeout id =>
    refine hquiet id _ fun c hc => ?_
    split
    · rename_i hstage
      exact hs.change_refuse hc hstage
    · exact hs.change_refl
  | turn id => exact hs.change_atConnection fun c hc _ => hs.change_attends hc (s.attends_turn c)
  | idle id =>
    exact hs.change_atConnection fun c hc _ => hs.change_attends hc (s.attends_idle c (.idle id))
  | fetch id => exact hs.change_atConnection fun c hc _ => hs.change_writes hc (s.writes_fetch c)
  | write id n =>
    exact hs.change_atConnection fun c hc _ => hs.change_writes hc (s.writes_write c n)
  | writeFailure id =>
    exact hs.change_atConnection fun c hc _ => hs.change_writes hc (s.writes_failure c)
  | conclude id =>
    refine hquiet id _ fun c hc => ?_
    split
    · rename_i hdone
      exact hs.change_conclude hc hdone.1
    · exact hs.change_refl
  | giveUp id =>
    refine hquiet id _ fun c hc => ?_
    split
    · rename_i hstage
      exact hs.change_conclude hc hstage
    · exact hs.change_refl
  | finishClosing => exact hs.change_finishClosing
  | exit => exact haside ⟨rfl, rfl, rfl, rfl, rfl⟩ rfl

theorem change {m : Move} (hm : m ≠ .accept) : s.Change 0 (s.calls m) (s.step m) :=
  step_cases m hs.change_refl (hs.change_act hm)

/-- What a move comes to. Only the counter of connections has a limit. -/
theorem exists_change (m : Move) (hword : s.lastId + [m].count .accept < UInt64.size) :
    ∃ came ≤ [m].count .accept, s.Change came (s.calls m) (s.step m) := by
  by_cases hm : m = .accept
  · subst hm
    exact step_cases (motive := fun μs s' => ∃ came ≤ 1, s.Change came μs s') .accept
      ⟨0, Nat.zero_le 1, hs.change_refl⟩ (hs.change_accept hword)
  · exact ⟨0, Nat.zero_le _, hs.change hm⟩

end Sound

end Server

end ChatHub
