import ChatHub.Proofs.Hub.Attendance
import ChatHub.Proofs.Server.Sessions
import ChatHub.Server.Moves
/-!
# What a server has its hub do

A server reaches into its hub at many places, but whatever it does there is one of the moves of a
hub, or is about workers and the door, which a hub only keeps the numbers of. `Server.calls` lists
the moves of the hub for each move of the server, and `Hub.indoors` is the hub without those
numbers. That the two describe the server is shown where its moves are taken apart.

Most moves are made by one session. `Server.runner?` says by which.
-/

namespace ChatHub

/-! ## The hub without the door -/

namespace Hub

/-- The hub apart from the numbers that workers and accepted connections are counted by. -/
def indoors (h : Hub) : Hub :=
  { h with
    tally := { h.tally with workers := 0 }
    gauges := { h.gauges with busyWorkers := 0, queued := 0, accepted := 0 } }

variable {h h' : Hub}

theorem registry_of_indoors (he : h.indoors = h'.indoors) : h.registry = h'.registry :=
  congrArg (·.registry) he

theorem books_of_indoors (he : h.indoors = h'.indoors) : h.books = h'.books := by
  show h.indoors.books = h'.indoors.books
  rw [he]

end Hub

namespace HubMove

/-- Only who comes and who goes makes a difference to who is in the registry. -/
theorem names_act (h : Hub) (μ : HubMove) :
    (h.act μ).registry.names = (μ.seated h.registry).names := by
  rw [registry_act]
  exact Registry.names_mapClients _ _ _ (μ.effect_user h)

theorem seated_of_not_isVisit {μ : HubMove} (hμ : μ.isVisit = false) (r : Registry) :
    μ.seated r = r := by
  cases μ with
  | join | leave => cases hμ
  | _ => rfl

theorem orderly_of_not_isVisit {μ : HubMove} (hμ : μ.isVisit = false) (h : Hub) : μ.Orderly h := by
  cases μ with
  | join => cases hμ
  | _ => trivial

end HubMove

namespace Hub

theorem names_run {μs : List HubMove} (hμs : ∀ μ ∈ μs, μ.isVisit = false) (h : Hub) :
    (h.run μs).registry.names = h.registry.names := by
  induction μs generalizing h with
  | nil => rfl
  | cons μ μs ih =>
    have hμ := hμs μ List.mem_cons_self
    have hrest : ∀ ν ∈ μs, ν.isVisit = false := fun ν hν => hμs ν (List.mem_cons_of_mem _ hν)
    refine (ih hrest (h.act μ)).trans ?_
    rw [HubMove.names_act, HubMove.seated_of_not_isVisit hμ]

theorem orderly_of_not_isVisit {μs : List HubMove} (hμs : ∀ μ ∈ μs, μ.isVisit = false) (h : Hub) :
    h.Orderly μs := by
  induction μs generalizing h with
  | nil => trivial
  | cons μ μs ih =>
    have hμ := hμs μ List.mem_cons_self
    have hrest : ∀ ν ∈ μs, ν.isVisit = false := fun ν hν => hμs ν (List.mem_cons_of_mem _ hν)
    exact ⟨HubMove.orderly_of_not_isVisit hμ h, ih hrest (h.act μ)⟩

theorem isVisit_dealings {t : Clock} {limit id : Nat} {user : String} {m : Record} :
    ∀ μ ∈ dealings t limit id user m, μ.isVisit = false := by
  unfold dealings
  cases m.kind <;> simp [HubMove.isVisit]

end Hub

/-! ## The moves of the hub -/

/-- Whether the writer has only to write what is left. -/
def Writer.isDraining : Writer → Bool
  | draining _ => true
  | _ => false

namespace Server

variable {s : Server}

/-- A session that has found its identity joins. -/
def handshakeCalls (s : Server) (c : Connection) : List HubMove :=
  if c.stage = .handshake ∧ c.isReadable then
    if c.inbox.isEmpty then []
    else
      match Identity.parse (c.inbox.take identitySpace) s.hall.settings.maxUserBytes with
      | .ok i => [.join s.clock s.clock.ms c.id i.user none s.hall.settings.mailboxSize]
      | .error _ => []
  else []

/-- A session that takes a turn leaves, or deals with the record that it has, or nothing of this. -/
def turnCalls (s : Server) (c : Connection) : List HubMove :=
  match c.stage, c.attention with
  | .serving user, .notice => if c.notice then [.leave s.clock c.id user] else []
  | .serving user, .signal => if s.isSignalled c.id then [.leave s.clock c.id user] else []
  | .serving user, .input =>
    match c.next with
    | .ended => [.leave s.clock c.id user]
    | _ => []
  | .serving user, .record r =>
    Hub.dealings s.clock s.hall.settings.maxPayloadBytes c.id user r
  | _, _ => []

/-- A session that has waited for a record leaves if the server is closing. -/
def idleCalls (s : Server) (c : Connection) : List HubMove :=
  match c.stage, c.attention with
  | .serving user, .input =>
    match c.next with
    | .nothing => if s.hall.closing then [.leave s.clock c.id user] else []
    | _ => []
  | _, _ => []

/-- A writer takes a record from the mailbox, as long as that is in the hub. -/
def fetchCalls (s : Server) (c : Connection) : List HubMove :=
  if c.inHand.isEmpty then
    match s.nextToWrite? c, c.writer with
    | some _, .live => [.far c.id (.read 1)]
    | _, _ => []
  else []

/-- A writer that cannot write tells its session and reads no more. -/
def failureCalls (c : Connection) : List HubMove :=
  match c.writer with
  | .live => [.signal c.id, .far c.id .hangUp]
  | _ => []

def writeCalls (c : Connection) : List HubMove :=
  if c.inHand.isEmpty then [] else if c.isBroken then failureCalls c else []

/-- The moves of the hub that a move comes to in a server that is there. -/
def actCalls (s : Server) : Move → List HubMove
  | .signal id => [.signal id]
  | .dismiss =>
    match s.closing with
    | .called first => if first && s.announcing then [] else [.retireAll]
    | _ => []
  | .handshake id => (s.connection? id).elim [] s.handshakeCalls
  | .turn id => (s.connection? id).elim [] s.turnCalls
  | .idle id => (s.connection? id).elim [] s.idleCalls
  | .fetch id => (s.connection? id).elim [] s.fetchCalls
  | .write id _ => (s.connection? id).elim [] writeCalls
  | .writeFailure id =>
    (s.connection? id).elim [] fun c => if c.inHand.isEmpty then [] else failureCalls c
  | .finishClosing =>
    match s.closing with
    | .waiting waits => if !waits || s.pool.isDeserted then [.refreshTally] else []
    | _ => []
  | _ => []

/-- The moves of the hub that a move of the server comes to. -/
def calls (s : Server) (m : Move) : List HubMove := if s.gone then [] else s.actCalls m

theorem calls_of_here (h : s.gone = false) (m : Move) : s.calls m = s.actCalls m :=
  if_neg (h ▸ Bool.false_ne_true)

theorem calls_of_gone (h : s.gone = true) (m : Move) : s.calls m = [] := if_pos h

theorem calls_accept (s : Server) : s.calls .accept = [] := ite_self []

theorem step_of_here (h : s.gone = false) (m : Move) : s.step m = s.act m :=
  if_neg (h ▸ Bool.false_ne_true)

theorem step_of_gone (h : s.gone = true) (m : Move) : s.step m = s := if_pos h

/-- A move is made, unless the process has ended. -/
theorem step_cases {motive : List HubMove → Server → Prop} (m : Move) (hgone : motive [] s)
    (hhere : motive (s.actCalls m) (s.act m)) : motive (s.calls m) (s.step m) := by
  cases h : s.gone with
  | true => rwa [calls_of_gone h, step_of_gone h]
  | false => rwa [calls_of_here h, step_of_here h]

/-! ## Sessions in the hub -/

/-- What a record is read from a connection for changes nothing but what was read. -/
theorem reader_of_next {c d : Connection} {r : Except Fault Record} (h : c.next = .record r d) :
    ∃ framer inbox, d = { c with framer, inbox } := by
  unfold Connection.next at h
  split at h
  · cases h
    exact ⟨_, _, rfl⟩
  · dsimp only at h
    split at h
    · cases h
      exact ⟨_, _, rfl⟩
    · split at h <;> cases h

/-- How a session in the hub gets past one look, and what it looks at then. -/
inductive Looks (s : Server) (c : Connection) : Connection → Prop where
  | pastNotice (hattention : c.attention = .notice) (hnotice : c.notice = false) :
      Looks s c { c with attention := .signal }
  | pastSignal (hattention : c.attention = .signal) (hsignal : s.isSignalled c.id = false) :
      Looks s c { c with attention := .input }
  | finds {framer : Framer} {inbox : List UInt8} {r : Record} (hattention : c.attention = .input) :
      Looks s c { c with framer, inbox, attention := .record r }
  /-- There was no record, and it begins again. -/
  | again {framer : Framer} {inbox : List UInt8} (hattention : c.attention = .input) :
      Looks s c { c with framer, inbox, attention := .notice }

/-- A look changes nothing but what was read and what comes next. -/
theorem Looks.eq {c d : Connection} (h : s.Looks c d) :
    ∃ framer inbox attention, d = { c with framer, inbox, attention } := by
  cases h <;> exact ⟨_, _, _, rfl⟩

/-- What it comes to when a session that is in the hub gets on, and what it has the hub do. -/
inductive Attends (s : Server) (c : Connection) (m : Move) : List HubMove → Server → Prop where
  /-- It is not in the hub, or has no time to wait. -/
  | rests : Attends s c m [] s
  | looks {user : String} {d : Connection} (hstage : c.stage = .serving user)
      (hd : s.Looks c d) : Attends s c m [] (s.put d)
  | leaves {user : String} (hstage : c.stage = .serving user) (notice : Bool) :
      Attends s c m [.leave s.clock c.id user] (s.breakOff { c with notice } user)
  | deals {user : String} {r : Record} (hm : m = .turn c.id) (hstage : c.stage = .serving user)
      (hattention : c.attention = .record r) :
      Attends s c m (Hub.dealings s.clock s.hall.settings.maxPayloadBytes c.id user r)
        ((s.put { c with attention := .notice }).withHub
          (s.hub.dispatch s.clock s.hall.settings.maxPayloadBytes c.id user r))

theorem attends_turn (s : Server) (c : Connection) :
    s.Attends c (.turn c.id) (s.turnCalls c) (s.turn c) := by
  -- The stage and what comes next are also in what becomes of the connection, so it is taken apart.
  obtain ⟨card, stage, inbox, inboxEnd, framer, attention, subscribed, notice, writer, inHand,
    outbox, shut, breach⟩ := c
  unfold turn turnCalls
  cases stage with
  | serving user =>
    cases attention with
    | notice =>
      cases notice with
      | true => exact .leaves rfl false
      | false => exact .looks rfl (.pastNotice rfl rfl)
    | signal =>
      dsimp only
      split
      · exact .leaves rfl notice
      · rename_i hsignal
        exact .looks rfl (.pastSignal rfl (Bool.eq_false_iff.2 hsignal))
    | input =>
      generalize hnext : Connection.next _ = found
      cases found with
      | record r d =>
        obtain ⟨framer, inbox, rfl⟩ := reader_of_next hnext
        cases r with
        | ok r => exact .looks rfl (.finds rfl)
        | error e => exact .looks rfl (.again rfl)
      | ended => exact .leaves rfl notice
      | nothing => exact .looks rfl (@Looks.again _ _ framer inbox rfl)
    | record r => exact .deals rfl rfl rfl
  | _ => exact .rests

theorem attends_idle (s : Server) (c : Connection) (m : Move) :
    s.Attends c m (s.idleCalls c) (s.idle c) := by
  obtain ⟨card, stage, inbox, inboxEnd, framer, attention, subscribed, notice, writer, inHand,
    outbox, shut, breach⟩ := c
  unfold idle idleCalls
  cases stage with
  | serving user =>
    cases attention with
    | input =>
      generalize Connection.next _ = found
      cases found with
      | nothing =>
        dsimp only
        split
        · exact .leaves rfl notice
        · exact .looks rfl (@Looks.again _ _ framer inbox rfl)
      | _ => exact .rests
    | _ => exact .rests
  | _ => exact .rests

/-! ## Writers -/

theorem put_put (s : Server) {a b : Connection} (h : a.id = b.id) :
    (s.put a).put b = s.put b := by
  have hmap : ((s.put a).put b).connections = (s.put b).connections := by
    show (s.connections.map _).map _ = s.connections.map _
    rw [List.map_map]
    refine List.map_congr_left fun e _ => ?_
    show (if (if e.id = a.id then a else e).id = b.id then b else if e.id = a.id then a else e) =
      if e.id = b.id then b else e
    by_cases he : e.id = a.id
    · rw [if_pos he, if_pos h, if_pos (he.trans h)]
    · rw [if_neg he]
  exact congrArg (fun cs => { s with connections := cs }) hmap

/-- What it comes to when a writer gets on, and what it has the hub do. -/
inductive Writes (s : Server) (c : Connection) (m : Move) : List HubMove → Server → Prop where
  /-- There is nothing for it to do. -/
  | rests (hfetch : m = .fetch c.id → c.inHand ≠ [] ∨ c.writer.isDraining = false)
      (hwrite : ∀ n, m = .write c.id n → c.inHand = []) : Writes s c m [] s
  /-- It takes a record from the mailbox in the hub. -/
  | takes {r : Record} (hempty : c.inHand = []) (hwriter : c.writer = .live)
      (hnext : s.nextToWrite? c = some r) :
      Writes s c m [.far c.id (.read 1)]
        ((s.put { c with inHand := r.encode }).withHub (s.hub.act (.far c.id (.read 1))))
  /-- It takes a record from what is left. -/
  | drains {r : Record} {mailbox : Mailbox} (hempty : c.inHand = [])
      (hwriter : c.writer = .draining mailbox) (hnext : mailbox.queue.head? = some r) :
      Writes s c m [] (s.put { c with inHand := r.encode, writer := .draining (mailbox.take 1).2 })
  | closes {mailbox : Mailbox} (hempty : c.inHand = []) (hwriter : c.writer = .draining mailbox)
      (hnothing : mailbox.queue = []) :
      Writes s c m [] (s.put { c with writer := .done, shut := true })
  | writes {n : Nat} (hm : m = .write c.id n) (hsome : c.inHand ≠ []) :
      Writes s c m []
        (s.put { c with outbox := c.outbox ++ c.inHand.take n, inHand := c.inHand.drop n })
  | fails (hm : (∃ n, m = .write c.id n ∧ c.isBroken = true) ∨ m = .writeFailure c.id)
      (hsome : c.inHand ≠ []) : Writes s c m (failureCalls c) (s.failWrite c)

theorem writes_fetch (s : Server) (c : Connection) :
    s.Writes c (.fetch c.id) (s.fetchCalls c) (s.fetch c) := by
  obtain ⟨card, stage, inbox, inboxEnd, framer, attention, subscribed, notice, writer, inHand,
    outbox, shut, breach⟩ := c
  unfold fetch fetchCalls
  cases inHand with
  | cons b bytes => exact .rests (fun _ => .inl nofun) nofun
  | nil =>
    cases writer with
    | live =>
      generalize hnext : s.nextToWrite? _ = next
      cases next with
      | none => exact .rests (fun _ => .inr rfl) nofun
      | some r => exact .takes rfl rfl hnext
    | draining mailbox =>
      generalize hnext : s.nextToWrite? _ = next
      cases next with
      | none => exact .closes rfl rfl (List.head?_eq_none_iff.1 hnext)
      | some r =>
        refine (congrArg (Writes s _ _ _) (put_put s ?_)).mpr (.drains rfl rfl hnext)
        rfl
    | _ => exact .rests (fun _ => .inr rfl) nofun

theorem writes_write (s : Server) (c : Connection) (n : Nat) :
    s.Writes c (.write c.id n) (writeCalls c) (s.write c n) := by
  unfold write writeCalls
  split
  · rename_i hempty
    exact .rests nofun fun _ _ => List.isEmpty_iff.1 hempty
  · rename_i hsome
    have hsome : c.inHand ≠ [] := fun h => hsome (List.isEmpty_iff.2 h)
    split
    · exact .fails (.inl ⟨n, rfl, ‹_›⟩) hsome
    · exact .writes rfl hsome

theorem writes_failure (s : Server) (c : Connection) :
    s.Writes c (.writeFailure c.id) (if c.inHand.isEmpty then [] else failureCalls c)
      (if c.inHand.isEmpty then s else s.failWrite c) := by
  split
  · exact .rests nofun nofun
  · rename_i hsome
    exact .fails (.inr rfl) fun h => hsome (List.isEmpty_iff.2 h)

/-! ## Runs -/

/-- All moves of the hub in a run. -/
def trace (s : Server) : List Move → List HubMove
  | [] => []
  | m :: ms => s.calls m ++ (s.step m).trace ms

/-- The session, or its writer, that gets on in a move. -/
def runner? (s : Server) : Move → Option Nat
  | .look i => if s.pool.workers[i]? = some .awake then s.pool.queue.head? else none
  | .begin id | .handshake id | .handshakeTimeout id | .turn id | .idle id | .fetch id | .write id _
  | .writeFailure id | .conclude id | .giveUp id => some id
  | _ => none

/-- The registry and the rotation have a session exactly while its phase says so. -/
def Tracks (s : Server) (c : Connection) : Prop :=
  s.hub.registry.contains c.id = c.card.phase.isRegistered ∧
    s.hub.roster.contains c.id = c.card.phase.isRegistered

/-- The server on its way through a move, while a session is in a phase that it does not stop at. It
has joined and is about to be active, or it is about to leave. -/
inductive Passes (s : Server) (m : Move) : Server → Prop where
  | registered {t : Clock} {now capacity : Nat} {user : String} {addr : Option String}
      {c d : Connection} (hc : c ∈ s.connections)
      (hm : s.calls m = [.join t now c.id user addr capacity])
      (hd : d.card = { c.card with user := some user, phase := .registered }) :
      s.Passes m ((s.withHub (s.hub.run (s.calls m))).put d)
  | disconnecting {t : Clock} {user : String} {c d : Connection} (hc : c ∈ s.connections)
      (hm : s.calls m = [.leave t c.id user])
      (hd : d.card = { c.card with phase := .disconnecting }) :
      s.Passes m (s.put d)

theorem trace_append (s : Server) (before after : List Move) :
    s.trace (before ++ after) = s.trace before ++ (s.run before).trace after := by
  induction before generalizing s with
  | nil => rfl
  | cons m ms ih =>
    show s.calls m ++ (s.step m).trace (ms ++ after) =
      s.calls m ++ (s.step m).trace ms ++ ((s.step m).run ms).trace after
    rw [ih, List.append_assoc]

end Server

end ChatHub
