import ChatHub.Server.Basic
/-!
# The life of a session

* A worker takes it from the queue. From then on it listens for the notice that the server closes,
  and only then does it look whether the server is closing already. If so, that is all.
* It reads an identity, once. If there is none, that is all.
* It joins the hub, and from then on goes round: it looks at the notice that the server closes, then
  at its own signal, then at what the peer has sent, and if that is a record it deals with it. Each
  of these is a turn, and between two turns anything can happen elsewhere. So a session that is told
  to stop may have looked past that already, and still deal with one record, but with no more.
* It leaves the hub, and waits for its writer; not for ever.

Records are dealt with as in a build for use (`Hub.dispatch`), which never stops at one.

Each function here takes a session from one thing it waits for to the next. The card of the session
moves on with it, and a step that the card does not allow breaks the session off. The rules here
never come to that, but the case is dealt with all the same.
-/

namespace ChatHub.Server

/-! ## The end of a session -/

/-- The session is over and its worker is free. -/
def endSession (s : Server) (c : Connection) : Server :=
  let s := s.put { c with stage := .ended, subscribed := false, notice := false }
  match s.workerOf? c.id with
  | none => s
  | some i =>
    let hub := s.hub
    { s.withHub { hub with
        tally := hub.tally.workerFree
        gauges := { hub.gauges with busyWorkers := hub.gauges.busyWorkers - 1 } } with
      pool := s.pool.finish i }

/-- The session leaves the hub, and its writer keeps what was waiting. -/
def depart (s : Server) (c : Connection) (user : String) : Connection × Server :=
  let (gone, h) := s.hub.leave s.clock c.id user
  let writer : Writer :=
    match c.writer, gone with
    | .live, some client => .draining client.link.mailbox
    | .live, none => .draining { capacity := 0, queue := [], isOpen := true }
    | w, _ => w
  ({ c with writer }, s.withHub h)

/-- Moves the card on. A step that is not allowed breaks the session off; if it had joined the hub,
it leaves. -/
def advance (s : Server) (c : Connection) (next : Phase)
    (onward : Server → Connection → Server) : Server :=
  match c.card.advance next with
  | .ok card => onward s { c with card }
  | .error e =>
    let c := { c with breach := some (.internal e.message) }
    match c.stage with
    | .serving user =>
      let (c, s) := s.depart c user
      s.endSession c
    | _ => s.endSession { c with shut := true }

/-- The session stops dealing with its peer: it leaves the hub and waits for its writer. -/
def breakOff (s : Server) (c : Connection) (user : String) : Server :=
  s.advance c .disconnecting fun s c =>
    let (c, s) := s.depart c user
    s.advance c .deregistered fun s c => s.put { c with stage := .closing }

/-- The session is closed before it has registered. -/
def refuse (s : Server) (c : Connection) : Server :=
  s.advance c .deregistered fun s c => s.endSession { c with shut := true }

/-! ## From the queue to the hub -/

/-- A session that a worker has just taken is no longer pending, and listens. -/
def start (s : Server) (c : Connection) : Server :=
  let hub := s.hub
  let s := s.withHub { hub with
    tally := hub.tally.workerBusy
    gauges := { hub.gauges with busyWorkers := hub.gauges.busyWorkers + 1 } }
  let s := { s with hall := (s.hall.unawait c.id).2 }
  s.put { c with stage := .taken, subscribed := true }

/-- A session that listens looks whether the server is closing, and begins if not. -/
def begin (s : Server) (c : Connection) : Server :=
  if c.stage = .taken then
    if s.hall.closing then s.refuse c
    else s.advance c .admitted fun s c => s.put { c with stage := .handshake }
  else s

/-- A session that knows its peer joins the hub. -/
def register (s : Server) (c : Connection) (i : Identity) : Server :=
  let client := Client.arriving s.clock.ms c.id i.user none s.hall.settings.mailboxSize
  let s := s.withHub (s.hub.join s.clock client)
  let c :=
    { c with
      card := { c.card with user := some i.user }
      stage := .serving i.user
      framer := ⟨i.leftover⟩
      writer := .live }
  s.advance c .registered fun s c => s.advance c .active fun s c => s.put c

/-- The most bytes that the read of an identity takes. -/
def identitySpace : Nat := 4095

/-- A session in its handshake reads what has arrived. -/
def handshake (s : Server) (c : Connection) : Server :=
  if c.stage = .handshake ∧ c.isReadable then
    if c.inbox.isEmpty then s.refuse c
    else
      match Identity.parse (c.inbox.take identitySpace) s.hall.settings.maxUserBytes with
      | .ok i => s.register { c with inbox := c.inbox.drop identitySpace } i
      | .error _ => s.refuse c
  else s

/-! ## In the hub -/

/-- Whether a session's own signal has come. -/
def isSignalled (s : Server) (id : Nat) : Bool :=
  ((s.hub.registry.find? id).map (·.link.kill.fired)).getD false

/-- A registered session takes a turn: it attends to what is next. -/
def turn (s : Server) (c : Connection) : Server :=
  match c.stage with
  | .serving user =>
    match c.attention with
    | .notice =>
      if c.notice then s.breakOff { c with notice := false } user
      else s.put { c with attention := .signal }
    | .signal =>
      if s.isSignalled c.id then s.breakOff c user else s.put { c with attention := .input }
    | .input =>
      match c.next with
      | .record (.ok r) c => s.put { c with attention := .record r }
      | .record (.error _) c => s.put { c with attention := .notice }
      | .ended => s.breakOff c user
      | .nothing => s.put { c with attention := .notice }
    | .record r =>
      (s.put { c with attention := .notice }).withHub
        (s.hub.dispatch s.clock s.hall.settings.maxPayloadBytes c.id user r)
  | _ => s

/-- Nothing has come for a registered session for so long that it looks whether the server
closes. -/
def idle (s : Server) (c : Connection) : Server :=
  match c.stage, c.attention with
  | .serving user, .input =>
    match c.next with
    | .nothing =>
      if s.hall.closing then s.breakOff c user else s.put { c with attention := .notice }
    | _ => s
  | _, _ => s

end ChatHub.Server
