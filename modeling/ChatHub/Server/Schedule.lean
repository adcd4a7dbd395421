import ChatHub.Server.Moves
/-!
# Who goes next

A run of the server is any list of moves. A server that actually runs needs one, so this module
picks it: the first part that can get on does, in a fixed order, and a caller who says nothing is
given up only when nobody else can do anything.

Two things depend on the surroundings. A socket may still be busy with the last record, and then its
writer has to wait; and somebody who measures the time gives up on silent callers by the clock.
-/

namespace ChatHub.Server

/-- Whether a registered session has something to deal with. -/
def canTurn (s : Server) (c : Connection) : Bool :=
  match c.stage, c.attention with
  | .serving _, .record _ => true
  | .serving _, _ =>
    c.notice || s.isSignalled c.id || (match c.next with | .nothing => false | _ => true)
  | _, _ => false

/-- Whether a writer has a record to take or a socket to close. -/
def canFetch (s : Server) (c : Connection) : Bool :=
  c.inHand.isEmpty &&
    ((s.nextToWrite? c).isSome || (match c.writer with | .draining _ => true | _ => false))

/-- Whether whoever closes the server can get on with it. -/
def canDismiss (s : Server) : Bool :=
  match s.closing with
  | .called first => !(first && s.announcing)
  | _ => false

/-- Whether whoever closes the server would find that it is over. -/
def canFinishClosing (s : Server) : Bool :=
  match s.closing with
  | .waiting waits => !waits || s.pool.isDeserted
  | _ => false

/-- A move that the server's own parts could make, if there is one. Only writers of the connections
that `mayWrite` allows write, a whole record at a time, and only the `impatient` give up on silent
callers. -/
def ready? (s : Server) (mayWrite : Nat → Bool) (impatient : Bool) : Option Move :=
  let find (p : Connection → Bool) (m : Nat → Move) : Option Move :=
    (s.connections.find? p).map fun c => m c.id
  let only (b : Bool) (m : Move) : Option Move := if b then some m else none
  only s.announcing .announce
    <|> only s.canDismiss .dismiss
    <|> (s.pool.workers.findIdx? (·.isAwake)).map .look
    <|> find (fun c => c.stage == .taken) .begin
    <|> find (fun c => c.stage == .handshake && c.isReadable) .handshake
    <|> find s.canTurn .turn
    <|> find (fun c => mayWrite c.id && !c.inHand.isEmpty) (.write · Record.size)
    <|> find (fun c => mayWrite c.id && s.canFetch c) .fetch
    <|> find (fun c => c.stage == .closing && c.writer == .done) .conclude
    <|> only s.canFinishClosing .finishClosing
    <|> find (fun c => impatient && c.stage == .handshake) .handshakeTimeout

/-- Goes on for at most so many moves. -/
def goOn : (fuel : Nat) → Server → Server
  | 0, s => s
  | fuel + 1, s =>
    match s.ready? (fun _ => true) true with
    | none => s
    | some m => (s.step m).goOn fuel

/-- More moves than the server's parts can make: every record that has arrived, every arrival and
every departure can put a record into every mailbox. Each takes four turns to deal with and two
moves to write. -/
def patience (s : Server) : Nat :=
  let bytes :=
    s.connections.foldl (fun n c => n + c.inbox.length + c.framer.buffer.length) 0
  let waiting := s.hub.registry.clients.foldl (fun n c => n + c.link.mailbox.queue.length) 0
  let people := s.connections.length + s.pool.size + 2
  16 * people * people + 8 * people * (bytes / Record.size + 1) + 8 * waiting

/-- Goes on until nothing can happen. -/
def settle (s : Server) : Server := s.goOn s.patience

end ChatHub.Server
