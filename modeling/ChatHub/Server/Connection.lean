import ChatHub.Hall
import ChatHub.Identity.Basic
import ChatHub.Phase
import ChatHub.Record.Framing
/-!
# One accepted connection

A connection is a socket, the session that serves it, and the writer that carries records from the
client's mailbox to the socket.

The session does one thing after another, and at any moment it is about to do one thing: wait for a
worker, look whether the server is closing, wait for an identity, attend to the hub, or wait for its
writer. That is its `Stage`. The phase on its card says how far it has come; the two move together,
but the card is what the rules of the lifecycle are about.

In the hub a session goes round three questions, one after the other, and `Attention` is the next of
them: has the notice come that the server closes, has its own signal come, has the peer sent
something. What happens elsewhere between two of them is not seen before the next round.

The writer lives beside the session. It reads the mailbox in the registry as long as the client is
registered. When the client's record goes, the mailbox goes to the writer, which writes what is left
and then closes the socket. It takes a record out of the mailbox first, and then writes its bytes,
all at once or a few at a time.
-/

namespace ChatHub

/-- How a peer's bytes end. -/
inductive StreamEnd where
  /-- The peer has said that no more will come. -/
  | closed
  /-- The connection broke. -/
  | broken
deriving Repr, DecidableEq

/-- What a session waits for. -/
inductive Stage where
  /-- A worker. -/
  | queued
  /-- Nothing; a worker has taken it, and it looks next whether the server is closing. -/
  | taken
  /-- The peer's identity. -/
  | handshake
  /-- A record, a signal, the notice that the server closes, or the end of input. -/
  | serving (user : String)
  /-- The writer. -/
  | closing
  /-- Nothing; the session is over. -/
  | ended
deriving Repr, DecidableEq

namespace Stage

/-- Whether a worker is busy with a session at this stage. -/
def isServed : Stage → Bool
  | taken | handshake | serving _ | closing => true
  | _ => false

end Stage

/-- What a registered session attends to next. -/
inductive Attention where
  /-- Whether the notice has come that the server closes. -/
  | notice
  /-- Whether its own signal has come. -/
  | signal
  /-- What the peer has sent. -/
  | input
  /-- A record that the peer has sent. -/
  | record (r : Record)
deriving Repr, DecidableEq

/-- The writer of a connection. -/
inductive Writer where
  /-- There is none before the client is registered. -/
  | idle
  /-- It reads the mailbox in the registry. -/
  | live
  /-- The client's record has gone, and this is what it left. -/
  | draining (mailbox : Mailbox)
  | done
deriving Repr, DecidableEq

/-- One accepted connection. -/
structure Connection where
  card : SessionCard
  stage : Stage
  /-- The bytes that have arrived and were not read. -/
  inbox : List UInt8
  /-- What comes after them. -/
  inboxEnd : Option StreamEnd
  framer : Framer
  attention : Attention
  /-- Whether the session listens for the notice that the server closes. -/
  subscribed : Bool
  /-- Whether that notice has come and was not read. -/
  notice : Bool
  writer : Writer
  /-- What is still to be written of the record that the writer has taken. -/
  inHand : List UInt8
  /-- Everything that was written to the socket. -/
  outbox : List UInt8
  /-- Whether the server has closed its side of the socket. -/
  shut : Bool
  /-- Why the session broke off, if it broke a rule of its own. -/
  breach : Option Fault
deriving Repr, DecidableEq

namespace Connection

/-- A connection that has just been accepted. -/
def accepted (id : Nat) : Connection :=
  { card := .queued id, stage := .queued, inbox := [], inboxEnd := none, framer := .empty,
    attention := .notice, subscribed := false, notice := false, writer := .idle, inHand := [],
    outbox := [], shut := false, breach := none }

/-- The id of the connection. -/
def id (c : Connection) : Nat := c.card.id

/-- Bytes arrive. After the end of input none do. -/
def arrive (c : Connection) (bytes : List UInt8) : Connection :=
  if c.inboxEnd.isSome then c else { c with inbox := c.inbox ++ bytes }

/-- The peer's bytes end here. A connection that was closed can still break. -/
def endInput (c : Connection) (e : StreamEnd) : Connection :=
  match c.inboxEnd, e with
  | some .broken, _ => c
  | _, e => { c with inboxEnd := some e }

/-- Whether a read would bring something. -/
def isReadable (c : Connection) : Bool := !c.inbox.isEmpty || c.inboxEnd.isSome

/-- Whether a write fails. -/
def isBroken (c : Connection) : Bool := c.inboxEnd == some .broken

end Connection

/-- What the reader of a session finds. -/
inductive Found where
  /-- The next record, or bytes that are none. -/
  | record (r : Except Fault Record) (after : Connection)
  /-- The end of input, clean or not. -/
  | ended
  /-- Nothing yet. -/
  | nothing

namespace Connection

/-- Looks for the next record: first among the bytes that were read, then among those that have
arrived; the end of input counts only when both are used up. -/
def next (c : Connection) : Found :=
  match c.framer.next? with
  | some (r, framer) => .record r { c with framer }
  | none =>
    let c := { c with framer := c.framer.push c.inbox, inbox := [] }
    match c.framer.next? with
    | some (r, framer) => .record r { c with framer }
    | none => if c.inboxEnd.isSome then .ended else .nothing

end Connection

end ChatHub
