import ChatHub.Identity.Basic
/-!
# Waiting for an identity

A peer's side of a connection is a script: bytes that arrive, pauses, an error, the end of input.
`Peer.receive` runs one receive against the script in virtual time, so that a deadline is a number
and not a race, and `Peer.readIdentity` turns what it got into an identity or the reason why not.

One receive is all a peer gets. Bytes of one event come in one receive as far as the space offered
goes, and a pause that is cut off by the deadline goes on where it was.
-/

namespace ChatHub

/-- What a peer does next. -/
inductive PeerEvent where
  /-- Bytes arrive; no bytes at all are an end of input. -/
  | data (bytes : List UInt8)
  /-- Nothing happens for so many milliseconds. -/
  | delay (ms : Nat)
  /-- The transport fails. -/
  | failure (text : String)
  /-- The peer has closed its side. -/
  | eof
deriving Repr, DecidableEq

/-- A peer and the time. -/
structure Peer where
  /-- Milliseconds since the start. -/
  now : Nat
  /-- When the pause at the head of the script is over, if a receive has begun to wait for it. -/
  due : Option Nat
  script : List PeerEvent
deriving Repr, DecidableEq

/-- What one receive brings. -/
inductive Received where
  | bytes (got : List UInt8)
  | failed (text : String)
  | timedOut
deriving Repr, DecidableEq

namespace Peer

/-- A peer at the start of its script. -/
def ofScript (script : List PeerEvent) : Peer := { now := 0, due := none, script }

/-- The most bytes one receive of an identity takes. -/
def receiveSpace : Nat := 4095

/-- Runs the script until something arrives or the deadline passes. A pause that ends exactly at
the deadline ends in time. -/
def receiveBy (deadline now : Nat) (due : Option Nat) : List PeerEvent → Received × Peer
  | [] => (.timedOut, { now := deadline, due := none, script := [] })
  | .delay ms :: rest =>
    let after := due.getD (now + ms)
    if after ≤ deadline then receiveBy deadline (max now after) none rest
    else (.timedOut, { now := deadline, due := some after, script := .delay ms :: rest })
  | .data bytes :: rest =>
    let script := if bytes.length ≤ receiveSpace then rest
      else .data (bytes.drop receiveSpace) :: rest
    (.bytes (bytes.take receiveSpace), { now, due := none, script })
  | .failure text :: rest => (.failed text, { now, due := none, script := rest })
  | .eof :: rest => (.bytes [], { now, due := none, script := rest })

/-- One receive that gives up after `timeout` milliseconds. -/
def receive (p : Peer) (timeout : Nat) : Received × Peer :=
  receiveBy (p.now + timeout) p.now p.due p.script

/-- Reads an identity from one receive. -/
def readIdentity (p : Peer) (max timeout : Nat) : Except Fault Identity × Peer :=
  match p.receive timeout with
  | (.bytes [], p) => (.error .closed, p)
  | (.bytes got, p) => (Identity.parse got max, p)
  | (.failed text, p) => (.error (.transport text), p)
  | (.timedOut, p) => (.error .handshakeTimeout, p)

end Peer

end ChatHub
