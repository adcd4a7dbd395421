import ChatHub.Server.Session
import ChatHub.Server.Writing
/-!
# What can happen to a server

What happens to a server is a sequence of `Move`s. Some come from outside: a connection is accepted,
bytes arrive, somebody asks it to close, the process ends. The others are made by its own parts: a
worker looks for a session, a session gets on with what is next, a writer writes.

A part does one thing in one move, and between moves any other part may get its turn. A move that is
not possible changes nothing, so a run of the server is any list of moves at all. Once the process
has ended, no move is possible.
-/

namespace ChatHub

namespace Server

/-! ## Coming and closing -/

/-- A connection is accepted and waits for a worker. -/
def accept (s : Server) : Server :=
  if s.listening then
    let id := idAfter s.lastId
    let hub := s.hub
    let s := s.withHub { hub with
      gauges := { hub.gauges with accepted := hub.gauges.accepted + 1 } }
    let s := { s with lastId := id, hall := s.hall.await id }
    match s.pool.enqueue id with
    | .ok pool =>
      let hub := s.hub
      { s.withHub { hub with gauges := { hub.gauges with queued := pool.queue.length } } with
        pool, connections := s.connections ++ [.accepted id] }
    | .error _ => { s with hall := (s.hall.unawait id).2 }
  else s

/-- A worker looks for a session, and takes it if there is one. -/
def look (s : Server) (i : Nat) : Server :=
  match s.pool.workers[i]? with
  | some .awake =>
    let pool := s.pool.look i
    let hub := s.hub
    let s := { s.withHub { hub with
      gauges := { hub.gauges with queued := pool.queue.length } } with pool }
    match (pool.taskOf? i).bind s.connection? with
    | some c => s.start c
    | none => s
  | _ => s

/-- Somebody calls for the end, and is told whether it begins now. If so, the sessions have to be
told. -/
def call (s : Server) : Bool × Server :=
  let (began, hall) := s.hall.beginShutdown
  (began, { s with hall, announcing := s.announcing || began })

/-- Every session that listens gets the notice, if that is still to be done. -/
def announce (s : Server) : Server :=
  if s.announcing then
    { s with
      announcing := false
      connections := s.connections.map fun c => { c with notice := c.notice || c.subscribed } }
  else s

/-- The server is asked to close: it accepts nobody any more, and the end is called for. -/
def close (s : Server) : Server :=
  if s.listening then
    let (first, s) := s.call
    { s with closing := .called first }
  else s

/-- Whoever closes the server signals everybody in the hub and lets the workers finish, once it has
told the sessions if that is up to it. -/
def dismiss (s : Server) : Server :=
  match s.closing with
  | .called first =>
    if first && s.announcing then s
    else
      let hub := s.hub
      let s := s.withHub { hub with registry := hub.registry.retireAll.2 }
      let (waits, pool) := s.pool.shutdown
      { s with pool, closing := .waiting waits }
  | _ => s

/-- Whoever closes the server finds out whether the workers have gone home. -/
def finishClosing (s : Server) : Server :=
  match s.closing with
  | .waiting waits =>
    if !waits || s.pool.isDeserted then
      { s.withHub s.hub.refreshTally with closing := .finished }
    else s
  | _ => s

end Server

/-! ## Moves -/

/-- What can happen to a server. -/
inductive Move where
  /-- The clock is read. -/
  | time (t : Clock)
  | accept
  /-- Bytes arrive. -/
  | arrive (id : Nat) (bytes : List UInt8)
  /-- A peer's bytes end. -/
  | endInput (id : Nat) (e : StreamEnd)
  /-- A session is signalled to end. -/
  | signal (id : Nat)
  /-- Somebody calls for the end. -/
  | call
  /-- Whoever called for the end first tells the sessions. -/
  | announce
  /-- The server is asked to close. -/
  | close
  /-- Whoever closes the server signals everybody and stops the pool. -/
  | dismiss
  /-- A worker looks for a session. -/
  | look (worker : Nat)
  /-- A session that a worker has taken looks whether the server is closing. -/
  | begin (id : Nat)
  /-- A session reads an identity. -/
  | handshake (id : Nat)
  /-- A session has waited too long for an identity. -/
  | handshakeTimeout (id : Nat)
  /-- A registered session takes a turn. -/
  | turn (id : Nat)
  /-- A registered session has waited too long for a record. -/
  | idle (id : Nat)
  /-- A writer looks into its mailbox. -/
  | fetch (id : Nat)
  /-- A writer writes so many bytes. -/
  | write (id n : Nat)
  /-- A write fails. -/
  | writeFailure (id : Nat)
  /-- A session that has left finds its writer done. -/
  | conclude (id : Nat)
  /-- A session that has left has waited too long for its writer. -/
  | giveUp (id : Nat)
  /-- Whoever closes the server looks at the workers. -/
  | finishClosing
  /-- The process ends. -/
  | exit
deriving Repr, DecidableEq

namespace Server

/-- Does something to a connection that is there. -/
def atConnection (s : Server) (id : Nat) (f : Connection → Server) : Server :=
  match s.connection? id with
  | none => s
  | some c => f c

/-- What a move does to a server that is there. -/
def act (s : Server) : Move → Server
  | .time t => { s with clock := t }
  | .accept => s.accept
  | .arrive id bytes => s.atConnection id fun c => s.put (c.arrive bytes)
  | .endInput id e => s.atConnection id fun c => s.put (c.endInput e)
  | .signal id =>
    let hub := s.hub
    s.withHub { hub with registry := (hub.registry.signal id).2 }
  | .call => s.call.2
  | .announce => s.announce
  | .close => s.close
  | .dismiss => s.dismiss
  | .look i => s.look i
  | .begin id => s.atConnection id s.begin
  | .handshake id => s.atConnection id s.handshake
  | .handshakeTimeout id =>
    s.atConnection id fun c => if c.stage = .handshake then s.refuse c else s
  | .turn id => s.atConnection id s.turn
  | .idle id => s.atConnection id s.idle
  | .fetch id => s.atConnection id s.fetch
  | .write id n => s.atConnection id fun c => s.write c n
  | .writeFailure id =>
    s.atConnection id fun c => if c.inHand.isEmpty then s else s.failWrite c
  | .conclude id =>
    s.atConnection id fun c =>
      if c.stage = .closing ∧ c.writer = .done then s.endSession c else s
  | .giveUp id =>
    s.atConnection id fun c => if c.stage = .closing then s.endSession c else s
  | .finishClosing => s.finishClosing
  | .exit => { s with gone := true }

/-- The server after a move. -/
def step (s : Server) (m : Move) : Server := if s.gone then s else s.act m

/-- The server after a run. -/
def run (s : Server) (moves : List Move) : Server := moves.foldl step s

end Server

end ChatHub
