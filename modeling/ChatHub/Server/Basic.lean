import ChatHub.Server.Connection
import ChatHub.WorkPool
/-!
# The server

A server is a hall, a pool of workers whose tasks are sessions, and every connection that was ever
accepted. This module holds the value and the ways to get at its parts; how a session lives, how a
writer writes, and what can happen to a server as a whole stand in the modules beside it.
-/

namespace ChatHub

/-- How far whoever closes the server has come. -/
inductive Closing where
  /-- Nobody has asked for it. -/
  | notAsked
  /-- The end has been called for; `first` if nobody had done so before, and then the sessions have
  to be told before anything else. -/
  | called (first : Bool)
  /-- The workers are being waited for; `waits` is `false` if somebody else does so already. -/
  | waiting (waits : Bool)
  | finished
deriving Repr, DecidableEq

/-- A server. -/
structure Server where
  hall : Hall
  pool : WorkPool Nat
  /-- Every connection that was ever accepted, in that order. -/
  connections : List Connection
  /-- The id of the last connection. -/
  lastId : Nat
  /-- Whether the end has been called for and the sessions have not been told yet. -/
  announcing : Bool
  closing : Closing
  /-- Whether the process has ended, and the server with it. -/
  gone : Bool
  clock : Clock
deriving Repr, DecidableEq

namespace Server

/-- A server that nobody has connected to. -/
def create (settings : Settings) (clock : Clock) : Except Fault Server := do
  let hall ← Hall.create settings
  let pool ← WorkPool.create settings.poolSize
  return { hall, pool, connections := [], lastId := 0, announcing := false, closing := .notAsked,
           gone := false, clock }

/-- The id that follows an id. Ids have 64 bits, and zero follows the last of them. -/
def idAfter (id : Nat) : Nat := (id + 1) % 18446744073709551616

/-! ## Parts -/

/-- The hub. -/
def hub (s : Server) : Hub := s.hall.hub

/-- Replaces the hub. -/
def withHub (s : Server) (h : Hub) : Server := { s with hall := { s.hall with hub := h } }

/-- The connection with an id. -/
def connection? (s : Server) (id : Nat) : Option Connection :=
  s.connections.find? (·.id == id)

/-- Whether connections are accepted: until the server is asked to close. -/
def listening (s : Server) : Bool := s.closing == .notAsked

/-- Whether the end has been called for and every session that listens has been told. -/
def isAnnounced (s : Server) : Bool := s.hall.closing && !s.announcing

/-- Replaces the connection that has the same id. -/
def put (s : Server) (c : Connection) : Server :=
  { s with connections := s.connections.map fun d => if d.id = c.id then c else d }

/-- Hands over what was written to a socket. -/
def takeWritten (s : Server) (id : Nat) : List UInt8 × Server :=
  match s.connection? id with
  | none => ([], s)
  | some c => (c.outbox, s.put { c with outbox := [] })

/-- Whether nothing can happen to a connection any more. -/
def isOver (c : Connection) : Bool := c.stage == .ended && c.shut && c.outbox.isEmpty

/-- Forgets the connections that nothing can happen to any more. -/
def tidy (s : Server) : Server :=
  { s with connections := s.connections.filter (!isOver ·) }

/-- The worker that is busy with a session. -/
def workerOf? (s : Server) (id : Nat) : Option Nat :=
  s.pool.workers.findIdx? fun w => match w with | .busy task => task == id | _ => false

end Server

end ChatHub
