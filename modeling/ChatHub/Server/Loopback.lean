import ChatHub.Network
import ChatHub.Server.Monitor
import ChatHub.Server.Schedule
/-!
# A server and its callers

Callers connect to a server over the network of its own host, send bytes, and read what comes back.
After every step the server goes on until nothing can happen any more except that time passes; the
only thing that waiting would still bring about is that a caller who says nothing is given up, so
that happens too. Then every caller has read all there is to read.

A network can be down. Then nobody gets through, and a step that needs a connection has no outcome
at all.
-/

namespace ChatHub

/-- One caller. -/
structure Caller where
  name : String
  id : Nat
  /-- How many bytes the caller has read. -/
  position : Nat
  /-- Whether the caller still reads. -/
  reads : Bool
  /-- Whether the caller has seen the connection close. -/
  sawEnd : Bool
deriving Repr, DecidableEq

/-- A server, its network and its callers. -/
structure Loopback where
  server : Server
  network : Network
  callers : List Caller

/-- A step that has no outcome because the network is down. -/
inductive Unreachable where
  | noRoute
deriving Repr, DecidableEq

namespace Loopback

/-- A server with no callers. -/
def create (network : Network) (settings : Settings) (clock : Clock) : Except Fault Loopback := do
  return { server := ← Server.create settings clock, network, callers := [] }

/-- The caller with a name. -/
def caller? (l : Loopback) (name : String) : Option Caller := l.callers.find? (·.name == name)

/-- Replaces the caller that has the same name, or adds one. -/
def putCaller (l : Loopback) (c : Caller) : Loopback :=
  if (l.caller? c.name).isSome then
    { l with callers := l.callers.map fun d => if d.name = c.name then c else d }
  else { l with callers := l.callers ++ [c] }

/-- Makes a move and lets the server go on. -/
def moved (l : Loopback) (ms : List Move) : Loopback :=
  { l with server := (l.server.run ms).settle }

/-! ## What callers do -/

/-- Somebody connects and sends bytes, or nothing. -/
def connect (l : Loopback) (name : String) (bytes : List UInt8) : Except Unreachable Loopback :=
  match l.network with
  | .down => .error .noRoute
  | .up =>
    let id := Server.idAfter l.server.lastId
    .ok ((l.putCaller { name, id, position := 0, reads := true, sawEnd := false }).moved
      [.accept, .arrive id bytes])

/-- Does something as a caller. -/
def asCaller (l : Loopback) (name : String) (f : Caller → Loopback) : Loopback :=
  match l.caller? name with
  | none => l
  | some c => f c

/-- A caller sends bytes. -/
def send (l : Loopback) (name : String) (bytes : List UInt8) : Loopback :=
  l.asCaller name fun c => l.moved [.arrive c.id bytes]

/-- A caller says that it sends no more, and goes on reading. -/
def halfClose (l : Loopback) (name : String) : Loopback :=
  l.asCaller name fun c => l.moved [.endInput c.id .closed]

/-- A caller goes away, with or without a word. -/
def goAway (l : Loopback) (name : String) (e : StreamEnd) : Loopback :=
  l.asCaller name fun c => (l.putCaller { c with reads := false }).moved [.endInput c.id e]

/-- Somebody on the server's side tells a session to end; says whether it listens. -/
def kick (l : Loopback) (name : String) : Bool × Loopback :=
  match l.caller? name with
  | none => (false, l)
  | some c => ((l.server.hub.registry.signal c.id).1, l.moved [.signal c.id])

/-- Sets the second. -/
def setTime (l : Loopback) (unix : Int64) : Loopback :=
  l.moved [.time { l.server.clock with unix }]

/-- Asks the server to close; `false` if it was asked before. -/
def close (l : Loopback) : Bool × Loopback := (l.server.listening, l.moved [.close])

/-- Somebody asks for the monitoring counters over HTTP. -/
def monitor (l : Loopback) (path : String) (full : Bool) :
    Except Unreachable (HttpAnswer × Loopback) :=
  match l.network with
  | .down => .error .noRoute
  | .up =>
    let (answer, server) := l.server.monitor path full
    .ok (answer, { l with server })

/-! ## What callers see -/

/-- The records in a run of bytes; a part of a record at the end is not one yet. -/
def recordsIn (bytes : List UInt8) : List Record :=
  ((Framer.empty.feed bytes).1).filterMap fun r =>
    match r with
    | .ok r => some r
    | .error _ => none

/-- What one step has brought the callers. -/
structure News where
  /-- What each caller has read, of those who have read something. -/
  received : List (String × List Record)
  /-- The callers who saw their connection close. -/
  gone : List String

/-- The bytes that were sent to a caller, and whether the server has closed the connection. -/
def sentTo (l : Loopback) (c : Caller) : List UInt8 × Bool :=
  match l.server.connection? c.id with
  | none => ([], !l.server.listening)
  | some conn => (conn.outbox, conn.shut || l.server.gone)

/-- Every caller reads all there is to read. -/
def read (l : Loopback) : News × Loopback :=
  let readers := l.callers.filter (·.reads)
  ({ received :=
      (readers.map fun c => (c.name, recordsIn ((l.sentTo c).1.drop c.position))).filter
        fun (_, rs) => !rs.isEmpty
     gone := (readers.filter fun c => (l.sentTo c).2 && !c.sawEnd).map (·.name) },
    { l with callers := l.callers.map fun c =>
        if c.reads then
          { c with position := (l.sentTo c).1.length, sawEnd := c.sawEnd || (l.sentTo c).2 }
        else c })

end Loopback

end ChatHub
