import ChatHub.Host
import ChatHub.Server.Monitor
import ChatHub.Server.Schedule
import Std.Async.Signal
import Std.Async.TCP
import Std.Async.Timer
import Std.Sync.Mutex
/-!
# A server on a real network

Nothing is decided here. Sockets, clocks and signals become moves of a `Server`, the server's own
parts go on as its schedule says, and what it has written goes to the sockets. A socket that still
has enough to send keeps its writer waiting, so a slow client fills its own mailbox and nobody
else's.

Whatever waits for the network waits without a thread of its own, so none of it keeps the process
alive. Only the watch over the clock has a thread, and it ends when the server is closed.
-/

namespace ChatHub.Live

open Std.Async

/-- A socket, and what the server knows about it. -/
structure Wire where
  id : Nat
  socket : TCP.Socket.Client
  /-- Whether the socket is still busy with what it was told to send. -/
  busy : Bool
  /-- Whether the socket has been told to close. -/
  shut : Bool
  /-- When the session began to wait for its peer or its writer, in milliseconds. -/
  since : Nat

/-- A server and its sockets. -/
structure Running where
  server : Server
  wires : List Wire

/-- What a socket has to be told: the bytes to send, and whether nothing follows them. -/
structure Errand where
  wire : Wire
  bytes : List UInt8
  last : Bool

/-- What an action gives, if it does not fail. -/
def attempt {m : Type → Type} [Monad m] [MonadExcept IO.Error m] {α : Type} (action : m α) :
    m (Option α) := do
  try return some (← action) catch _ => return none

/-- Waits for a while. -/
def pause (ms : Nat) : Async Unit := do
  (← Sleep.mk (.ofNat ms)).wait

/-- Reads both clocks. -/
def readClock : IO Clock := do
  let now ← Std.Time.Timestamp.now
  return { unix := Int64.ofInt now.toSecondsSinceUnixEpoch.val, ms := ← IO.monoMsNow }

/-- The most bytes that wait to be sent before a writer has to wait. -/
def sendAhead : Nat := 65536

/-- Whether a writer may write. -/
def mayWrite (s : Server) (id : Nat) : Bool :=
  (s.connection? id).any fun c => c.outbox.length < sendAhead

/-- Lets the server's parts go on until each of them has to wait. -/
partial def goOn (r : Running) : Running :=
  match r.server.ready? (mayWrite r.server) false with
  | none => r
  | some m =>
    let server := r.server.step m
    let wires :=
      match m with
      | .look _ | .begin _ | .turn _ => r.wires.map fun w =>
        match r.server.connection? w.id, server.connection? w.id with
        | some a, some b => if a.stage = b.stage then w else { w with since := server.clock.ms }
        | _, _ => w
      | _ => r.wires
    goOn { server, wires }

/-- What a socket has to be told, and what is left to tell. -/
def tell (s : Server) (w : Wire) : List Errand × Wire × Server :=
  if w.busy then ([], w, s)
  else
    let last := ((s.connection? w.id).map fun c => c.shut).getD true
    let (bytes, s) := s.takeWritten w.id
    if bytes.isEmpty && !last then ([], w, s)
    else
      let w := { w with busy := true, shut := last }
      ([{ wire := w, bytes, last }], w, s)

/-- What the sockets have to be told, and what is left to tell. Connections that are over are
forgotten, and their sockets with them. -/
def errands (r : Running) : List Errand × Running :=
  let (todo, wires, server) := r.wires.foldl
    (fun (todo, wires, s) w =>
      let (more, w, s) := tell s w
      (todo ++ more, wires ++ [w], s))
    (([], [], r.server) : List Errand × List Wire × Server)
  (todo, { server := server.tidy, wires := wires.filter (!·.shut) })

/-- A running server that several threads share. -/
abbrev Shared := Std.Mutex Running

mutual

/-- Makes moves, lets the server go on, and runs the errands that come of it. -/
partial def apply (shared : Shared) (free : List Nat) (moves : List Move) : Async Unit := do
  let clock ← readClock
  let todo ← shared.atomically do
    let r ← get
    let wires := r.wires.map fun w => if free.contains w.id then { w with busy := false } else w
    let (todo, r) := errands (goOn { server := r.server.run (.time clock :: moves), wires })
    set r
    return todo
  for errand in todo do
    background (run shared errand)

/-- Runs one errand, and reports a socket that is free again or broken. -/
partial def run (shared : Shared) (e : Errand) : Async Unit := do
  let id := e.wire.id
  if !e.bytes.isEmpty then
    let sent ← attempt (e.wire.socket.send ⟨e.bytes.toArray⟩)
    apply shared [id] (if sent.isSome then [] else [.endInput id .broken])
  if e.last then
    let _ ← attempt e.wire.socket.shutdown

end

/-- The most bytes that wait to be dealt with before a socket is left alone for a while. -/
def readAhead : Nat := 65536

/-- Reads from a socket until its end. -/
def readFrom (shared : Shared) (id : Nat) (socket : TCP.Socket.Client) : Async Unit := do
  repeat
    let waiting ← shared.atomically do
      return (((← get).server.connection? id).map (·.inbox.length)).getD 0
    if readAhead < waiting then
      pause 20
    else
      match ← attempt (socket.recv? 8192) with
      | some (some bytes) =>
        if bytes.isEmpty then
          apply shared [] [.endInput id .closed]
          break
        apply shared [] [.arrive id bytes.toList]
      | some none =>
        apply shared [] [.endInput id .closed]
        break
      | none =>
        apply shared [] [.endInput id .broken]
        break

/-- Takes a new socket in. -/
def takeIn (shared : Shared) (socket : TCP.Socket.Client) : Async Nat := do
  let clock ← readClock
  shared.atomically do
    let r ← get
    let server := r.server.run [.time clock, .accept]
    let wire : Wire :=
      { id := server.lastId, socket, busy := false, shut := false, since := clock.ms }
    set ({ server, wires := r.wires ++ [wire] } : Running)
    return server.lastId

/-- Accepts connections until the server is asked to close. -/
def acceptFrom (shared : Shared) (listener : TCP.Socket.Server) : Async Unit := do
  repeat
    match ← attempt listener.accept with
    | none => pause 20
    | some socket =>
      if !(← shared.atomically get).server.listening then break
      let id ← takeIn shared socket
      apply shared [] []
      background (readFrom shared id socket)

/-- The moves that the passing of time brings about. -/
def overdue (r : Running) (now : Nat) : List Move :=
  r.wires.flatMap fun w =>
    if now < w.since + r.server.hall.settings.readTimeoutMs then []
    else
      match (r.server.connection? w.id).map fun (c : Connection) => c.stage with
      | some .handshake => [.handshakeTimeout w.id]
      | some .closing => [.giveUp w.id]
      | _ => []

/-- Watches the clock until the server is closed or the process is to end. -/
partial def watch (shared : Shared) : IO Unit := do
  IO.sleep 50
  let r ← shared.atomically get
  if r.server.closing = .finished || r.server.gone then return
  let due := overdue r (← IO.monoMsNow)
  if !due.isEmpty then (apply shared [] due).block
  watch shared

/-- Asks the server to close as soon as the process is told to end, and ends it when it is told so
again. -/
def closeOn (shared : Shared) (signal : Signal) : Async Unit := do
  let waiter ← Signal.Waiter.mk signal true
  repeat
    let _ ← await (← waiter.wait)
    let listening := (← shared.atomically get).server.listening
    apply shared [] [if listening then .close else .exit]

/-- The path that the first line of a request asks for. -/
def requestedPath (request : String) : String :=
  match ((request.splitOn "\n").headD "").splitOn " " with
  | "GET" :: path :: _ => path
  | _ => ""

/-- Answers one request for the monitoring counters. -/
def answerMonitor (shared : Shared) (socket : TCP.Socket.Client) : Async Unit := do
  let some (some bytes) ← attempt (socket.recv? 8192) | return
  let path := requestedPath ((String.fromUTF8? bytes).getD "")
  let answer ← shared.atomically do
    let r ← get
    let (answer, server) := r.server.monitor path true
    set { r with server }
    return answer
  let body := String.join (answer.lines.map (· ++ "\n"))
  let head :=
    [answer.status] ++ (answer.contentType.map ("content-type: " ++ ·)).toList
      ++ ["content-length: " ++ toString body.utf8ByteSize, "connection: close", "", body]
  let _ ← attempt (socket.send ("\r\n".intercalate head).toUTF8)
  let _ ← attempt socket.shutdown

/-- Answers requests for the monitoring counters. -/
def serveMonitor (shared : Shared) (listener : TCP.Socket.Server) : Async Unit := do
  repeat
    match ← attempt listener.accept with
    | none => pause 20
    | some socket => background (answerMonitor shared socket)

/-- A socket address. -/
def socketAddress? (a : Address) (port : Nat) : Option Std.Net.SocketAddress :=
  match a with
  | .short bytes =>
    let byte (i : Nat) : UInt8 := ((Address.octets bytes)[i]?.getD 0).toUInt8
    some (.v4 { addr := .ofParts (byte 0) (byte 1) (byte 2) (byte 3), port := port.toUInt16 })
  | .long s =>
    (Std.Net.IPv6Addr.ofString s).map fun addr => .v6 { addr, port := port.toUInt16 }

/-- Listens on an address. -/
def listenOn (a : Address) (port backlog : Nat) : IO TCP.Socket.Server := do
  match socketAddress? a port with
  | none => throw (.userError "no such address")
  | some address =>
    let listener ← TCP.Socket.Server.mk
    listener.bind address
    listener.listen backlog.toUInt32
    return listener

/-- Sets everything up that a server waits for. -/
def begin (shared : Shared) (settings : Settings) (listener : TCP.Socket.Server) : Async Unit := do
  apply shared [] []
  for signal in [Signal.sigint, Signal.sigterm] do
    background (closeOn shared signal)
  if settings.monitor.enabled then
    if let some monitor ← attempt (listenOn (.short 0) settings.monitor.port 16 : IO _) then
      background (serveMonitor shared monitor)
  background (acceptFrom shared listener)

/-- Serves until the process is told to end. -/
def serve (server : Server) (listener : TCP.Socket.Server) : IO Unit := do
  let shared ← Std.Mutex.new ({ server, wires := [] } : Running)
  (begin shared server.hall.settings listener).block
  watch shared

end ChatHub.Live
