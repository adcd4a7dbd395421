import ChatHub.Live.Server
import ChatHub.Record.Framing
import ChatHub.Terminal.Program
/-!
# A terminal on a real network

The person types into the standard input and the server sends records; each of them is an event of
one `Terminal` that two threads share. What a step prints goes to the standard output before anybody
else gets a turn, so lines that are typed and lines that come never mix.
-/

namespace ChatHub.Live

open Std.Async

/-- A terminal that two threads share. -/
abbrev Seat := Std.Mutex Terminal

/-- How long a terminal waits between two records of one command, in milliseconds. -/
def pace : Nat := 50

/-- Makes a step and prints what it shows. What it sends is handed back. -/
def advance (seat : Seat) (e : TerminalEvent) : IO (List Record × Option TerminalEnd) := do
  let now := (← readClock).unix
  seat.atomically do
    let t := (← get).step now e
    let out ← IO.getStdout
    out.putStr t.shown
    out.flush
    set { t with shown := "", sent := [] }
    return (t.sent, t.ended)

/-- Sends records, with a pause after each of them if there are several. -/
def sendAll (socket : TCP.Socket.Client) (rs : List Record) : Async Unit := do
  for r in rs do
    let _ ← attempt (socket.send ⟨r.encode.toArray⟩)
    if 1 < rs.length then pause pace

/-- Shows the records that come until there are no more. -/
def listenTo (seat : Seat) (socket : TCP.Socket.Client) : Async Unit := do
  let mut framer := Framer.empty
  repeat
    let some (some bytes) ← attempt (socket.recv? 8192) | break
    if bytes.isEmpty then break
    let (found, rest) := (framer.push bytes.toList).drain
    framer := rest
    let sound := found.takeWhile fun r => r.isOk
    for r in sound.filterMap (·.toOption) do
      let _ ← advance seat (.came r)
    if sound.length < found.length then break
  let _ ← advance seat .serverGone

/-- The next line that is typed; missing at the end of input. -/
def nextLine : IO (Option TerminalEvent) := do
  match ← attempt (do (← IO.getStdin).getLine) with
  | none => return some .garbled
  | some line =>
    if line.isEmpty then return none
    return (TerminalProgram.typedEvents (Utf8.encode line)).head?

/-- Reads lines and does what they say until the terminal comes to its end. -/
partial def typeInto (seat : Seat) (socket : TCP.Socket.Client) : IO (Option TerminalEnd) := do
  let e := (← nextLine).getD .inputOver
  let (records, ended) ← advance seat e
  (sendAll socket records).block
  if ended.isSome then return ended else typeInto seat socket

/-- Waits until the terminal comes to its end, whoever brings it about. -/
partial def untilEnded (seat : Seat) : IO TerminalEnd := do
  match (← seat.atomically get).ended with
  | some e => return e
  | none =>
    IO.sleep 20
    untilEnded seat

/-- Calls a server and sits at the terminal until the end. -/
def sit (user : String) (address : Std.Net.SocketAddress) : IO (Option TerminalEnd) := do
  let socket ← TCP.Socket.Client.mk
  match ← attempt (socket.connect address).block with
  | none => return none
  | some () =>
    let _ ← attempt (socket.send ⟨(Terminal.greeting user).toArray⟩).block
    let t := Terminal.connected user ""
    let out ← IO.getStdout
    out.putStr t.shown
    out.flush
    let seat ← Std.Mutex.new { t with shown := "" }
    let _ ← Async.toIO (listenTo seat socket)
    let _ ← IO.asTask (typeInto seat socket) Task.Priority.dedicated
    let ended ← untilEnded seat
    let _ ← attempt socket.shutdown.block
    return some ended

end ChatHub.Live
