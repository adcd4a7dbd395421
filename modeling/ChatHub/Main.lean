import ChatHub.CommandLine
import ChatHub.Live.Terminal
/-!
# The command line

One executable is both programs: under a name that ends in `client` it is the terminal, under every
other name the server. What either does with its arguments is decided in `CommandLine.start` and
`TerminalProgram`; here the host is looked at, and what was decided is done.
-/

namespace ChatHub.Main

/-- The files that the arguments may ask for. -/
def lookAtFiles (args : List String) : IO (List (String × String)) := do
  let named := (CommandLine.valueOf "--config" args).join.toList
  let mut files := []
  for path in named ++ [CommandLine.standardPath] do
    match ← Live.attempt (IO.FS.readFile path) with
    | some text => files := files ++ [(path, text)]
    | none => pure ()
  return files

/-- Says what keeps the program from its work. -/
def fail (text : String) : IO UInt32 := do
  (← IO.getStderr).putStr text
  return 1

/-- Claims the address and serves. -/
def serve (settings : Settings) (address : Address) : IO UInt32 := do
  match Server.create settings (← Live.readClock) with
  | .error fault => fail ("Error: " ++ fault.message ++ "\n")
  | .ok server =>
    match ← Live.attempt (Live.listenOn address settings.port settings.maxClients) with
    | none => fail (StartFault.address settings.port (.inUse address)).message
    | some listener =>
      Live.serve server listener
      return 0

/-- The server program. -/
def server (args : List String) : IO UInt32 := do
  match CommandLine.start { files := ← lookAtFiles args, taken := [] } args with
  | .version =>
    (← IO.getStdout).putStr CommandLine.versionText
    return 0
  | .fails why => fail why.message
  | .serves settings address => serve settings address

/-- The terminal program. The pure program says everything up to the call; if it would come to one,
the call is made. -/
def terminal (args : List String) : IO UInt32 := do
  let out ← IO.getStdout
  let user ← match args with
    | user :: _ => pure (some user)
    | [] => do
      out.putStr TerminalProgram.question
      out.flush
      let line ← Live.attempt (do (← IO.getStdin).getLine)
      pure (line.bind fun s =>
        (TerminalProgram.linesOf (Utf8.encode s)).head?.bind TerminalProgram.textOf?)
  let fault (f : TerminalFault) : IO UInt32 := fail (TerminalFault.report f)
  match TerminalProgram.plan user args with
  | .error f => fault f
  | .ok call =>
    out.putStr call.announcement
    out.flush
    match (Address.resolve? call.host).bind (Live.socketAddress? · call.port) with
    | none => fault .notConnected
    | some address =>
      match ← Live.sit call.user address with
      | none => fault .notConnected
      | some .well => return 0
      | some .notText => fault .notText

end ChatHub.Main

/-- Runs the server, or the terminal if the executable is called so. -/
def main (args : List String) : IO UInt32 := do
  if ((← IO.appPath).fileName.getD "").endsWith "client" then ChatHub.Main.terminal args
  else ChatHub.Main.server args
