import ChatHub.Network
import ChatHub.Terminal.Basic
import ChatHub.Text.Utf8
/-!
# The terminal program

The program takes a user id, a host and a port from its command line. A user id that is missing is
asked for. The user id is looked at first, then the port, then the program tries to connect; the
first of these that fails ends it.
-/

namespace ChatHub

/-- What keeps a terminal from connecting. -/
inductive TerminalFault where
  | noUser
  | badUser (why : BadUser)
  | badPort (raw : String)
  | notConnected
  | notText
deriving Repr, DecidableEq

namespace TerminalFault

/-- The text of the fault. -/
def message : TerminalFault → String
  | noUser => "Failed to read username"
  | badUser why => why.message
  | badPort raw => "Invalid port number (must be 1-65535): " ++ raw
  | notConnected =>
    "Connection failed. Is the server running?: Network is unreachable (os error 101)"
  | notText => "stream did not contain valid UTF-8"

/-- What the program says about the fault. -/
def report (f : TerminalFault) : String := "ERROR: " ++ f.message ++ "\n"

end TerminalFault

/-- What somebody types, or what the server at the other end does. -/
inductive TerminalStep where
  | line (text : String)
  /-- Bytes are typed, and then nothing more. -/
  | bytes (typed : List UInt8)
  | came (r : Record)
  | serverGone
  | inputOver
  /-- A line is typed, and the program is stopped as soon as it has printed a line. -/
  | probe (text : String)
deriving Repr, DecidableEq

/-- What a run of the program leaves behind. -/
structure TerminalRun where
  /-- Missing if the program was stopped. -/
  exit : Option Nat
  stdout : String
  stderr : String
  /-- The bytes that introduced the user, if it came to that. -/
  identity : Option (List UInt8)
  /-- What was sent; missing if the program was stopped. -/
  sent : Option (List Record)
deriving Repr, DecidableEq

namespace TerminalRun

/-- A run that ended with a fault. -/
def failed (stdout : String) (fault : TerminalFault) : TerminalRun :=
  { exit := some 1, stdout, stderr := fault.report, identity := none, sent := some [] }

end TerminalRun

namespace TerminalProgram

/-- The lines of typed bytes. The last one may be ended by the end of input instead of a line
break, and a CR before a line break belongs to it. -/
def linesOf (bytes : List UInt8) : List (List UInt8) := split bytes []
where
  /-- Collects one line after another; `line` is what the current one has so far, reversed. -/
  split : List UInt8 → List UInt8 → List (List UInt8)
    | [], [] => []
    | [], line => [line.reverse]
    | b :: rest, line =>
      if b = 10 then
        (match line with | 13 :: line => line.reverse | _ => line.reverse) :: split rest []
      else split rest (b :: line)

/-- The text of typed bytes, if they are text. -/
def textOf? (bytes : List UInt8) : Option String :=
  let s := Utf8.decode bytes
  if Utf8.encode s = bytes then some s else none

/-- What a typed line does to a terminal. -/
def lineEvent (line : List UInt8) : TerminalEvent :=
  match textOf? line with
  | some s => .typed s
  | none => .garbled

/-- What typed bytes do to a terminal. -/
def typedEvents (bytes : List UInt8) : List TerminalEvent := (linesOf bytes).map lineEvent

/-- Up to the end of the first line after what was shown `before`. -/
def throughFirstLine (before shown : String) : String :=
  let new := shown.toList.drop before.length
  let line := new.takeWhile (· != '\n')
  before ++ String.ofList (line ++ (new.drop line.length).take 1)

/-- The events of a step. -/
def eventsOf : TerminalStep → List TerminalEvent
  | .line text => typedEvents (Utf8.encode (text ++ "\n"))
  | .bytes typed => typedEvents typed ++ [.inputOver]
  | .came r => [.came r]
  | .serverGone => [.serverGone]
  | .inputOver => [.inputOver]
  | .probe text => typedEvents (Utf8.encode (text ++ "\n"))

/-- A connected terminal goes through its steps; nothing more is typed after the last. -/
def follow (now : Int64) (t : Terminal) : List TerminalStep → TerminalRun
  | [] =>
    let t := t.step now .inputOver
    let fault := t.ended = some .notText
    { exit := some (if fault then 1 else 0)
      stdout := t.shown
      stderr := if fault then TerminalFault.notText.report else ""
      identity := some (Terminal.greeting t.user)
      sent := some t.sent }
  | .probe text :: _ =>
    let after := (eventsOf (.probe text)).foldl (·.step now) t
    { exit := none, stdout := throughFirstLine t.shown after.shown, stderr := "",
      identity := some (Terminal.greeting t.user), sent := none }
  | s :: rest => follow now ((eventsOf s).foldl (·.step now) t) rest

/-! ## Whom to call -/

/-- A call that is about to be made. -/
structure Call where
  user : String
  host : String
  port : Nat
deriving Repr, DecidableEq

/-- What is said before a call. -/
def Call.announcement (c : Call) : String :=
  "Connecting to server at " ++ c.host ++ ":" ++ toString c.port ++ "...\n"

/-- The host that is called if none is named. -/
def standardHost : String := "127.0.0.1"

/-- The port that is called if none is named. -/
def standardPort : Nat := 8080

/-- The call that the arguments of the program ask for, for a user who may be missing. -/
def plan (user : Option String) (args : List String) : Except TerminalFault Call :=
  match user with
  | none => .error .noUser
  | some user =>
    match BadUser.find? user with
    | some why => .error (.badUser why)
    | none =>
      let host := (args[1]?).getD standardHost
      match args[2]? with
      | none => .ok { user, host, port := standardPort }
      | some raw =>
        match Numeral.port? raw with
        | none => .error (.badPort raw)
        | some port => .ok { user, host, port }

/-! ## The program -/

/-- What asks for the user id. -/
def question : String := "Enter your username: "

/-- Makes the call and follows the steps; `typed` is what was typed before. -/
def make (network : Network) (now : Int64) (shown : String) (typed : List TerminalEvent)
    (steps : List TerminalStep) : Except TerminalFault Call → TerminalRun
  | .error fault => .failed shown fault
  | .ok c =>
    let shown := shown ++ c.announcement
    match network with
    | .down => .failed shown .notConnected
    | .up => follow now (typed.foldl (·.step now) (.connected c.user shown)) steps

/-- The program: its arguments, what stands ready to be read before it asks for the user id, and
what happens once it is connected. -/
def run (network : Network) (now : Int64) (args : List String) (ready : List UInt8)
    (steps : List TerminalStep) : TerminalRun :=
  match args with
  | user :: _ => make network now "" (typedEvents ready) steps (plan (some user) args)
  | [] =>
    let lines := linesOf ready
    make network now question ((lines.drop 1).map lineEvent) steps
      (plan (lines.head?.bind textOf?) args)

end TerminalProgram

end ChatHub
