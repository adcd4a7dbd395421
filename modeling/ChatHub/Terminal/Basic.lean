import ChatHub.Record.Basic
import ChatHub.Text.Utf8
import ChatHub.Terminal.Command
/-!
# A terminal

A terminal is what a person sees of the relay: a prompt, lines they type, and lines that others
say. Once it is connected, four things can happen to it: a line is typed, a record comes, the
server goes, or there is nothing more to type. Each of them is a step that prints something and may
send records.
-/

namespace ChatHub

/-! ## Who may call -/

/-- What is wrong with a user id. -/
inductive BadUser where
  | empty
  | tooLong
  | control
deriving Repr, DecidableEq

namespace BadUser

/-- The text of the complaint. -/
def message : BadUser → String
  | empty => "Username cannot be empty"
  | tooLong => "Username too long (max " ++ toString maxSenderBytes ++ " characters)"
  | control => "Username contains invalid characters"

/-- What is wrong with a user id, if anything is. -/
def find? (user : String) : Option BadUser :=
  if user.isEmpty then some .empty
  else if maxSenderBytes < user.utf8ByteSize then some .tooLong
  else if user.toList.any Text.isControl then some .control
  else none

end BadUser

/-! ## The time of day -/

/-- A number with two digits at least. -/
def twoDigits (n : Nat) : String := (if n < 10 then "0" else "") ++ toString n

/-- The first second that has a time of day: the year -262143 begins. -/
def firstSecond : Int := -8334601228800

/-- The last second that has a time of day: the year 262142 ends. -/
def lastSecond : Int := 8210266876799

/-- The time of day of a second. -/
def timeOfDay (t : Int64) : String :=
  let t := t.toInt
  if firstSecond ≤ t ∧ t ≤ lastSecond then
    let s := (t.emod 86400).toNat
    twoDigits (s / 3600) ++ ":" ++ twoDigits (s / 60 % 60) ++ ":" ++ twoDigits (s % 60)
  else "??:??:??"

/-! ## The terminal -/

/-- How a terminal comes to its end. -/
inductive TerminalEnd where
  | well
  /-- What was typed is no text. -/
  | notText
deriving Repr, DecidableEq

/-- A connected terminal. -/
structure Terminal where
  user : String
  /-- Everything that was printed. -/
  shown : String
  /-- Everything that was sent. -/
  sent : List Record
  ended : Option TerminalEnd
deriving Repr, DecidableEq

/-- What happens to a terminal. -/
inductive TerminalEvent where
  | typed (line : String)
  /-- Bytes were typed that are no text. -/
  | garbled
  | came (r : Record)
  | serverGone
  /-- There is nothing more to type. -/
  | inputOver
deriving Repr, DecidableEq

namespace Terminal

/-- Prints. -/
def print (t : Terminal) (s : String) : Terminal := { t with shown := t.shown ++ s }

/-- What asks for the next line. -/
def promptText : String := "You: "

/-- Asks for the next line. -/
def prompt (t : Terminal) : Terminal := t.print promptText

/-- Sends a record. -/
def send (t : Terminal) (r : Record) : Terminal := { t with sent := t.sent ++ [r] }

/-- A terminal that has just been connected; `shown` is what was printed before. -/
def connected (user shown : String) : Terminal :=
  ({ user, shown, sent := [], ended := none } : Terminal)
    |>.print "Connected to server!\n"
    |>.print ("\nWelcome to the chat, " ++ user ++ "!\n")
    |>.print "Type /help for available commands\nType /quit to disconnect\n\n"
    |>.prompt

/-- The bytes that introduce the user. -/
def greeting (user : String) : List UInt8 := Utf8.encode user ++ [0]

/-- The terminal says goodbye. -/
def finish (t : Terminal) (e : TerminalEnd) : Terminal :=
  { t.print "\nDisconnecting from server...\nDisconnected successfully. Goodbye!\n" with
    ended := some e }

/-- The list of commands, with an empty line before and after it. -/
def helpText : String :=
  String.join
    [ "\nAvailable commands:\n",
      "  /quit, /exit   - Disconnect from chat\n",
      "  /help          - Show this help message\n",
      "  /stats         - Request server statistics\n",
      "  /cachetest N   - Send N messages to test cache (e.g., /cachetest 20)\n",
      "\n" ]

/-- The record for a line of text. -/
def textRecord (user text : String) (now : Int64) : Record := .make .text user text now

/-- Sends the lines of a cache test. -/
def sendTests (t : Terminal) (now : Int64) (count : Nat) : Terminal :=
  (List.range count).foldl
    (fun t i => t.send (textRecord t.user ("Cache test message #" ++ toString (i + 1)) now)) t

/-- Does what a command says. -/
def obey (t : Terminal) (now : Int64) : Command → Terminal
  | .quit => t.finish .well
  | .help => (t.print helpText).prompt
  | .nothing => t.prompt
  | .wrong why => (t.print ("[ERROR] " ++ why.message ++ "\n")).prompt
  | .stats =>
    ((t.send (.make .status t.user "" now)).print
      "Requesting statistics from server...\n").prompt
  | .cacheTest n =>
    let t := t.print ("Sending " ++ toString n ++ " test messages to fill cache...\n")
    ((t.sendTests now n).print
      ("Sent " ++ toString n ++ " test messages. Use /stats to see cache statistics.\n")).prompt
  | .say text =>
    let t :=
      if maxPayloadBytes < text.utf8ByteSize then
        t.print ("[WARNING] Message too long, truncating to " ++ toString maxPayloadBytes
          ++ " characters\n")
      else t
    (t.send (textRecord t.user text now)).prompt

/-- Shows a record that came; kinds that are nobody's business are not shown. -/
def display (t : Terminal) (r : Record) : Terminal :=
  let time := "\n[" ++ timeOfDay r.timestamp ++ "] "
  match r.kind with
  | .text => (t.print (time ++ r.sender ++ ": " ++ r.payload ++ "\n")).prompt
  | .join => (t.print (time ++ ">>> " ++ r.payload ++ "\n")).prompt
  | .leave => (t.print (time ++ "<<< " ++ r.payload ++ "\n")).prompt
  | _ => t

/-- What happens to a terminal that has not come to its end. -/
def step (t : Terminal) (now : Int64) (e : TerminalEvent) : Terminal :=
  if t.ended.isSome then t
  else
    match e with
    | .typed line => t.obey now (Command.parse line)
    | .garbled => t.finish .notText
    | .came r => t.display r
    | .serverGone => (t.print "\n[Server disconnected]\n").finish .well
    | .inputOver => t.finish .well

end Terminal

end ChatHub
