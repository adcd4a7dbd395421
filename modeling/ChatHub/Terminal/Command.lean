import ChatHub.Text.Blank
import ChatHub.Text.Numeral
/-!
# What a typed line means

Most lines are said to everybody. A few words, alone on their line and spelled exactly so, are
commands; one of them takes a number. A word that is nearly a command is just text.
-/

namespace ChatHub

/-- What is wrong with the number of a cache test. -/
inductive BadCount where
  | outOfRange
  | notANumber
deriving Repr, DecidableEq

namespace BadCount

/-- The text of the complaint. -/
def message : BadCount → String
  | outOfRange => "Number of messages must be between 1 and 100"
  | notANumber => "Invalid number format. Usage: /cachetest N"

end BadCount

/-- The meaning of a line. -/
inductive Command where
  | quit
  | help
  | stats
  /-- Sends so many lines to fill the cache. -/
  | cacheTest (count : Nat)
  | say (text : String)
  | nothing
  | wrong (why : BadCount)
deriving Repr, DecidableEq

namespace Command

/-- How many lines a cache test sends that names no number. -/
def standardCount : Nat := 20

/-- The most lines that a cache test sends. -/
def maxCount : Nat := 100

/-- A number at or beyond this bound is none: numbers have 64 bits. -/
def countBound : Nat := 18446744073709551616

/-- What comes before the number of a cache test. -/
def cacheTestWord : String := "/cachetest "

/-- What follows a beginning, if the list begins so. -/
def after? : List Char → List Char → Option (List Char)
  | [], cs => some cs
  | _ :: _, [] => none
  | p :: ps, c :: cs => if p = c then after? ps cs else none

/-- A cache test whose number is written so. -/
def ofCount (arg : List Char) : Command :=
  match Numeral.unsigned? countBound (Text.strip arg) with
  | some n => if 1 ≤ n ∧ n ≤ maxCount then .cacheTest n else .wrong .outOfRange
  | none => .wrong .notANumber

/-- The meaning of a line. -/
def parse (line : String) : Command :=
  if line = "/quit" ∨ line = "/exit" then .quit
  else if line = "/help" then .help
  else if line = "/stats" then .stats
  else if line = "/cachetest" then .cacheTest standardCount
  else if line = "" then .nothing
  else
    match after? cacheTestWord.toList line.toList with
    | some arg => ofCount arg
    | none => .say line

end Command

end ChatHub
