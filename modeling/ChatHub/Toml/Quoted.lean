import ChatHub.Text.Numeral
/-!
# Text in quotes

Four forms: in double quotes backslashes escape, in single quotes they do not, and either quote
tripled lets the text run over several lines. Each reader here starts behind the opening quotes and
gives the text and what follows the closing quotes.

A tripled form drops a line break right behind its opening, and may hold one or two of its quotes
right before its closing.
-/

namespace ChatHub.Toml

/-- Whether a character may stand in a text on one line: anything but control characters, and the
tab. -/
def isPlain (c : Char) : Bool :=
  c == '\t' || (0x20 ≤ c.toNat && c.toNat != 0x7F)

/-- The character of an escape that is one letter. -/
def letterEscape? (c : Char) : Option Char :=
  if c = 'b' then some (Char.ofNat 8)
  else if c = 't' then some '\t'
  else if c = 'n' then some '\n'
  else if c = 'f' then some (Char.ofNat 12)
  else if c = 'r' then some '\r'
  else if c = 'e' then some (Char.ofNat 27)
  else if c = '"' then some '"'
  else if c = '\\' then some '\\'
  else none

/-- How many hexadecimal digits follow an escape letter. -/
def hexLength? (c : Char) : Option Nat :=
  if c = 'x' then some 2 else if c = 'u' then some 4 else if c = 'U' then some 8 else none

/-- The character with this number, if there is one. -/
def scalarValue? (n : Nat) : Option Char :=
  if n.isValidChar then some (Char.ofNat n) else none

/-- The character of an escape, behind its backslash, and what follows. -/
def escape? : List Char → Option (Char × List Char)
  | [] => none
  | c :: rest =>
    match letterEscape? c with
    | some e => some (e, rest)
    | none => do
      let len ← hexLength? c
      let digits := rest.take len
      if digits.length < len then none
      else
        let n ← Numeral.digits? 16 digits
        return (← scalarValue? n, rest.drop len)

/-- Reads text in double quotes. -/
def basic? : (fuel : Nat) → List Char → Option (List Char × List Char)
  | 0, _ => none
  | fuel + 1, cs =>
    match cs with
    | [] => none
    | '"' :: rest => some ([], rest)
    | '\\' :: rest => do
      let (c, rest) ← escape? rest
      let (text, rest) ← basic? fuel rest
      return (c :: text, rest)
    | c :: rest =>
      if isPlain c then (basic? fuel rest).map fun (text, rest) => (c :: text, rest) else none

/-- Reads text in single quotes. -/
def literal? (cs : List Char) : Option (List Char × List Char) :=
  let text := cs.takeWhile fun c => isPlain c && c != '\''
  match cs.dropWhile fun c => isPlain c && c != '\'' with
  | '\'' :: rest => some (text, rest)
  | _ => none

/-- Drops one line break. -/
def dropBreak : List Char → List Char
  | '\n' :: rest => rest
  | '\r' :: '\n' :: rest => rest
  | cs => cs

/-- Drops blanks and line breaks. -/
def dropSpace (cs : List Char) : List Char :=
  cs.dropWhile fun c => c == ' ' || c == '\t' || c == '\n' || c == '\r'

/-- Whether a backslash here ends its line, with nothing but blanks behind it. -/
def endsLine (cs : List Char) : Bool :=
  match cs.dropWhile fun c => c == ' ' || c == '\t' with
  | '\n' :: _ => true
  | '\r' :: '\n' :: _ => true
  | _ => false

/-- The quotes of a tripled form's closing that belong to its text, and what follows the closing. -/
def closing (quote : Char) (rest : List Char) : List Char × List Char :=
  let extra := Nat.min 2 (rest.takeWhile (· == quote)).length
  (List.replicate extra quote, rest.drop extra)

/-- Reads text in tripled quotes; `escapes` says whether backslashes escape. -/
def longText? (quote : Char) (escapes : Bool) : (fuel : Nat) → List Char →
    Option (List Char × List Char)
  | 0, _ => none
  | fuel + 1, cs =>
    match cs with
    | [] => none
    | c :: rest =>
      if c = quote && rest.take 2 = [quote, quote] then some (closing quote (rest.drop 2))
      else if c = '\\' && escapes then
        if endsLine rest then longText? quote escapes fuel (dropSpace rest)
        else do
          let (e, rest) ← escape? rest
          let (text, rest) ← longText? quote escapes fuel rest
          return (e :: text, rest)
      else if isPlain c || c = '\n' || (c = '\r' && rest.head? = some '\n') then
        (longText? quote escapes fuel rest).map fun (text, rest) => (c :: text, rest)
      else none

/-- Reads text that starts with a quote, on one line or over several. -/
def quoted? (cs : List Char) : Option (String × List Char) :=
  (match cs with
    | '"' :: '"' :: '"' :: rest => longText? '"' true (rest.length + 1) (dropBreak rest)
    | '"' :: rest => basic? (rest.length + 1) rest
    | '\'' :: '\'' :: '\'' :: rest => longText? '\'' false (rest.length + 1) (dropBreak rest)
    | '\'' :: rest => literal? rest
    | _ => none).map fun (text, rest) => (String.ofList text, rest)

end ChatHub.Toml
