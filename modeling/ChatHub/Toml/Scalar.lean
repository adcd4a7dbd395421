import ChatHub.Text.Numeral
import ChatHub.Toml.Value
/-!
# Scalars without quotes

Integers, floats, truth values, dates and times are runs of letters, digits and a few marks. The
run is cut out first, and then read as a whole as one of these, so nothing here has a rest.

Underscores may stand between two digits of a number and nowhere else. A decimal integer has no
leading zeros; a hexadecimal, octal or binary one has no sign.
-/

namespace ChatHub.Toml

/-- Whether a character is an ASCII digit. -/
def isDigit (c : Char) : Bool := '0' ≤ c && c ≤ '9'

/-- Drops the underscores of a run of digits, each of which must stand between two digits. -/
def ungroup? (base : Nat) : List Char → Option (List Char)
  | [] => none
  | [c] => if (Numeral.digit? base c).isSome then some [c] else none
  | c :: '_' :: rest =>
    if (Numeral.digit? base c).isSome then (ungroup? base rest).map (c :: ·) else none
  | c :: rest =>
    if (Numeral.digit? base c).isSome then (ungroup? base rest).map (c :: ·) else none

/-- The number of a grouped run of digits. -/
def grouped? (base : Nat) (cs : List Char) : Option Nat :=
  (ungroup? base cs).bind (Numeral.digits? base)

/-- Splits off a sign; `true` for minus. -/
def sign : List Char → Bool × List Char
  | '+' :: rest => (false, rest)
  | '-' :: rest => (true, rest)
  | cs => (false, cs)

/-- A decimal number without leading zeros. -/
def plain? (cs : List Char) : Option Nat :=
  match cs with
  | '0' :: _ :: _ => none
  | _ => grouped? 10 cs

/-- An integer. -/
def integer? (cs : List Char) : Option Int :=
  match cs with
  | '0' :: 'x' :: rest => (grouped? 16 rest).map Int.ofNat
  | '0' :: 'o' :: rest => (grouped? 8 rest).map Int.ofNat
  | '0' :: 'b' :: rest => (grouped? 2 rest).map Int.ofNat
  | _ =>
    let (negative, rest) := sign cs
    (plain? rest).map fun n => if negative then -(n : Int) else (n : Int)

/-! ## Floats -/

/-- Whether `m · 10^e` rounds to a finite double. Far beyond the range the powers are not worked
out. -/
def fitsDouble (m : Nat) (e : Int) : Bool :=
  if m = 0 || e < -400 - (Nat.toDigits 10 m).length then true
  else if 400 < e then false
  else
    let limit := Nat.pow 2 1024 - Nat.pow 2 970
    if 0 ≤ e then m * Nat.pow 10 e.toNat < limit else m < limit * Nat.pow 10 (-e).toNat

/-- The exponent of a float; none at all is 0. -/
def exponent? : List Char → Option Int
  | [] => some 0
  | e :: rest =>
    if e = 'e' || e = 'E' then
      let (negative, digits) := sign rest
      (grouped? 10 digits).map fun n => if negative then -(n : Int) else (n : Int)
    else none

/-- Whether a character starts an exponent. -/
def startsExponent (c : Char) : Bool := c == 'e' || c == 'E'

/-- A float; says whether a double can hold it. -/
def float? (cs : List Char) : Option Bool :=
  let (_, rest) := sign cs
  if rest = "inf".toList || rest = "nan".toList then some true
  else do
    let whole := rest.takeWhile fun c => isDigit c || c == '_'
    let _ ← plain? whole
    let whole ← ungroup? 10 whole
    match rest.dropWhile fun c => isDigit c || c == '_' with
    | '.' :: rest =>
      let part ← ungroup? 10 (rest.takeWhile (!startsExponent ·))
      let e ← exponent? (rest.dropWhile (!startsExponent ·))
      let m ← Numeral.digits? 10 (whole ++ part)
      return fitsDouble m (e - part.length)
    | rest =>
      if rest.isEmpty then none
      else
        let e ← exponent? rest
        let m ← Numeral.digits? 10 whole
        return fitsDouble m e

/-! ## Dates and times -/

/-- A number of exactly two digits. -/
def twoDigits? : List Char → Option (Nat × List Char)
  | a :: b :: rest => do return (← Numeral.digits? 10 [a, b], rest)
  | _ => none

/-- The days of a month. -/
def daysIn (year month : Nat) : Nat :=
  if month = 2 then
    if year % 4 = 0 && (year % 100 != 0 || year % 400 = 0) then 29 else 28
  else if month = 4 || month = 6 || month = 9 || month = 11 then 30
  else 31

/-- Reads a date; gives what follows it. -/
def date? (cs : List Char) : Option (List Char) :=
  match cs with
  | a :: b :: c :: d :: '-' :: rest => do
    let year ← Numeral.digits? 10 [a, b, c, d]
    let (month, rest) ← twoDigits? rest
    match rest with
    | '-' :: rest =>
      let (day, rest) ← twoDigits? rest
      if 1 ≤ month && month ≤ 12 && 1 ≤ day && day ≤ daysIn year month then some rest else none
    | _ => none
  | _ => none

/-- Reads the fraction of a second, if there is one; gives what follows it. -/
def fraction? : List Char → Option (List Char)
  | '.' :: c :: rest => if isDigit c then some (rest.dropWhile isDigit) else none
  | '.' :: [] => none
  | cs => some cs

/-- Reads a time, with or without seconds; gives what follows it. -/
def time? (cs : List Char) : Option (List Char) := do
  let (hour, rest) ← twoDigits? cs
  match rest with
  | ':' :: rest =>
    let (minute, rest) ← twoDigits? rest
    if hour < 24 && minute < 60 then
      match rest with
      | ':' :: rest =>
        let (second, rest) ← twoDigits? rest
        if second ≤ 60 then fraction? rest else none
      | _ => some rest
    else none
  | _ => none

/-- Whether this is the offset of a time, or nothing. -/
def isOffset : List Char → Bool
  | [] => true
  | ['Z'] => true
  | ['z'] => true
  | mark :: rest =>
    (mark = '+' || mark = '-') &&
      match twoDigits? rest with
      | some (hour, ':' :: rest) =>
        match twoDigits? rest with
        | some (minute, []) => hour < 24 && minute < 60
        | _ => false
      | _ => false

/-- Whether this is a date, a time, or a date and a time. -/
def isMoment (cs : List Char) : Bool :=
  match date? cs with
  | some [] => true
  | some (mark :: rest) =>
    (mark = 'T' || mark = 't' || mark = ' ') &&
      match time? rest with
      | some rest => isOffset rest
      | none => false
  | none =>
    match time? cs with
    | some [] => true
    | _ => false

/-! ## All of them -/

/-- The value of a run without quotes. -/
def scalar? (cs : List Char) : Option Value :=
  if cs = "true".toList then some (.flag true)
  else if cs = "false".toList then some (.flag false)
  else
    match integer? cs with
    | some n => some (.integer n)
    | none =>
      match float? cs with
      | some fits => some (.float fits)
      | none => if isMoment cs then some .moment else none

end ChatHub.Toml
