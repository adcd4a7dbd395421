/-!
# Numbers as text

Reading: an unsigned decimal is an optional plus sign and one or more ASCII digits; leading zeros
are fine, and a value at or beyond the bound is as bad as a letter.

Writing: a percentage has two decimal places, rounded from the exact binary value of the float and
not from a decimal approximation of it; a tie goes to the even neighbour. So 3.125 is `3.12` and
9.375 is `9.38`.
-/

namespace ChatHub.Numeral

/-! ## Reading -/

/-- The digit a character stands for in a base up to 16. -/
def digit? (base : Nat) (c : Char) : Option Nat :=
  let n := c.toNat
  let v :=
    if 48 ≤ n ∧ n ≤ 57 then n - 48
    else if 97 ≤ n ∧ n ≤ 102 then n - 87
    else if 65 ≤ n ∧ n ≤ 70 then n - 55
    else base
  if v < base then some v else none

/-- The value of a non-empty run of digits. -/
def digits? (base : Nat) : List Char → Option Nat
  | [] => none
  | cs => cs.foldl (fun acc c => do return (← acc) * base + (← digit? base c)) (some 0)

/-- An unsigned decimal below `bound`. -/
def unsigned? (bound : Nat) (cs : List Char) : Option Nat := do
  let n ← digits? 10 (match cs with | '+' :: rest => rest | _ => cs)
  if n < bound then some n else none

/-- A port number: 1 to 65535. -/
def port? (s : String) : Option Nat := do
  let n ← unsigned? 65536 s.toList
  if n = 0 then none else some n

/-! ## Writing -/

/-- `num / den` rounded to the nearest whole number, a tie to the even one. -/
def roundDiv (num den : Nat) : Nat :=
  let q := num / den
  let r := num % den
  if 2 * r < den then q
  else if den < 2 * r then q + 1
  else if q % 2 = 0 then q
  else q + 1

/-- `m · 2^e` in hundredths, rounded. -/
def hundredths (m : Nat) (e : Int) : Nat :=
  if 0 ≤ e then m * Nat.pow 2 e.toNat * 100 else roundDiv (m * 100) (Nat.pow 2 (-e).toNat)

/-- The bit above the 52 bits of a double's mantissa. -/
def hiddenBit : Nat := 4503599627370496

/-- The whole number and the exponent whose product `m · 2^e` is a finite double without its
sign. -/
def significand (bits : Nat) : Nat × Int :=
  let mantissa := bits % hiddenBit
  let exponent : Nat := bits / hiddenBit % 2048
  if exponent = 0 then (mantissa, -1074) else (hiddenBit + mantissa, Int.ofNat exponent - 1075)

/-- A number of hundredths with its point. -/
def withPoint (n : Nat) : String :=
  let part := n % 100
  toString (n / 100) ++ "." ++ (if part < 10 then "0" else "") ++ toString part

/-- A float that is not negative, with two decimal places. -/
def twoPlaces (x : Float) : String :=
  let (m, e) := significand x.toBits.toNat
  withPoint (hundredths m e)

end ChatHub.Numeral
