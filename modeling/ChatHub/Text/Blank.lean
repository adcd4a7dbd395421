/-!
# White space and control characters

Two properties of characters that the relay asks about: which ones count as blank around a host
name or a number, and which ones a user name may not hold. Both are short tables of the Unicode
standard, so they stand here in full.
-/

namespace ChatHub.Text

/-- Unicode white space. -/
def isBlank (c : Char) : Bool :=
  let n := c.toNat
  (0x09 ≤ n && n ≤ 0x0D) || n == 0x20 || n == 0x85 || n == 0xA0 || n == 0x1680
    || (0x2000 ≤ n && n ≤ 0x200A) || n == 0x2028 || n == 0x2029 || n == 0x202F || n == 0x205F
    || n == 0x3000

/-- The control characters of Unicode: two blocks of 32 and DEL. -/
def isControl (c : Char) : Bool :=
  let n := c.toNat
  n < 0x20 || (0x7F ≤ n && n < 0xA0)

/-- Drops the characters that satisfy `p` from the end. -/
def dropEndWhile (p : Char → Bool) (cs : List Char) : List Char :=
  (cs.reverse.dropWhile p).reverse

/-- Drops blanks from both ends. -/
def strip (cs : List Char) : List Char := dropEndWhile isBlank (cs.dropWhile isBlank)

end ChatHub.Text
