/-!
# Cutting text to a number of bytes

Fields on the wire are limited in bytes, and a limit can fall inside a character. `truncate` keeps
the longest prefix that fits without splitting one. It starts at the limit and steps back until it
stands on a boundary; position 0 is always one, so the search never runs out.
-/

namespace ChatHub.Text

/-- The characters before byte position `n`, when a character starts (or the text ends) there. -/
def upTo? : Nat → List Char → Option (List Char)
  | 0, _ => some []
  | _ + 1, [] => none
  | n + 1, c :: cs =>
    if c.utf8Size ≤ n + 1 then (upTo? (n + 1 - c.utf8Size) cs).map (c :: ·) else none

/-- The characters before the last boundary at or below byte position `n`. `none` would say that
the search passed position 0. -/
def backFrom? (cs : List Char) : Nat → Option (List Char)
  | 0 => upTo? 0 cs
  | n + 1 =>
    match upTo? (n + 1) cs with
    | some kept => some kept
    | none => backFrom? cs n

/-- The longest prefix of `s` that has at most `max` bytes and splits no character. -/
def truncate (s : String) (max : Nat) : String :=
  if s.utf8ByteSize ≤ max then s
  else
    match backFrom? s.toList max with
    | some kept => String.ofList kept
    | none => ""

end ChatHub.Text
