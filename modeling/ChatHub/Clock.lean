/-!
# The time

The relay reads two clocks. One tells the second, for timestamps; it can be set, so it can go back.
The other counts milliseconds from the start and only moves forward. Nothing in the relay advances
either of them, so every operation that needs the time is given a reading.
-/

namespace ChatHub

/-- A reading of both clocks. -/
structure Clock where
  /-- Seconds since 1970. -/
  unix : Int64
  /-- Milliseconds since the start. -/
  ms : Nat
deriving Repr, DecidableEq

end ChatHub
