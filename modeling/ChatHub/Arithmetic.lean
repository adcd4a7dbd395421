/-!
# Sums and differences of words

The relay counts in words and reckons with seconds that are words, and a sum or a difference may not
fit in one. What becomes of it then is settled when the relay is built. A build for use lets it wrap
around. A build for tests checks it, and a number that does not fit is a failure of the program:
what it was needed for breaks off there, and what was done before stays done.
-/

namespace ChatHub

/-- What a build of the relay does with a number that no word holds. -/
inductive Arithmetic where
  /-- It wraps around. -/
  | wrapping
  /-- There is none, and what it was needed for breaks off. -/
  | checked
deriving Repr, DecidableEq

namespace Arithmetic

/-- How many seconds one is behind another. -/
def sub? (a : Arithmetic) (x y : Int64) : Option Int64 :=
  match a with
  | wrapping => some (x - y)
  | checked =>
    let d := x.toInt - y.toInt
    if Int64.minValue.toInt ≤ d ∧ d ≤ Int64.maxValue.toInt then some (x - y) else none

/-- Two counts in one. -/
def add? (a : Arithmetic) (x y : UInt64) : Option UInt64 :=
  match a with
  | wrapping => some (x + y)
  | checked => if x.toNat + y.toNat < UInt64.size then some (x + y) else none

theorem sub?_of_fits (a : Arithmetic) {x y : Int64}
    (hlow : Int64.minValue.toInt ≤ x.toInt - y.toInt)
    (hhigh : x.toInt - y.toInt ≤ Int64.maxValue.toInt) : a.sub? x y = some (x - y) := by
  cases a with
  | wrapping => rfl
  | checked => exact if_pos ⟨hlow, hhigh⟩

theorem checked_sub?_of_lt {x y : Int64} (h : x.toInt - y.toInt < Int64.minValue.toInt) :
    checked.sub? x y = none :=
  if_neg fun hfits => Int.not_lt.2 hfits.1 h

/-- A sum is the same in every build that has it. -/
theorem eq_add_of_add? {a : Arithmetic} {x y z : UInt64} (h : a.add? x y = some z) : z = x + y := by
  cases a with
  | wrapping => exact (Option.some.inj h).symm
  | checked =>
    unfold add? at h
    dsimp only at h
    split at h
    · exact (Option.some.inj h).symm
    · cases h

theorem add?_of_fits (a : Arithmetic) {x y : UInt64} (h : x.toNat + y.toNat < UInt64.size) :
    a.add? x y = some (x + y) := by
  cases a with
  | wrapping => rfl
  | checked => exact if_pos h

theorem checked_add?_of_le {x y : UInt64} (h : UInt64.size ≤ x.toNat + y.toNat) :
    checked.add? x y = none :=
  if_neg (Nat.not_lt.2 h)

end Arithmetic

end ChatHub
