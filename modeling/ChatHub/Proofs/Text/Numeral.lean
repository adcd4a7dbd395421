import ChatHub.Text.Numeral
import Mathlib.Data.Nat.Digits.Defs
/-!
# Which texts are numbers

A number is written with digits, one at least, and the value of a digit depends on how many follow
it. Reading goes the other way: it starts with the first digit, and multiplies what it has by ten
whenever another one comes. Both give the same number (`digits?_eq_some_iff`), however many digits
there are, and a single character that is no digit spoils all of them, wherever it stands.

What is read is therefore exactly the decimals below the bound (`unsigned?_eq_some_iff`). A sign
belongs to a decimal only in front and only once, so that a decimal writes one number.
-/

namespace ChatHub.Numeral

variable {cs ds : List Char} {n : Nat}

/-! ## A run of digits -/

/-- One digit at least, and nothing else. -/
structure IsRun (ds : List Char) : Prop where
  nonempty : ds ≠ []
  digits : ∀ c ∈ ds, c.isDigit = true

/-- What a digit counts for on its own. -/
def worth (c : Char) : Nat := c.toNat - '0'.toNat

/-- The number that a run of digits writes. Each digit counts ten times what it would count one
place further back. -/
def value (ds : List Char) : Nat := Nat.ofDigits 10 (ds.reverse.map worth)

theorem value_cons (c : Char) (ds : List Char) :
    value (c :: ds) = worth c * 10 ^ ds.length + value ds := by
  rw [value, List.reverse_cons, List.map_append, Nat.ofDigits_append, List.map_singleton,
    Nat.ofDigits_singleton, List.length_map, List.length_reverse, ← value, Nat.mul_comm,
    Nat.add_comm]

theorem digit?_ten (c : Char) : digit? 10 c = if c.isDigit then some (worth c) else none := by
  have hdigit : c.isDigit = true ↔ 48 ≤ c.toNat ∧ c.toNat ≤ 57 := Char.isDigit_iff_toNat
  have hworth : worth c = c.toNat - 48 := rfl
  rw [digit?]
  grind

/-- What reading a run has when another character comes. -/
def push (acc : Option Nat) (c : Char) : Option Nat := do return (← acc) * 10 + (← digit? 10 c)

theorem push_some (start : Nat) (c : Char) :
    push (some start) c = if c.isDigit then some (start * 10 + worth c) else none := by
  rw [push, digit?_ten]
  split <;> rfl

theorem foldl_push_none (ds : List Char) : ds.foldl push none = none := by
  induction ds with
  | nil => rfl
  | cons c ds ih => exact ih

/-- Reading goes on from the number that it has. -/
theorem foldl_push_eq_some_iff {start : Nat} :
    ds.foldl push (some start) = some n ↔
      (∀ c ∈ ds, c.isDigit = true) ∧ n = start * 10 ^ ds.length + value ds := by
  induction ds generalizing start with
  | nil =>
    have hnothing : start * 10 ^ ([] : List Char).length + value [] = start := Nat.mul_one start
    rw [List.foldl_nil, Option.some_inj, hnothing, eq_comm]
    exact (and_iff_right nofun).symm
  | cons c ds ih =>
    rw [List.foldl_cons, push_some, List.forall_mem_cons]
    by_cases hc : c.isDigit = true
    · have hshift : (start * 10 + worth c) * 10 ^ ds.length + value ds =
          start * 10 ^ (c :: ds).length + value (c :: ds) := by
        rw [value_cons, List.length_cons, Nat.pow_succ]
        ring
      rw [if_pos hc, ih, hshift, and_iff_right hc]
    · rw [if_neg hc, foldl_push_none]
      exact iff_of_false nofun fun h => hc h.1.1

theorem digits?_eq_some_iff : digits? 10 ds = some n ↔ IsRun ds ∧ n = value ds := by
  cases ds with
  | nil => exact iff_of_false nofun fun h => h.1.nonempty rfl
  | cons c ds =>
    have hread : digits? 10 (c :: ds) = (c :: ds).foldl push (some 0) := rfl
    rw [hread, foldl_push_eq_some_iff, Nat.zero_mul, Nat.zero_add]
    exact and_congr_left' ⟨fun h => ⟨List.cons_ne_nil c ds, h⟩, IsRun.digits⟩

/-! ## With or without a sign -/

/-- These characters are a decimal, and it writes this number. -/
inductive Decimal : List Char → Nat → Prop
  | plain {ds : List Char} : IsRun ds → Decimal ds (value ds)
  | signed {ds : List Char} : IsRun ds → Decimal ('+' :: ds) (value ds)

theorem not_isRun_plus (ds : List Char) : ¬IsRun ('+' :: ds) := fun h =>
  absurd (h.digits '+' List.mem_cons_self) (by decide)

theorem decimal_plus_iff : Decimal ('+' :: ds) n ↔ IsRun ds ∧ n = value ds := by
  constructor
  · intro h
    cases h with
    | plain hrun => exact absurd hrun (not_isRun_plus ds)
    | signed hrun => exact ⟨hrun, rfl⟩
  · rintro ⟨hrun, rfl⟩
    exact .signed hrun

theorem decimal_iff_of_plain (hplain : ∀ rest, cs ≠ '+' :: rest) :
    Decimal cs n ↔ IsRun cs ∧ n = value cs := by
  constructor
  · intro h
    cases h with
    | plain hrun => exact ⟨hrun, rfl⟩
    | signed hrun => exact absurd rfl (hplain _)
  · rintro ⟨hrun, rfl⟩
    exact .plain hrun

/-- What is read is the decimals below the bound. -/
theorem unsigned?_eq_some_iff {bound : Nat} :
    unsigned? bound cs = some n ↔ Decimal cs n ∧ n < bound := by
  have hbelow : ∀ read : Option Nat,
      (read.bind fun m => if m < bound then some m else none) = some n ↔
        read = some n ∧ n < bound := by
    intro read
    rw [Option.bind_eq_some_iff]
    grind
  unfold unsigned?
  rw [Option.bind_eq_bind, hbelow, digits?_eq_some_iff]
  split
  · rw [decimal_plus_iff]
  · rename_i hplain
    rw [decimal_iff_of_plain hplain]

/-- A decimal writes one number. -/
theorem Decimal.unique {m : Nat} (hm : Decimal cs m) (hn : Decimal cs n) : m = n := by
  have hreadM : unsigned? (m + n + 1) cs = some m := unsigned?_eq_some_iff.mpr ⟨hm, by omega⟩
  have hreadN : unsigned? (m + n + 1) cs = some n := unsigned?_eq_some_iff.mpr ⟨hn, by omega⟩
  exact Option.some.inj (hreadM.symm.trans hreadN)

end ChatHub.Numeral
