import ChatHub.Text.Truncation
import ChatHub.Proofs.Text.Utf8
/-!
# A cut text keeps as much as fits

Cutting steps back from the limit to a boundary between characters. The position it stops at is the
number of bytes of what it keeps, and whatever begins the text and ends at that position is what it
keeps (`upTo?_eq_some_iff`). So a cut text fits (`utf8ByteSize_truncate_le`), and it is the longest
beginning that does (`longestWithin_truncate`).

Being the longest beginning within a limit says which text it is. Cutting what was cut is therefore
cutting once, to the smaller of the two limits (`truncate_truncate`).
-/

namespace ChatHub.Text

open Utf8 (encodeChars encodeChars_cons length_encodeChar length_encodeChars length_encode)

/-! ## Beginnings and their bytes -/

theorem length_encodeChars_cons (c : Char) (cs : List Char) :
    (encodeChars (c :: cs)).length = c.utf8Size + (encodeChars cs).length := by
  rw [encodeChars_cons, List.length_append, length_encodeChar]

theorem length_le_of_begins {xs ys : List Char} (h : xs <+: ys) :
    (encodeChars xs).length ≤ (encodeChars ys).length := by
  obtain ⟨rest, rfl⟩ := h
  rw [encodeChars, encodeChars, List.flatMap_append, List.length_append]
  exact Nat.le_add_right ..

/-- Of two beginnings of one text, the one with fewer bytes begins the other. -/
theorem begins_of_length_le {xs ys cs : List Char} (hx : xs <+: cs) (hy : ys <+: cs)
    (hle : (encodeChars xs).length ≤ (encodeChars ys).length) : xs <+: ys := by
  rcases List.prefix_or_prefix_of_prefix hx hy with h | ⟨rest, rfl⟩
  · exact h
  · cases rest with
    | nil => exact (List.append_nil ys).symm ▸ List.prefix_rfl
    | cons c rest =>
      -- Every character takes a byte, so nothing can follow.
      have hpos := c.utf8Size_pos
      rw [encodeChars, List.flatMap_append, List.length_append] at hle
      have hrest := length_encodeChars_cons c rest
      rw [encodeChars] at hrest hle
      omega

/-! ## The search -/

theorem upTo?_zero (cs : List Char) : upTo? 0 cs = some [] := by
  cases cs <;> rfl

/-- What stands before a byte position is the beginning with so many bytes. -/
theorem upTo?_eq_some_iff {n : Nat} {cs kept : List Char} :
    upTo? n cs = some kept ↔ kept <+: cs ∧ (encodeChars kept).length = n := by
  induction cs generalizing n kept with
  | nil =>
    rw [List.prefix_nil]
    cases n with
    | zero =>
      rw [upTo?_zero, Option.some_inj, eq_comm]
      exact ⟨fun h => ⟨h, h ▸ rfl⟩, And.left⟩
    | succ n =>
      refine ⟨nofun, ?_⟩
      rintro ⟨rfl, h⟩
      cases h
  | cons c cs ih =>
    have hpos := c.utf8Size_pos
    cases kept with
    | nil =>
      refine ⟨fun h => ⟨List.nil_prefix, ?_⟩, ?_⟩
      · cases n with
        | zero => rfl
        | succ n =>
          rw [upTo?] at h
          split at h
          · obtain ⟨rest, -, h⟩ := Option.map_eq_some_iff.mp h
            cases h
          · cases h
      · rintro ⟨-, rfl⟩
        exact upTo?_zero _
    | cons d ds =>
      rw [length_encodeChars_cons, List.cons_prefix_cons]
      cases n with
      | zero =>
        have hd := d.utf8Size_pos
        refine ⟨nofun, fun h => ?_⟩
        omega
      | succ n =>
        rw [upTo?]
        split
        · rename_i hle
          rw [Option.map_eq_some_iff]
          constructor
          · rintro ⟨rest, hrest, h⟩
            cases h
            obtain ⟨hbegins, hlen⟩ := ih.mp hrest
            exact ⟨⟨rfl, hbegins⟩, by omega⟩
          · rintro ⟨⟨rfl, hbegins⟩, hlen⟩
            exact ⟨ds, ih.mpr ⟨hbegins, by omega⟩, rfl⟩
        · rename_i hlt
          refine ⟨nofun, ?_⟩
          rintro ⟨⟨rfl, -⟩, hlen⟩
          omega

/-- The search finds a boundary, none beyond where it began, and there is none in between. -/
theorem backFrom?_spec (cs : List Char) (n : Nat) :
    ∃ kept, backFrom? cs n = some kept ∧ kept <+: cs ∧ (encodeChars kept).length ≤ n ∧
      ∀ xs, xs <+: cs → (encodeChars xs).length ≤ n → xs <+: kept := by
  induction n with
  | zero =>
    refine ⟨[], upTo?_zero cs, List.nil_prefix, Nat.le_refl 0, fun xs hxs hle => ?_⟩
    exact begins_of_length_le hxs List.nil_prefix hle
  | succ n ih =>
    rw [backFrom?]
    cases h : upTo? (n + 1) cs with
    | some kept =>
      obtain ⟨hbegins, hlen⟩ := upTo?_eq_some_iff.mp h
      refine ⟨kept, rfl, hbegins, Nat.le_of_eq hlen, fun xs hxs hle => ?_⟩
      exact begins_of_length_le hxs hbegins (hlen ▸ hle)
    | none =>
      obtain ⟨kept, hkept, hbegins, hle, hlongest⟩ := ih
      refine ⟨kept, hkept, hbegins, Nat.le_succ_of_le hle, fun xs hxs hxle => ?_⟩
      -- A beginning that ends exactly here would have been found here.
      have hne : (encodeChars xs).length ≠ n + 1 := fun heq =>
        Option.some_ne_none xs ((upTo?_eq_some_iff.mpr ⟨hxs, heq⟩).symm.trans h)
      exact hlongest xs hxs (by omega)

/-! ## The longest beginning that fits -/

/-- `p` is the longest beginning of `s` that splits no character and takes at most `max` bytes. -/
structure LongestWithin (s : String) (max : Nat) (p : String) : Prop where
  begins : p.toList <+: s.toList
  fits : p.utf8ByteSize ≤ max
  longest : ∀ q : String, q.toList <+: s.toList → q.utf8ByteSize ≤ max → q.toList <+: p.toList

/-- It is what the search finds. -/
theorem exists_longestWithin (s : String) (max : Nat) :
    ∃ kept, backFrom? s.toList max = some kept ∧ LongestWithin s max (String.ofList kept) := by
  obtain ⟨kept, hkept, hbegins, hle, hlongest⟩ := backFrom?_spec s.toList max
  refine ⟨kept, hkept, by rwa [String.toList_ofList], length_encodeChars kept ▸ hle,
    fun q hq hqle => ?_⟩
  rw [String.toList_ofList]
  exact hlongest q.toList hq (length_encode q ▸ hqle)

theorem longestWithin_truncate (s : String) (max : Nat) : LongestWithin s max (truncate s max) := by
  rw [truncate]
  split
  · rename_i hfits
    exact ⟨List.prefix_rfl, hfits, fun _ hq _ => hq⟩
  · obtain ⟨kept, hkept, hlongest⟩ := exists_longestWithin s max
    rwa [hkept]

theorem utf8ByteSize_truncate_le (s : String) (max : Nat) :
    (truncate s max).utf8ByteSize ≤ max := (longestWithin_truncate s max).fits

theorem truncate_of_le {s : String} {max : Nat} (h : s.utf8ByteSize ≤ max) : truncate s max = s :=
  if_pos h

namespace LongestWithin

/-- There is only one. -/
theorem unique {s p q : String} {max : Nat} (hp : LongestWithin s max p)
    (hq : LongestWithin s max q) : p = q := by
  have hpq := hq.longest p hp.begins hp.fits
  have hqp := hp.longest q hq.begins hq.fits
  exact String.toList_inj.mp (hpq.eq_of_length (Nat.le_antisymm hpq.length_le hqp.length_le))

/-- The longest beginning within a limit of the longest beginning within another. -/
theorem within {s p q : String} {a b : Nat} (hp : LongestWithin s a p) (hq : LongestWithin p b q) :
    LongestWithin s (min a b) q where
  begins := hq.begins.trans hp.begins
  fits := by
    have hle : q.utf8ByteSize ≤ p.utf8ByteSize := by
      rw [← length_encode, ← length_encode]
      exact length_le_of_begins hq.begins
    exact Nat.le_min.mpr ⟨Nat.le_trans hle hp.fits, hq.fits⟩
  longest r hr hle := by
    obtain ⟨ha, hb⟩ := Nat.le_min.mp hle
    exact hq.longest r (hp.longest r hr ha) hb

end LongestWithin

theorem truncate_truncate (s : String) (a b : Nat) :
    truncate (truncate s a) b = truncate s (min a b) :=
  ((longestWithin_truncate s a).within (longestWithin_truncate (truncate s a) b)).unique
    (longestWithin_truncate s (min a b))

end ChatHub.Text
