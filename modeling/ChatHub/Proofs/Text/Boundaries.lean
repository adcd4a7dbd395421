import ChatHub.Proofs.Text.Truncation
/-!
# Where a text can be cut

Whether a text can be cut at some byte is seen from that byte alone: only the first byte of a
character is not a continuation. Looking at the bytes and counting characters therefore find the
same positions (`isBoundary_iff`), and a search that goes back one byte at a time, as long as it
sees continuations, stops at the end of the longest beginning that fits (`LongestWithin.stopsAt`).
It always stops, if not before then at position 0 (`backFrom?_eq`).
-/

namespace ChatHub

namespace Utf8

/-- Of the bytes of a character, only the first is not a continuation. -/
theorem encodeChar_continues (c : Char) :
    ∃ lead tail, encodeChar c = lead :: tail ∧ isContinuation lead.toNat = false ∧
      ∀ b ∈ tail, isContinuation b.toNat = true := by
  have hvalid := toNat_valid c
  have hlead : ∀ n < 256, n < 0x80 ∨ 0xC0 ≤ n → isContinuation n.toUInt8.toNat = false := by
    intro n hn hout
    rw [toNat_toUInt8 hn]
    grind [isContinuation]
  have htail : ∀ (n : Nat) {bs : List UInt8}, (∀ b ∈ bs, isContinuation b.toNat = true) →
      ∀ b ∈ (0x80 + n % 64).toUInt8 :: bs, isContinuation b.toNat = true := by
    intro n bs hbs
    refine List.forall_mem_cons.mpr ⟨?_, hbs⟩
    rw [toNat_toUInt8 (by omega)]
    exact isContinuation_of n
  have hnone := List.forall_mem_nil fun b : UInt8 => isContinuation b.toNat = true
  unfold encodeChar
  generalize c.toNat = n at hvalid
  dsimp only
  split
  · exact ⟨_, _, rfl, hlead _ (by omega) (by omega), hnone⟩
  · split
    · exact ⟨_, _, rfl, hlead _ (by omega) (by omega), htail _ hnone⟩
    · split
      · exact ⟨_, _, rfl, hlead _ (by omega) (by omega), htail _ (htail _ hnone)⟩
      · exact ⟨_, _, rfl, hlead _ (by omega) (by omega), htail _ (htail _ (htail _ hnone))⟩

end Utf8

namespace Text

open Utf8 (encodeChars encodeChars_cons encodeChar_continues isContinuation length_encode)

/-! ## Boundaries -/

/-- The text with these bytes can be cut at position `n`: it begins or ends there, or the byte there
begins a character. -/
def IsBoundary (bytes : List UInt8) (n : Nat) : Prop :=
  n = 0 ∨ n = bytes.length ∨ ∃ b, bytes[n]? = some b ∧ isContinuation b.toNat = false

/-- Where a byte is no continuation, some characters end. -/
theorem exists_begins_of_getElem? {cs : List Char} {n : Nat} {b : UInt8}
    (hb : (encodeChars cs)[n]? = some b) (hfirst : isContinuation b.toNat = false) :
    ∃ xs, xs <+: cs ∧ (encodeChars xs).length = n := by
  induction cs generalizing n with
  | nil => cases hb
  | cons c cs ih =>
    obtain ⟨lead, tail, hbytes, -, htail⟩ := encodeChar_continues c
    rw [encodeChars_cons] at hb
    rcases Nat.lt_or_ge n (Utf8.encodeChar c).length with hlt | hge
    · -- Inside a character, only its beginning will do.
      rw [List.getElem?_append_left hlt, hbytes] at hb
      cases n with
      | zero => exact ⟨[], List.nil_prefix, rfl⟩
      | succ n =>
        have hmem : b ∈ tail := List.mem_of_getElem? hb
        exact absurd (htail b hmem) (Bool.eq_false_iff.mp hfirst)
    · rw [List.getElem?_append_right hge] at hb
      obtain ⟨xs, hbegins, hlength⟩ := ih hb
      refine ⟨c :: xs, List.cons_prefix_cons.mpr ⟨rfl, hbegins⟩, ?_⟩
      rw [encodeChars_cons, List.length_append, hlength, Nat.add_sub_cancel' hge]

/-- A text can be cut where some of its characters end, and nowhere else. -/
theorem isBoundary_iff {cs : List Char} {n : Nat} :
    IsBoundary (encodeChars cs) n ↔ ∃ xs, xs <+: cs ∧ (encodeChars xs).length = n := by
  constructor
  · rintro (rfl | rfl | ⟨b, hb, hfirst⟩)
    · exact ⟨[], List.nil_prefix, rfl⟩
    · exact ⟨cs, List.prefix_rfl, rfl⟩
    · exact exists_begins_of_getElem? hb hfirst
  · rintro ⟨xs, ⟨rest, rfl⟩, rfl⟩
    rw [IsBoundary, encodeChars, encodeChars, List.flatMap_append]
    cases rest with
    | nil => exact .inr (.inl (by rw [List.flatMap_nil, List.append_nil]))
    | cons c rest =>
      obtain ⟨lead, tail, hbytes, hlead, -⟩ := encodeChar_continues c
      refine .inr (.inr ⟨lead, ?_, hlead⟩)
      rw [List.getElem?_append_right (Nat.le_refl _), Nat.sub_self, List.flatMap_cons, hbytes]
      rfl

/-- These are the positions that the standard library calls valid. -/
theorem isBoundary_encode_iff {s : String} {n : Nat} :
    IsBoundary (Utf8.encode s) n ↔ String.Pos.Raw.IsValid s ⟨n⟩ := by
  rw [Utf8.encode, isBoundary_iff, String.Pos.Raw.isValid_iff_exists_append]
  constructor
  · rintro ⟨xs, ⟨rest, hrest⟩, rfl⟩
    refine ⟨String.ofList xs, String.ofList rest, ?_, ?_⟩
    · rw [← String.ofList_append, hrest, String.ofList_toList]
    · rw [Utf8.length_encodeChars]
      rfl
  · rintro ⟨p, q, rfl, hn⟩
    refine ⟨p.toList, ⟨q.toList, String.toList_append.symm⟩, ?_⟩
    rw [← Utf8.encode, length_encode]
    exact (congrArg String.Pos.Raw.byteIdx hn).symm

/-- What the search asks at a position is whether it is a boundary. -/
theorem upTo?_isSome_iff {cs : List Char} {n : Nat} :
    (upTo? n cs).isSome = true ↔ IsBoundary (encodeChars cs) n := by
  rw [isBoundary_iff, Option.isSome_iff_exists]
  exact exists_congr fun kept => upTo?_eq_some_iff

/-! ## Going back -/

/-- Going back from `start` one byte at a time, `stop` is the first boundary. -/
structure StopsAt (bytes : List UInt8) (start stop : Nat) : Prop where
  le : stop ≤ start
  boundary : IsBoundary bytes stop
  passed : ∀ n, stop < n → n ≤ start → ¬IsBoundary bytes n

theorem LongestWithin.stopsAt {s p : String} {max : Nat} (h : LongestWithin s max p) :
    StopsAt (Utf8.encode s) max p.utf8ByteSize where
  le := h.fits
  boundary := isBoundary_iff.mpr ⟨p.toList, h.begins, length_encode p⟩
  passed n hlt hle hboundary := by
    obtain ⟨xs, hbegins, hlength⟩ := isBoundary_iff.mp hboundary
    have hlonger := h.longest (String.ofList xs) (by rwa [String.toList_ofList])
      (by rwa [← Utf8.length_encodeChars, hlength])
    rw [String.toList_ofList] at hlonger
    have hno := length_le_of_begins hlonger
    rw [hlength, ← Utf8.encode, length_encode] at hno
    omega

theorem LongestWithin.encode_eq_take {s p : String} {max : Nat} (h : LongestWithin s max p) :
    Utf8.encode p = (Utf8.encode s).take p.utf8ByteSize := by
  obtain ⟨rest, hrest⟩ := h.begins
  rw [← length_encode, Utf8.encode, Utf8.encode, ← hrest, encodeChars, encodeChars,
    List.flatMap_append, List.take_left]

/-- The search finds what is kept, wherever it begins. It does not go past position 0. -/
theorem backFrom?_eq (s : String) (start : Nat) :
    backFrom? s.toList start = some (truncate s start).toList := by
  obtain ⟨kept, hkept, hlongest⟩ := exists_longestWithin s start
  rw [hkept, (longestWithin_truncate s start).unique hlongest, String.toList_ofList]

end Text

end ChatHub
