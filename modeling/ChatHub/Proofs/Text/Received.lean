import ChatHub.Proofs.Text.Truncation
/-!
# A text cut by the byte

Cutting bytes is not cutting text. A limit that falls between two characters keeps the characters
before it, as cutting the text would. A limit that falls inside one keeps some of its bytes, and to
a reader these are a character that broke off: one U+FFFD, however many they are (`head_cut`). So
what arrives of a text whose bytes were cut is `received`: as much of the text as fits, and perhaps
that one character more (`decode_take_encode`).

Reading never makes a NUL out of other bytes (`nul_notMem_decodeChars`). Every other number that a
reader computes is the number of a character, so none is replaced by the default, which is NUL.
-/

namespace ChatHub

namespace Utf8

/-! ## A character that broke off -/

theorem head_two_cut {n : Nat} (h : 0x80 ≤ n) (h' : n < 0x800) :
    head (0xC0 + n / 64).toUInt8 [] = .broken 0 := by
  have hwidth : width (0xC0 + n / 64) = 2 := width_two (by omega) (by omega)
  rw [head, toNat_toUInt8 (by omega)]
  simp only [hwidth, pair]

theorem head_three_cut {n k : Nat} (h : 0x800 ≤ n) (h' : n < 0x10000)
    (hn : n < 0xD800 ∨ 0xDFFF < n) (hk : k < 2) (last : UInt8) :
    head (0xE0 + n / 4096).toUInt8 ([(0x80 + n / 64 % 64).toUInt8, last].take k) = .broken k := by
  have hwidth : width (0xE0 + n / 4096) = 3 := width_three (by omega) (by omega)
  have hsecond : isSecond (0xE0 + n / 4096) (0x80 + n / 64 % 64) = true :=
    isSecond_of (by omega) (by omega) (by omega) (by omega) (by omega) (by omega)
  rw [head, toNat_toUInt8 (by omega)]
  simp only [hwidth]
  obtain rfl | rfl : k = 0 ∨ k = 1 := by omega
  · rfl
  · simp only [List.take_succ_cons, List.take_zero, triple]
    rw [toNat_toUInt8 (by omega), if_pos hsecond]

theorem head_four_cut {n k : Nat} (h : 0x10000 ≤ n) (h' : n < 0x110000) (hk : k < 3)
    (last : UInt8) :
    head (0xF0 + n / 262144).toUInt8
        ([(0x80 + n / 4096 % 64).toUInt8, (0x80 + n / 64 % 64).toUInt8, last].take k)
      = .broken k := by
  have hwidth : width (0xF0 + n / 262144) = 4 := width_four (by omega) (by omega)
  have hsecond : isSecond (0xF0 + n / 262144) (0x80 + n / 4096 % 64) = true :=
    isSecond_of (by omega) (by omega) (by omega) (by omega) (by omega) (by omega)
  rw [head, toNat_toUInt8 (by omega)]
  simp only [hwidth]
  obtain rfl | rfl | rfl : k = 0 ∨ k = 1 ∨ k = 2 := by omega
  · rfl
  · simp only [List.take_succ_cons, List.take_zero, quadruple]
    rw [toNat_toUInt8 (by omega), if_pos hsecond]
  · simp only [List.take_succ_cons, List.take_zero, quadruple]
    rw [toNat_toUInt8 (by omega), toNat_toUInt8 (by omega), if_pos hsecond,
      if_pos (isContinuation_of (n / 64))]

/-- A reader that finds only some of the bytes of a character takes all of these. -/
theorem head_cut (c : Char) :
    ∃ lead tail, encodeChar c = lead :: tail ∧
      ∀ k < tail.length, head lead (tail.take k) = .broken k := by
  have hvalid := toNat_valid c
  unfold encodeChar
  generalize c.toNat = n at hvalid
  dsimp only
  split
  · exact ⟨_, _, rfl, nofun⟩
  · split
    · refine ⟨_, _, rfl, fun k hk => ?_⟩
      obtain rfl : k = 0 := Nat.lt_one_iff.1 hk
      exact head_two_cut (by omega) (by assumption)
    · split
      · exact ⟨_, _, rfl, fun k hk => head_three_cut (by omega) (by assumption) (by omega) hk _⟩
      · exact ⟨_, _, rfl, fun k hk => head_four_cut (by omega) (by omega) hk _⟩

theorem decodeChars_take_encodeChar {c : Char} {k : Nat} (hpos : 0 < k)
    (hlt : k < c.utf8Size) : decodeChars ((encodeChar c).take k) = [replacement] := by
  obtain ⟨lead, tail, hbytes, hhead⟩ := head_cut c
  rw [← length_encodeChar, hbytes, List.length_cons] at hlt
  obtain ⟨k, rfl⟩ := Nat.exists_eq_add_of_lt hpos
  rw [Nat.zero_add] at hlt ⊢
  have hnone : (tail.take k).drop k = [] := List.drop_eq_nil_of_le (List.length_take_le ..)
  rw [hbytes, List.take_succ_cons, decodeChars, hhead k (Nat.lt_of_succ_lt_succ hlt)]
  simp only [Head.broken, hnone, decodeChars]

theorem decodeChars_encodeChars_append (cs : List Char) (rest : List UInt8) :
    decodeChars (encodeChars cs ++ rest) = cs ++ decodeChars rest := by
  induction cs with
  | nil => rfl
  | cons c cs ih =>
    rw [encodeChars_cons, List.append_assoc, decodeChars_encodeChar_append, ih, List.cons_append]

/-! ## No NUL from other bytes -/

theorem ofNat_ne_nul {n : Nat} (hpos : 0 < n)
    (hvalid : n < 0xD800 ∨ (0xDFFF < n ∧ n < 0x110000)) : Char.ofNat n ≠ '\x00' := by
  intro h
  have hn : (Char.ofNat n).toNat = n := by
    rw [Char.ofNat, dif_pos hvalid]
    rfl
  rw [h] at hn
  exact Nat.ne_of_lt hpos hn

theorem broken_ne_nul (k : Nat) : (Head.broken k).char ≠ '\x00' := by
  show replacement ≠ '\x00'
  decide

theorem pair_ne_nul {b : Nat} (h : 0xC2 ≤ b) (h' : b < 0xE0) (rest : List UInt8) :
    (pair b rest).char ≠ '\x00' := by
  unfold pair
  split
  · split
    · rename_i hsecond
      dsimp only
      apply ofNat_ne_nul <;> grind [isSecond, isContinuation]
    · exact broken_ne_nul _
  · exact broken_ne_nul _

theorem triple_ne_nul {b : Nat} (h : 0xE0 ≤ b) (h' : b < 0xF0) (rest : List UInt8) :
    (triple b rest).char ≠ '\x00' := by
  unfold triple
  split
  · split
    · rename_i hsecond
      split
      · rename_i hthird
        dsimp only
        apply ofNat_ne_nul <;> grind [isSecond, isContinuation]
      · exact broken_ne_nul _
    · exact broken_ne_nul _
  · exact broken_ne_nul _
  · exact broken_ne_nul _

theorem quadruple_ne_nul {b : Nat} (h : 0xF0 ≤ b) (h' : b < 0xF5) (rest : List UInt8) :
    (quadruple b rest).char ≠ '\x00' := by
  unfold quadruple
  split
  · split
    · rename_i hsecond
      split
      · rename_i hthird
        split
        · rename_i hfourth
          dsimp only
          apply ofNat_ne_nul <;> grind [isSecond, isContinuation]
        · exact broken_ne_nul _
      · exact broken_ne_nul _
    · exact broken_ne_nul _
  · exact broken_ne_nul _
  · exact broken_ne_nul _
  · exact broken_ne_nul _

theorem head_ne_nul {lead : UInt8} (hlead : lead ≠ 0) (rest : List UInt8) :
    (head lead rest).char ≠ '\x00' := by
  have hpos : 0 < lead.toNat := Nat.pos_of_ne_zero fun h => hlead (UInt8.toNat_inj.1 h)
  unfold head
  generalize lead.toNat = b at hpos
  dsimp only
  split
  · apply ofNat_ne_nul <;> grind [width]
  · apply pair_ne_nul <;> grind [width]
  · apply triple_ne_nul <;> grind [width]
  · apply quadruple_ne_nul <;> grind [width]
  · exact broken_ne_nul _

theorem nul_notMem_decodeChars {bytes : List UInt8} (h : 0 ∉ bytes) :
    '\x00' ∉ decodeChars bytes := by
  induction bytes using decodeChars.induct with
  | case1 =>
    rw [decodeChars]
    exact List.not_mem_nil
  | case2 lead rest read ih =>
    rw [List.mem_cons, not_or] at h
    rw [decodeChars, List.mem_cons, not_or]
    refine ⟨(head_ne_nul (Ne.symm h.1) rest).symm, ih fun hmem => ?_⟩
    exact h.2 (List.mem_of_mem_drop hmem)

end Utf8

/-! ## What arrives -/

namespace Text

open Utf8 (encodeChars length_encodeChars length_encode)

/-- What a reader makes of the first `limit` bytes of a text. -/
def received (limit : Nat) (s : String) : String :=
  let kept := truncate s limit
  if s.utf8ByteSize ≤ limit ∨ kept.utf8ByteSize = limit then kept else kept ++ "\uFFFD"

theorem received_of_le {limit : Nat} {s : String} (h : s.utf8ByteSize ≤ limit) :
    received limit s = s := by
  rw [received, if_pos (.inl h), truncate_of_le h]

/-- The character at which the longest beginning stops does not fit any more. -/
theorem LongestWithin.lt_next {s p : String} {max : Nat} (h : LongestWithin s max p) {c : Char}
    {rest : List Char} (hsplit : p.toList ++ c :: rest = s.toList) :
    max < p.utf8ByteSize + c.utf8Size := by
  by_contra hfits
  have hsize : (String.ofList (p.toList ++ [c])).utf8ByteSize = p.utf8ByteSize + c.utf8Size := by
    rw [← length_encodeChars, encodeChars, List.flatMap_append, List.length_append,
      List.flatMap_singleton, Utf8.length_encodeChar, ← length_encode, Utf8.encode, encodeChars]
  have hlonger := h.longest (String.ofList (p.toList ++ [c]))
    (by rw [String.toList_ofList]; exact ⟨rest, by rw [← hsplit, List.append_assoc]; rfl⟩)
    (by omega)
  rw [String.toList_ofList] at hlonger
  have hlength := hlonger.length_le
  rw [List.length_append, List.length_singleton] at hlength
  omega

/-- Of a text whose bytes are cut, `received` is read. -/
theorem decode_take_encode (s : String) (limit : Nat) :
    Utf8.decode ((Utf8.encode s).take limit) = received limit s := by
  by_cases hfits : s.utf8ByteSize ≤ limit
  · rw [List.take_of_length_le (length_encode s ▸ hfits), Utf8.decode_encode, received_of_le hfits]
  have hkept := longestWithin_truncate s limit
  rw [received]
  generalize truncate s limit = kept at hkept
  obtain ⟨rest, hrest⟩ := hkept.begins
  have hcut : (Utf8.encode s).take limit
      = encodeChars kept.toList ++ (encodeChars rest).take (limit - kept.utf8ByteSize) := by
    have hlength : (encodeChars kept.toList).length = kept.utf8ByteSize := length_encode kept
    rw [Utf8.encode, ← hrest, encodeChars, List.flatMap_append, List.take_append,
      ← encodeChars, hlength, List.take_of_length_le (hlength ▸ hkept.fits)]
    rfl
  rw [Utf8.decode, hcut, Utf8.decodeChars_encodeChars_append]
  by_cases hfull : kept.utf8ByteSize = limit
  · rw [if_pos (.inr hfull), hfull, Nat.sub_self, List.take_zero, Utf8.decodeChars, List.append_nil,
      String.ofList_toList]
  · cases rest with
    | nil =>
      rw [List.append_nil, String.toList_inj] at hrest
      exact absurd (hrest ▸ hkept.fits) hfits
    | cons c rest =>
      have hnext := hkept.lt_next hrest
      have hle := hkept.fits
      have hpart : limit - kept.utf8ByteSize ≤ (Utf8.encodeChar c).length := by
        rw [Utf8.length_encodeChar]
        omega
      rw [if_neg (not_or.2 ⟨hfits, hfull⟩), Utf8.encodeChars_cons,
        List.take_append_of_le_length hpart,
        Utf8.decodeChars_take_encodeChar (by omega) (by omega), String.ofList_append,
        String.ofList_toList]
      rfl

/-- A text is not changed by the cut if it fits, or if the character that breaks off is one that
looks as if it had. -/
theorem received_eq_self_iff {limit : Nat} {s : String} :
    received limit s = s ↔
      s.utf8ByteSize ≤ limit ∨
        ∃ kept : String, kept.utf8ByteSize < limit ∧ s = kept ++ "\uFFFD" := by
  constructor
  · intro hself
    by_cases hfits : s.utf8ByteSize ≤ limit
    · exact .inl hfits
    have hle := utf8ByteSize_truncate_le s limit
    rw [received] at hself
    by_cases hfull : (truncate s limit).utf8ByteSize = limit
    · rw [if_pos (.inr hfull)] at hself
      exact .inl (hself ▸ hle)
    · rw [if_neg (not_or.2 ⟨hfits, hfull⟩)] at hself
      exact .inr ⟨_, Nat.lt_of_le_of_ne hle hfull, hself.symm⟩
  · rintro (hfits | ⟨kept, hlt, hs⟩)
    · exact received_of_le hfits
    by_cases hfits : s.utf8ByteSize ≤ limit
    · exact received_of_le hfits
    have hlist : s.toList = kept.toList ++ ['\uFFFD'] := by
      rw [hs, String.toList_append]
      rfl
    have hkept : LongestWithin s limit kept := by
      refine ⟨hlist ▸ List.prefix_append _ _, Nat.le_of_lt hlt, fun q hq hqle => ?_⟩
      rw [hlist, List.prefix_concat_iff] at hq
      rcases hq with hq | hq
      · rw [← hlist, String.toList_inj] at hq
        exact absurd (hq ▸ hqle) hfits
      · exact hq
    have hcut : truncate s limit = kept := (longestWithin_truncate s limit).unique hkept
    rw [received, hcut, if_neg (not_or.2 ⟨hfits, Nat.ne_of_lt hlt⟩), hs]

end Text

end ChatHub
