import ChatHub.Text.Utf8
import Mathlib.Data.List.Basic
/-!
# Text survives being bytes

Reading never fails, so that reading and writing fit together has to be said in one direction only:
what was written as text is read as that text (`decode_encode`). Around it stand the two facts that
let text share a buffer with other things: a text takes as many bytes as its size says
(`length_encode`), and a zero byte in it is a NUL and nothing else (`zero_notMem_encodeChar`). So a
field that is cut at its first zero byte is the text cut before its first NUL
(`takeWhile_encodeChars`).

The one case analysis is on how many bytes a character takes. What the reader checks about the
second byte is gathered in `isSecond_of`, and the ranges it asks for are those of a character that
is not a surrogate and is written in its shortest form.
-/

namespace ChatHub.Utf8

theorem toNat_toUInt8 {n : Nat} (h : n < 256) : n.toUInt8.toNat = n := Nat.mod_eq_of_lt h

/-- A character is a number below the surrogates, or above them and at most U+10FFFF. -/
theorem toNat_valid (c : Char) : c.toNat < 0xD800 ∨ (0xDFFF < c.toNat ∧ c.toNat < 0x110000) :=
  c.valid

/-! ## What the reader asks of a byte -/

theorem width_two {b : Nat} (h : 0xC2 ≤ b) (h' : b < 0xE0) : width b = 2 := by
  grind [width]

theorem width_three {b : Nat} (h : 0xE0 ≤ b) (h' : b < 0xF0) : width b = 3 := by
  grind [width]

theorem width_four {b : Nat} (h : 0xF0 ≤ b) (h' : b < 0xF5) : width b = 4 := by
  grind [width]

theorem isContinuation_of (n : Nat) : isContinuation (0x80 + n % 64) = true := by
  simp only [isContinuation, Bool.and_eq_true, decide_eq_true_eq]
  omega

theorem isSecond_of {b x : Nat} (hx : 0x80 ≤ x) (hx' : x < 0xC0) (hE0 : b = 0xE0 → 0xA0 ≤ x)
    (hED : b = 0xED → x < 0xA0) (hF0 : b = 0xF0 → 0x90 ≤ x) (hF4 : b = 0xF4 → x < 0x90) :
    isSecond b x = true := by
  grind [isSecond, isContinuation]

/-! ## Reading one character -/

theorem head_one {n : Nat} (h : n < 0x80) (rest : List UInt8) :
    head n.toUInt8 rest = ⟨Char.ofNat n, 0⟩ := by
  have hwidth : width n = 1 := by simp [width, h]
  rw [head, toNat_toUInt8 (by omega)]
  simp only [hwidth]

theorem head_two {n : Nat} (h : 0x80 ≤ n) (h' : n < 0x800) (rest : List UInt8) :
    head (0xC0 + n / 64).toUInt8 ((0x80 + n % 64).toUInt8 :: rest) = ⟨Char.ofNat n, 1⟩ := by
  have hwidth : width (0xC0 + n / 64) = 2 := width_two (by omega) (by omega)
  have hsecond : isSecond (0xC0 + n / 64) (0x80 + n % 64) = true :=
    isSecond_of (by omega) (by omega) (by omega) (by omega) (by omega) (by omega)
  have hvalue : (0xC0 + n / 64 - 0xC0) * 64 + (0x80 + n % 64 - 0x80) = n := by omega
  rw [head, toNat_toUInt8 (by omega)]
  simp only [hwidth, pair]
  rw [toNat_toUInt8 (by omega), if_pos hsecond, hvalue]

theorem head_three {n : Nat} (h : 0x800 ≤ n) (h' : n < 0x10000) (hn : n < 0xD800 ∨ 0xDFFF < n)
    (rest : List UInt8) :
    head (0xE0 + n / 4096).toUInt8
        ((0x80 + n / 64 % 64).toUInt8 :: (0x80 + n % 64).toUInt8 :: rest)
      = ⟨Char.ofNat n, 2⟩ := by
  have hwidth : width (0xE0 + n / 4096) = 3 := width_three (by omega) (by omega)
  have hsecond : isSecond (0xE0 + n / 4096) (0x80 + n / 64 % 64) = true :=
    isSecond_of (by omega) (by omega) (by omega) (by omega) (by omega) (by omega)
  have hvalue : (0xE0 + n / 4096 - 0xE0) * 4096 + (0x80 + n / 64 % 64 - 0x80) * 64
      + (0x80 + n % 64 - 0x80) = n := by omega
  rw [head, toNat_toUInt8 (by omega)]
  simp only [hwidth, triple]
  rw [toNat_toUInt8 (by omega), toNat_toUInt8 (by omega), if_pos hsecond,
    if_pos (isContinuation_of n), hvalue]

theorem head_four {n : Nat} (h : 0x10000 ≤ n) (h' : n < 0x110000) (rest : List UInt8) :
    head (0xF0 + n / 262144).toUInt8
        ((0x80 + n / 4096 % 64).toUInt8 :: (0x80 + n / 64 % 64).toUInt8
          :: (0x80 + n % 64).toUInt8 :: rest)
      = ⟨Char.ofNat n, 3⟩ := by
  have hwidth : width (0xF0 + n / 262144) = 4 := width_four (by omega) (by omega)
  have hsecond : isSecond (0xF0 + n / 262144) (0x80 + n / 4096 % 64) = true :=
    isSecond_of (by omega) (by omega) (by omega) (by omega) (by omega) (by omega)
  have hvalue : (0xF0 + n / 262144 - 0xF0) * 262144 + (0x80 + n / 4096 % 64 - 0x80) * 4096
      + (0x80 + n / 64 % 64 - 0x80) * 64 + (0x80 + n % 64 - 0x80) = n := by omega
  rw [head, toNat_toUInt8 (by omega)]
  simp only [hwidth, quadruple]
  rw [toNat_toUInt8 (by omega), toNat_toUInt8 (by omega), toNat_toUInt8 (by omega), if_pos hsecond,
    if_pos (isContinuation_of _), if_pos (isContinuation_of n), hvalue]

/-- The reader takes all bytes of a character and no others. -/
theorem head_encodeChar (c : Char) :
    ∃ lead tail, encodeChar c = lead :: tail ∧
      ∀ rest, head lead (tail ++ rest) = ⟨c, tail.length⟩ := by
  have hvalid := toNat_valid c
  have hc := Char.ofNat_toNat c
  -- From here on the character is only its number; the cases are those of the writer.
  unfold encodeChar
  generalize c.toNat = n at hvalid hc
  subst hc
  dsimp only
  split
  · exact ⟨_, _, rfl, fun rest => head_one (by assumption) rest⟩
  · split
    · exact ⟨_, _, rfl, fun rest => head_two (by omega) (by assumption) rest⟩
    · split
      · exact ⟨_, _, rfl, fun rest => head_three (by omega) (by assumption) (by omega) rest⟩
      · exact ⟨_, _, rfl, fun rest => head_four (by omega) (by omega) rest⟩

/-! ## Reading what was written -/

theorem encodeChars_cons (c : Char) (cs : List Char) :
    encodeChars (c :: cs) = encodeChar c ++ encodeChars cs := List.flatMap_cons

theorem decodeChars_encodeChar_append (c : Char) (rest : List UInt8) :
    decodeChars (encodeChar c ++ rest) = c :: decodeChars rest := by
  obtain ⟨lead, tail, hbytes, hhead⟩ := head_encodeChar c
  rw [hbytes, List.cons_append, decodeChars]
  simp only [hhead, List.drop_left]

theorem decodeChars_encodeChars (cs : List Char) : decodeChars (encodeChars cs) = cs := by
  induction cs with
  | nil => simp [encodeChars, decodeChars]
  | cons c cs ih =>
    rw [encodeChars_cons, decodeChars_encodeChar_append, ih]

theorem decode_encode (s : String) : decode (encode s) = s := by
  rw [decode, encode, decodeChars_encodeChars, String.ofList_toList]

/-! ## The standard encoding -/

/-- The bytes of a character are those that the standard gives it. -/
theorem encodeChar_eq (c : Char) : encodeChar c = String.utf8EncodeChar c := by
  have hvalid := toNat_valid c
  have hnumber : c.val.toNat = c.toNat := rfl
  unfold encodeChar String.utf8EncodeChar
  dsimp only
  rw [hnumber]
  grind

/-- Bytes spell a text exactly if they are the bytes of some characters. -/
theorem isValidUTF8_iff {bytes : List UInt8} :
    bytes.toByteArray.IsValidUTF8 ↔ ∃ cs, bytes = encodeChars cs := by
  have hencode : ∀ cs, encodeChars cs = cs.flatMap String.utf8EncodeChar := fun cs =>
    congrArg (List.flatMap · cs) (funext encodeChar_eq)
  constructor
  · rintro ⟨cs, h⟩
    refine ⟨cs, ?_⟩
    rw [hencode, ← List.toList_data_toByteArray (l := bytes), h, List.utf8Encode,
      List.toList_data_toByteArray]
  · rintro ⟨cs, rfl⟩
    exact ⟨cs, congrArg List.toByteArray (hencode cs)⟩

/-! ## Sizes -/

theorem length_encodeChar (c : Char) : (encodeChar c).length = c.utf8Size := by
  -- `utf8Size` asks about a word what the writer asks about a number.
  have hle : ∀ n : UInt32, c.val ≤ n ↔ c.toNat ≤ n.toNat := fun n => UInt32.le_iff_toNat_le
  unfold encodeChar Char.utf8Size
  dsimp only
  simp only [hle]
  grind

theorem length_encodeChars (cs : List Char) :
    (encodeChars cs).length = (String.ofList cs).utf8ByteSize := by
  rw [← String.size_toByteArray, String.toByteArray_ofList]
  induction cs with
  | nil => rfl
  | cons c cs ih =>
    rw [encodeChars_cons, List.length_append, length_encodeChar, ih, List.utf8Encode_cons,
      ByteArray.size_append, List.utf8Encode_singleton, List.size_toByteArray,
      String.length_utf8EncodeChar]

theorem length_encode (s : String) : (encode s).length = s.utf8ByteSize := by
  rw [encode, length_encodeChars, String.ofList_toList]

/-! ## Zero bytes -/

/-- A character that is not ASCII is written with bytes from 0x80 on. -/
theorem le_of_mem_encodeChar {c : Char} {b : UInt8} (hc : 0x80 ≤ c.toNat) (hb : b ∈ encodeChar c) :
    0x80 ≤ b.toNat := by
  have hvalid := toNat_valid c
  unfold encodeChar at hb
  dsimp only at hb
  rw [if_neg (Nat.not_lt.mpr hc)] at hb
  split at hb
  · simp only [List.mem_cons, List.not_mem_nil, or_false] at hb
    rcases hb with rfl | rfl <;> rw [toNat_toUInt8 (by omega)] <;> omega
  · split at hb
    · simp only [List.mem_cons, List.not_mem_nil, or_false] at hb
      rcases hb with rfl | rfl | rfl <;> rw [toNat_toUInt8 (by omega)] <;> omega
    · simp only [List.mem_cons, List.not_mem_nil, or_false] at hb
      rcases hb with rfl | rfl | rfl | rfl <;> rw [toNat_toUInt8 (by omega)] <;> omega

theorem zero_notMem_encodeChar {c : Char} (hc : c ≠ '\x00') : 0 ∉ encodeChar c := by
  intro hzero
  by_cases hascii : c.toNat < 0x80
  · have hbyte : 0 = c.toNat.toUInt8 := by simpa [encodeChar, hascii] using hzero
    have hnat : 0 = c.toNat := by
      rw [← toNat_toUInt8 (n := c.toNat) (by omega), ← hbyte]
      rfl
    exact hc (Char.toNat_inj.mp hnat.symm)
  · have hle := le_of_mem_encodeChar (Nat.not_lt.mp hascii) hzero
    exact absurd hle (by decide)

theorem zero_notMem_encodeChars {cs : List Char} (h : '\x00' ∉ cs) : 0 ∉ encodeChars cs := by
  intro hmem
  obtain ⟨c, hc, hzero⟩ := List.mem_flatMap.mp hmem
  exact zero_notMem_encodeChar (fun he => h (he ▸ hc)) hzero

/-- The bytes before the first zero byte are those of the characters before the first NUL. -/
theorem takeWhile_encodeChars (cs : List Char) :
    (encodeChars cs).takeWhile (· != 0) = encodeChars (cs.takeWhile (· != '\x00')) := by
  induction cs with
  | nil => rfl
  | cons c cs ih =>
    rw [encodeChars_cons]
    by_cases hc : c = '\x00'
    · subst hc
      rfl
    · have hall : ∀ b ∈ encodeChar c, (b != 0) = true := fun b hb =>
        bne_iff_ne.mpr fun he => zero_notMem_encodeChar hc (he ▸ hb)
      have hkept : (c :: cs).takeWhile (· != '\x00') = c :: cs.takeWhile (· != '\x00') :=
        List.takeWhile_cons_of_pos (bne_iff_ne.mpr hc)
      rw [List.takeWhile_append_of_pos hall, ih, hkept, encodeChars_cons]

end ChatHub.Utf8
