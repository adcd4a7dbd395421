import ChatHub.Proofs.Identity.OneReceive
import ChatHub.Proofs.Text.Blank
import ChatHub.Proofs.Text.Received
/-!
# The normal form of an introduction

Peers introduce themselves in many ways. The name may be closed by a zero byte, or by nothing at
all; it may end in line breaks, and hold bytes that spell no character. All of these are read in
three steps, a cut at the first zero, a decoding, and a trimming, and `Introduces` says what comes
out without saying how: which bytes spell the name, which are left over, and which text the name is.

Every introduction has one such reading and no other (`Introduces.unique`), and whether the caller
is accepted depends only on the name that it gives, as a text: it must not be empty, and must not be
longer than the limit. Written out again and closed by a zero, the name of a caller is an
introduction that reads as itself (`Introduces.again`). That is the normal form: what was accepted
once is accepted from then on, byte by byte, and whatever stands behind the zero is left alone.
-/

namespace ChatHub

namespace Identity

theorem isLineEnd_iff {c : Char} : isLineEnd c = true ↔ c = '\r' ∨ c = '\n' := by
  simp [isLineEnd]

/-! ## What an introduction says -/

/-- The bytes introduce this caller, whose name `raw` spells. -/
structure Introduces (bytes raw : List UInt8) (caller : Identity) : Prop where
  zero_notMem : 0 ∉ raw
  /-- What is left over stands behind the first zero. Where there is none, nothing is. -/
  cut : bytes = raw ++ 0 :: caller.leftover ∨ bytes = raw ∧ caller.leftover = []
  /-- The text that the bytes spell is the name, with line ends behind it. -/
  spells : ∃ ends : String, Utf8.decode raw = caller.user ++ ends ∧
    ∀ c ∈ ends.toList, c = '\r' ∨ c = '\n'
  /-- The name itself does not end in one. -/
  stops : ∀ c, caller.user.toList.getLast? = some c → c ≠ '\r' ∧ c ≠ '\n'

/-- However an introduction is made, it says something. -/
theorem introduces_split (bytes : List UInt8) :
    Introduces bytes (splitAtZero bytes).1
      ⟨userOf (splitAtZero bytes).1, (splitAtZero bytes).2⟩ := by
  obtain ⟨ends, hends, hrun⟩ :=
    Text.exists_append_of_dropEndWhile isLineEnd (Utf8.decodeChars (splitAtZero bytes).1)
  refine ⟨?_, ?_, ⟨String.ofList ends, ?_, ?_⟩, ?_⟩
  · intro hmem
    exact absurd (List.mem_takeWhile_imp hmem) (by decide)
  · by_cases hzero : 0 ∈ bytes
    · obtain ⟨raw, rest, rfl, hraw⟩ := List.eq_append_cons_of_mem hzero
      rw [splitAtZero_append hraw]
      exact .inl rfl
    · rw [splitAtZero_of_notMem hzero]
      exact .inr ⟨rfl, rfl⟩
  · rw [Utf8.decode, hends, String.ofList_append]
    rfl
  · rw [String.toList_ofList]
    exact fun c hc => isLineEnd_iff.mp (hrun c hc)
  · intro c hc
    rw [userOf, String.toList_ofList] at hc
    have hother := Text.eq_false_of_getLast?_dropEndWhile hc
    rw [Bool.eq_false_iff, ne_eq, isLineEnd_iff, not_or] at hother
    exact hother

namespace Introduces

variable {bytes raw : List UInt8} {caller : Identity} {max : Nat} (h : Introduces bytes raw caller)
include h

theorem splitAtZero_eq : splitAtZero bytes = (raw, caller.leftover) := by
  rcases h.cut with rfl | ⟨rfl, hnothing⟩
  · exact splitAtZero_append h.zero_notMem _
  · rw [splitAtZero_of_notMem h.zero_notMem, hnothing]

theorem decodeChars_eq : ∃ ends, Utf8.decodeChars raw = caller.user.toList ++ ends ∧
    ∀ c ∈ ends, isLineEnd c = true := by
  obtain ⟨ends, htext, hrun⟩ := h.spells
  refine ⟨ends.toList, ?_, fun c hc => isLineEnd_iff.mpr (hrun c hc)⟩
  rw [← String.toList_append, ← htext, Utf8.decode, String.toList_ofList]

theorem user_eq : caller.user = userOf raw := by
  obtain ⟨ends, hchars, hrun⟩ := h.decodeChars_eq
  rw [userOf, hchars, Text.dropEndWhile_append hrun, String.ofList_toList]
  · intro c hc
    rw [Bool.eq_false_iff, ne_eq, isLineEnd_iff, not_or]
    exact h.stops c hc

/-- It says only one thing. -/
theorem unique {raw' : List UInt8} {other : Identity} (h' : Introduces bytes raw' other) :
    raw' = raw ∧ other = caller := by
  obtain ⟨rfl, hleftover⟩ := Prod.mk.inj (h'.splitAtZero_eq.symm.trans h.splitAtZero_eq)
  have huser : other.user = caller.user := h'.user_eq.trans h.user_eq.symm
  exact ⟨rfl, congrArg₂ Identity.mk huser hleftover⟩

theorem nul_notMem : '\x00' ∉ caller.user.toList := by
  obtain ⟨ends, hchars, -⟩ := h.decodeChars_eq
  intro hmem
  apply Utf8.nul_notMem_decodeChars h.zero_notMem
  rw [hchars]
  exact List.mem_append_left _ hmem

/-- Accepted is whoever has a name that is not too long. -/
theorem parse_eq_ok_iff {other : Identity} :
    parse bytes max = .ok other ↔
      other = caller ∧ caller.user ≠ "" ∧ caller.user.utf8ByteSize ≤ max := by
  rw [Identity.parse_eq_ok_iff, h.splitAtZero_eq, ← h.user_eq, Bool.eq_false_iff, ne_eq,
    String.isEmpty_iff]
  refine and_congr_right ?_
  rintro rfl
  exact Iff.rfl

/-- Everybody else is told what is wrong with the name. -/
theorem parse_eq_error_iff {fault : Fault} :
    parse bytes max = .error fault ↔
      (caller.user = "" ∧ fault = .badUser "empty user id") ∨
        (caller.user ≠ "" ∧ max < caller.user.utf8ByteSize ∧
          fault = .badUser ("user id exceeds " ++ toString max ++ " bytes")) := by
  rw [parse, h.splitAtZero_eq]
  dsimp only
  rw [← h.user_eq]
  by_cases hempty : caller.user = ""
  · rw [if_pos (String.isEmpty_iff.mpr hempty), Except.error.injEq, eq_comm]
    refine ⟨fun hfault => .inl ⟨hempty, hfault⟩, ?_⟩
    rintro (⟨-, hfault⟩ | ⟨hnamed, -⟩)
    · exact hfault
    · exact absurd hempty hnamed
  · rw [if_neg fun he => hempty (String.isEmpty_iff.mp he)]
    split
    · rename_i hlong
      rw [Except.error.injEq, eq_comm]
      refine ⟨fun hfault => .inr ⟨hempty, hlong, hfault⟩, ?_⟩
      rintro (⟨hnameless, -⟩ | ⟨-, -, hfault⟩)
      · exact absurd hnameless hempty
      · exact hfault
    · rename_i hfits
      refine iff_of_false (by simp only [reduceCtorEq, not_false_eq_true]) ?_
      rintro (⟨hnameless, -⟩ | ⟨-, hlong, -⟩)
      · exact hempty hnameless
      · exact hfits hlong

/-- A name, written out and closed by a zero, introduces itself, whatever comes behind. -/
theorem again (later : List UInt8) :
    Introduces (Utf8.encode caller.user ++ 0 :: later) (Utf8.encode caller.user)
      ⟨caller.user, later⟩ where
  zero_notMem := Utf8.zero_notMem_encodeChars h.nul_notMem
  cut := .inl rfl
  spells := ⟨"", by rw [Utf8.decode_encode, String.append_empty], nofun⟩
  stops := h.stops

end Introduces

/-- **An introduction is put into its normal form.** Whatever bytes come, they introduce exactly one
caller. That caller is accepted if the name is not empty and, as a text, not longer than the limit,
and is turned away for the name otherwise; nobody else is ever accepted, and there is no other
reason. The name of a caller who was accepted holds no NUL. Written out and closed by a zero it is
accepted again, as it is, under any limit that it keeps to, and the bytes behind the zero are left
over. -/
theorem parse_puts_into_normal_form (bytes : List UInt8) (max : Nat) :
    (∃ raw caller, Introduces bytes raw caller ∧
      (∀ raw' other, Introduces bytes raw' other → raw' = raw ∧ other = caller) ∧
      ((∃ reason, parse bytes max = .error (.badUser reason)) ↔
        caller.user = "" ∨ max < caller.user.utf8ByteSize) ∧
      ∀ fault, parse bytes max = .error fault → ∃ reason, fault = .badUser reason) ∧
    ∀ caller, parse bytes max = .ok caller →
      (∃ raw, Introduces bytes raw caller) ∧ caller.user ≠ "" ∧ caller.user.utf8ByteSize ≤ max ∧
        '\x00' ∉ caller.user.toList ∧
        ∀ later limit, caller.user.utf8ByteSize ≤ limit →
          parse (Utf8.encode caller.user ++ 0 :: later) limit = .ok ⟨caller.user, later⟩ := by
  have hsplit := introduces_split bytes
  generalize (splitAtZero bytes).1 = raw at hsplit
  refine ⟨⟨raw, _, hsplit, fun _ _ h' => hsplit.unique h', ?_, ?_⟩, ?_⟩
  · constructor
    · rintro ⟨reason, hrefused⟩
      rcases hsplit.parse_eq_error_iff.mp hrefused with ⟨hempty, -⟩ | ⟨-, hlong, -⟩
      · exact .inl hempty
      · exact .inr hlong
    · intro hbad
      by_cases hempty : userOf raw = ""
      · exact ⟨_, hsplit.parse_eq_error_iff.mpr (.inl ⟨hempty, rfl⟩)⟩
      · have hlong := hbad.resolve_left hempty
        exact ⟨_, hsplit.parse_eq_error_iff.mpr (.inr ⟨hempty, hlong, rfl⟩)⟩
  · intro fault hfault
    rcases hsplit.parse_eq_error_iff.mp hfault with ⟨-, rfl⟩ | ⟨-, -, rfl⟩
    · exact ⟨_, rfl⟩
    · exact ⟨_, rfl⟩
  · intro caller hok
    obtain ⟨rfl, hnamed, hfits⟩ := hsplit.parse_eq_ok_iff.mp hok
    refine ⟨⟨raw, hsplit⟩, hnamed, hfits, hsplit.nul_notMem, fun later limit hlimit => ?_⟩
    exact (hsplit.again later).parse_eq_ok_iff.mpr ⟨rfl, hnamed, hlimit⟩

/-- The name breaks off in the middle of a character, and three line ends follow. It is as long as
the limit once it was decoded. -/
theorem parse_puts_into_normal_form_of_a_broken_name :
    let raw := Utf8.encode "Ren" ++ [0xC3] ++ Utf8.encode "\r\n\n"
    let caller : Identity := ⟨"Ren\uFFFD", [1, 2]⟩
    parse (raw ++ 0 :: [1, 2]) 6 = .ok caller ∧ caller.user.utf8ByteSize ≤ 7 ∧
      Introduces (raw ++ 0 :: [1, 2]) raw caller ∧ '\x00' ∉ caller.user.toList ∧
      parse (Utf8.encode caller.user ++ 0 :: [0, 9]) 7 = .ok ⟨caller.user, [0, 9]⟩ ∧
      ∃ reason, parse (raw ++ 0 :: [1, 2]) 5 = .error (.badUser reason) := by
  intro raw caller
  have hzero : 0 ∉ raw := by decide
  have huser : userOf raw = "Ren\uFFFD" := by decide +kernel
  have hok : parse (raw ++ 0 :: [1, 2]) 6 = .ok caller := by
    rw [parse_append hzero (by rw [huser]; decide) (by rw [huser]; decide), huser]
  obtain ⟨-, hcaller⟩ := parse_puts_into_normal_form (raw ++ 0 :: [1, 2]) 6
  obtain ⟨⟨raw', hraw'⟩, -, -, hnul, hagain⟩ := hcaller caller hok
  have hsplit := hraw'.splitAtZero_eq
  rw [splitAtZero_append hzero] at hsplit
  obtain ⟨rfl, -⟩ := Prod.mk.inj hsplit
  obtain ⟨⟨raw', other, hother, hunique, hrefused, -⟩, -⟩ :=
    parse_puts_into_normal_form (raw ++ 0 :: [1, 2]) 5
  obtain ⟨-, rfl⟩ := hunique _ _ hraw'
  exact ⟨hok, by decide, hraw', hnul, hagain [0, 9] 7 (by decide), hrefused.mpr (.inr (by decide))⟩

end Identity

end ChatHub
