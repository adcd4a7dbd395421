import ChatHub.Text.Blank
import Mathlib.Data.List.DropRight
/-!
# What is left when the ends are taken off

Taking characters off the end of a text stops at the first one that has to stay, and so does taking
them off both ends. What is left can therefore be said without saying how it was found: around it
there is nothing but what was to go, and neither its first nor its last character is of that sort
(`Stripped`). Only one text is like that (`strip_eq_iff`), also where nothing is left.
-/

namespace ChatHub.Text

variable {p : Char → Bool} {cs : List Char}

/-! ## One end -/

/-- What is dropped from the end is a run of characters that satisfy `p`. -/
theorem exists_append_of_dropEndWhile (p : Char → Bool) (cs : List Char) :
    ∃ ends, cs = dropEndWhile p cs ++ ends ∧ ∀ c ∈ ends, p c = true :=
  ⟨cs.rtakeWhile p, List.rdropWhile_append_rtakeWhile.symm, fun _ => List.mem_rtakeWhile_imp⟩

theorem eq_false_of_getLast?_dropEndWhile {c : Char} (h : (dropEndWhile p cs).getLast? = some c) :
    p c = false := by
  obtain ⟨hne, rfl⟩ := List.mem_getLast?_eq_getLast h
  exact Bool.eq_false_iff.mpr (List.rdropWhile_last_not p cs hne)

/-- All of the run is dropped, and nothing in front of it. -/
theorem dropEndWhile_append {ends : List Char} (hends : ∀ c ∈ ends, p c = true)
    (hlast : ∀ c, cs.getLast? = some c → p c = false) : dropEndWhile p (cs ++ ends) = cs := by
  have hself : cs.rdropWhile p = cs := List.rdropWhile_eq_self_iff.mpr fun hne =>
    Bool.eq_false_iff.mp (hlast _ (List.getLast?_eq_some_getLast hne))
  have hrun : ∀ c ∈ ends.reverse, p c = true := fun c hc => hends c (List.mem_reverse.mp hc)
  rw [dropEndWhile, List.reverse_append, List.dropWhile_append_of_pos hrun]
  exact hself

/-! ## Both ends -/

/-- `core` is what is left of `cs` without the blanks around it. -/
structure Stripped (cs core : List Char) : Prop where
  around : ∃ before behind, cs = before ++ (core ++ behind) ∧
    (∀ c ∈ before, isBlank c = true) ∧ ∀ c ∈ behind, isBlank c = true
  starts : ∀ c, core.head? = some c → isBlank c = false
  stops : ∀ c, core.getLast? = some c → isBlank c = false

theorem stripped_strip (cs : List Char) : Stripped cs (strip cs) := by
  obtain ⟨behind, hbehind, hends⟩ := exists_append_of_dropEndWhile isBlank (cs.dropWhile isBlank)
  refine ⟨⟨cs.takeWhile isBlank, behind, ?_, fun c => List.mem_takeWhile_imp, hends⟩, ?_, ?_⟩
  · rw [strip, ← hbehind, List.takeWhile_append_dropWhile]
  · intro c hc
    -- The first character that is left is the first one behind the blanks.
    have hhead : (cs.dropWhile isBlank).head? = some c := by
      rw [hbehind, List.head?_append, ← strip, hc, Option.some_or]
    have hnot := List.head?_dropWhile_not isBlank cs
    rw [hhead] at hnot
    exact hnot
  · exact fun c hc => eq_false_of_getLast?_dropEndWhile hc

theorem Stripped.eq_strip {core : List Char} (h : Stripped cs core) : core = strip cs := by
  obtain ⟨before, behind, rfl, hbefore, hbehind⟩ := h.around
  rw [strip, List.dropWhile_append_of_pos hbefore]
  cases core with
  | nil =>
    -- All is blank, so nothing is left from the front either.
    rw [List.nil_append, List.dropWhile_eq_nil_iff.mpr hbehind]
    rfl
  | cons c core =>
    have hfirst : ¬isBlank c = true := Bool.eq_false_iff.mp (h.starts c rfl)
    rw [List.cons_append, List.dropWhile_cons_of_neg hfirst, ← List.cons_append,
      dropEndWhile_append hbehind h.stops]

/-- There is one thing that is left. -/
theorem strip_eq_iff {core : List Char} : strip cs = core ↔ Stripped cs core :=
  ⟨fun h => h ▸ stripped_strip cs, fun h => h.eq_strip.symm⟩

end ChatHub.Text
