import ChatHub.Terminal.Command
import ChatHub.Proofs.Text.Blank
import ChatHub.Proofs.Text.Numeral
/-!
# The grammar of typed lines

A person who types a line wants one of a few things, and what they want is a matter of spelling.
`Means` says which spelling stands for what, without saying how a line is read: six lines that must
be exact, one word with a number behind it, and everything else, which is to be said as it stands.

Nothing of what can be typed is left out, and no line means two things. So reading a line and
looking it up in the grammar are the same (`parse_eq_iff_means`). The number is where they could
come apart: it may be wrapped in blanks, signed, and as long as one likes, and it still has to be
told apart from what is no number at all.
-/

namespace ChatHub.Command

open Numeral (Decimal unsigned?_eq_some_iff)
open Text (Stripped strip strip_eq_iff)

/-! ## The grammar -/

/-- An argument names a number if it is a decimal of that number, apart from blanks around it. -/
def Names (arg : String) (n : Nat) : Prop := ∃ cs, Stripped arg.toList cs ∧ Decimal cs n

/-- What a cache test with this argument asks for. -/
inductive Asks : String → Command → Prop
  | count {arg : String} {n : Nat} : Names arg n → 1 ≤ n → n ≤ 100 → Asks arg (.cacheTest n)
  | outOfRange {arg : String} {n : Nat} :
      Names arg n → n = 0 ∨ 100 < n → n < 2 ^ 64 → Asks arg (.wrong .outOfRange)
  /-- Numbers have 64 bits. -/
  | tooLarge {arg : String} {n : Nat} : Names arg n → 2 ^ 64 ≤ n → Asks arg (.wrong .notANumber)
  | nameless {arg : String} : (∀ n, ¬Names arg n) → Asks arg (.wrong .notANumber)

/-- The lines that mean something as a whole. -/
def words : List String := ["/quit", "/exit", "/help", "/stats", "/cachetest", ""]

/-- What a line means. -/
inductive Means : String → Command → Prop
  | quit : Means "/quit" .quit
  | exit : Means "/exit" .quit
  | help : Means "/help" .help
  | stats : Means "/stats" .stats
  | nothing : Means "" .nothing
  | standardTest : Means "/cachetest" (.cacheTest 20)
  | test {arg : String} {c : Command} : Asks arg c → Means ("/cachetest " ++ arg) c
  /-- A line that is nearly a command is none. -/
  | say {line : String} :
      line ∉ words → (∀ arg, line ≠ "/cachetest " ++ arg) → Means line (.say line)

/-! ## The number of a cache test -/

variable {arg line : String} {c : Command} {n : Nat}

theorem names_iff : Names arg n ↔ Decimal (strip arg.toList) n := by
  constructor
  · rintro ⟨cs, hstripped, hdecimal⟩
    rwa [strip_eq_iff.mpr hstripped]
  · exact fun h => ⟨_, strip_eq_iff.mp rfl, h⟩

theorem Names.unique {m : Nat} (hm : Names arg m) (hn : Names arg n) : m = n :=
  (names_iff.mp hm).unique (names_iff.mp hn)

/-- What is read of an argument is the number that it names, if that has 64 bits. -/
theorem read_eq_some_iff :
    Numeral.unsigned? countBound (strip arg.toList) = some n ↔ Names arg n ∧ n < 2 ^ 64 := by
  rw [unsigned?_eq_some_iff, names_iff]
  rfl

theorem asks_ofCount (arg : String) : Asks arg (ofCount arg.toList) := by
  unfold ofCount
  split
  · rename_i n hread
    obtain ⟨hnames, hlt⟩ := read_eq_some_iff.mp hread
    split
    · rename_i hrange
      exact .count hnames hrange.1 hrange.2
    · rename_i hrange
      rw [not_and_or, Nat.not_le, Nat.lt_one_iff, Nat.not_le] at hrange
      exact .outOfRange hnames hrange hlt
  · rename_i hread
    by_cases hnames : ∃ n, Names arg n
    · obtain ⟨n, hnames⟩ := hnames
      refine .tooLarge hnames (Nat.not_lt.mp fun hlt => ?_)
      exact Option.some_ne_none n ((read_eq_some_iff.mpr ⟨hnames, hlt⟩).symm.trans hread)
    · exact .nameless (not_exists.mp hnames)

theorem ofCount_of_read (h : Numeral.unsigned? countBound (strip arg.toList) = some n) :
    ofCount arg.toList = if 1 ≤ n ∧ n ≤ maxCount then .cacheTest n else .wrong .outOfRange := by
  simp only [ofCount, h]

/-- An argument that names no number of 64 bits is no number at all. -/
theorem ofCount_of_unread (h : ∀ n, Names arg n → 2 ^ 64 ≤ n) :
    ofCount arg.toList = .wrong .notANumber := by
  have hread : Numeral.unsigned? countBound (strip arg.toList) = none := by
    refine Option.eq_none_iff_forall_ne_some.mpr fun n hn => ?_
    obtain ⟨hnames, hlt⟩ := read_eq_some_iff.mp hn
    exact Nat.not_lt.mpr (h n hnames) hlt
  simp only [ofCount, hread]

theorem Asks.ofCount_eq (h : Asks arg c) : ofCount arg.toList = c := by
  cases h with
  | count hnames hone hmax =>
    have hlt := Nat.lt_of_le_of_lt hmax (by decide : 100 < 2 ^ 64)
    rw [ofCount_of_read (read_eq_some_iff.mpr ⟨hnames, hlt⟩)]
    exact if_pos ⟨hone, hmax⟩
  | outOfRange hnames hrange hlt =>
    rw [ofCount_of_read (read_eq_some_iff.mpr ⟨hnames, hlt⟩), maxCount, if_neg (by omega)]
  | tooLarge hnames hle => exact ofCount_of_unread fun m hm => hm.unique hnames ▸ hle
  | nameless hnames => exact ofCount_of_unread fun m hm => absurd hm (hnames m)

/-! ## Lines -/

theorem after?_eq_some_iff {p cs rest : List Char} : after? p cs = some rest ↔ cs = p ++ rest := by
  fun_induction after? p cs with
  | case1 cs => exact Option.some_inj
  | case2 p ps => exact iff_of_false nofun nofun
  | case3 p ps cs ih => rw [ih, List.cons_append, List.cons_inj_right]
  | case4 p ps c cs hne =>
    exact iff_of_false nofun fun h => hne (List.cons.inj h).1.symm

theorem after?_word : ∀ w ∈ words, after? cacheTestWord.toList w.toList = none := by decide

theorem after?_test_iff {rest : List Char} :
    after? cacheTestWord.toList line.toList = some rest ↔
      line = "/cachetest " ++ String.ofList rest := by
  have hrest : (String.ofList rest).toList = rest := String.toList_ofList
  rw [after?_eq_some_iff, ← String.toList_inj, String.toList_append, hrest]
  rfl

theorem after?_test (arg : String) :
    after? cacheTestWord.toList ("/cachetest " ++ arg).toList = some arg.toList :=
  after?_test_iff.mpr (by rw [String.ofList_toList])

theorem test_notMem_words (arg : String) : "/cachetest " ++ arg ∉ words := fun hmem =>
  Option.some_ne_none _ ((after?_test arg).symm.trans (after?_word _ hmem))

/-- A line that is no word is a cache test, or is said. -/
theorem parse_of_notMem (h : line ∉ words) :
    parse line = (after? cacheTestWord.toList line.toList).elim (.say line) ofCount := by
  simp only [words, List.mem_cons, List.not_mem_nil, or_false, not_or] at h
  obtain ⟨hquit, hexit, hhelp, hstats, htest, hnothing⟩ := h
  rw [parse, if_neg (not_or.mpr ⟨hquit, hexit⟩), if_neg hhelp, if_neg hstats, if_neg htest,
    if_neg hnothing]
  cases after? cacheTestWord.toList line.toList <;> rfl

theorem means_parse (line : String) : Means line (parse line) := by
  by_cases hword : line ∈ words
  · simp only [words, List.mem_cons, List.not_mem_nil, or_false] at hword
    rcases hword with rfl | rfl | rfl | rfl | rfl | rfl
    · exact .quit
    · exact .exit
    · exact .help
    · exact .stats
    · exact .standardTest
    · exact .nothing
  · rw [parse_of_notMem hword]
    cases htest : after? cacheTestWord.toList line.toList with
    | some arg =>
      have hasks := asks_ofCount (String.ofList arg)
      rw [String.toList_ofList] at hasks
      rw [after?_test_iff.mp htest]
      exact .test hasks
    | none =>
      refine .say hword ?_
      rintro arg rfl
      exact Option.some_ne_none _ ((after?_test arg).symm.trans htest)

theorem Means.parse_eq (h : Means line c) : parse line = c := by
  cases h with
  | quit | exit | help | stats | nothing | standardTest => rfl
  | test hasks =>
    rw [parse_of_notMem (test_notMem_words _), after?_test]
    exact hasks.ofCount_eq
  | say hword hother =>
    rw [parse_of_notMem hword]
    cases htest : after? cacheTestWord.toList line.toList with
    | some arg => exact absurd (after?_test_iff.mp htest) (hother _)
    | none => rfl

/-- **Reading a line is looking it up in the grammar.** Every line is read, as what it means and as
nothing else. -/
theorem parse_eq_iff_means (line : String) (c : Command) : parse line = c ↔ Means line c :=
  ⟨fun h => h ▸ means_parse line, Means.parse_eq⟩

/-- An em space, a sign and three zeros do not matter. -/
example : parse "/cachetest \u2003+0007 " = .cacheTest 7 := by decide +kernel

/-- The first number that has more than 64 bits. -/
example : parse "/cachetest 18446744073709551616" = .wrong .notANumber := by decide +kernel

end ChatHub.Command
