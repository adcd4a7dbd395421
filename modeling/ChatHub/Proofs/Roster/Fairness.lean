import ChatHub.Proofs.Roster.Rotation
/-!
# Everybody gets a turn

A rotation is fair when nobody is passed over and nobody is served twice: between two turns of one
member every other member has exactly one. With a fixed membership that is plain, since the cursor
goes round. The theorem here is about a rotation whose members come and go all the time, and it
asks of the two members it speaks of only that *they* stay.

The argument is about who stands before whom in the line. No arrival and no departure changes that
for two members who stay, and a turn changes it only by taking the first of the line to its end. So
after a turn of `a`, `b` stands before `a`; once `b` has had a turn, `a` stands before `b`, and `b`
cannot have another before `a` has.
-/

namespace ChatHub.Roster

/-- A roster that can come about. -/
def Reachable (r : Roster) : Prop :=
  ∃ quantum start μs, create quantum = .ok start ∧ start.run μs = r

/-- Something holds at the beginning of a run and after each of its moves. -/
def Throughout (p : Roster → Prop) (r : Roster) : List RosterMove → Prop
  | [] => p r
  | μ :: μs => p r ∧ (r.act μ).2.Throughout p μs

instance Throughout.decidable (p : Roster → Prop) [DecidablePred p] :
    ∀ (r : Roster) (μs : List RosterMove), Decidable (r.Throughout p μs)
  | r, [] => inferInstanceAs (Decidable (p r))
  | r, μ :: μs =>
    have := Throughout.decidable p (r.act μ).2 μs
    inferInstanceAs (Decidable (p r ∧ (r.act μ).2.Throughout p μs))

theorem Throughout.head {p : Roster → Prop} {r : Roster} {μs : List RosterMove}
    (h : r.Throughout p μs) : p r := by
  cases μs with
  | nil => exact h
  | cons μ μs => exact h.1

theorem Throughout.last {p : Roster → Prop} {r : Roster} {μs : List RosterMove}
    (h : r.Throughout p μs) : p (r.run μs) := by
  induction μs generalizing r with
  | nil => exact h
  | cons μ μs ih => exact ih h.2

/-! ## Soundness along a run -/

theorem Sound.act {r : Roster} (h : r.Sound) (μ : RosterMove) : (r.act μ).2.Sound := by
  cases μ with
  | add id user => exact h.add id user
  | remove id => exact h.remove id
  | next now => exact h.next now

theorem Sound.run {r : Roster} (h : r.Sound) (μs : List RosterMove) : (r.run μs).Sound := by
  induction μs generalizing r with
  | nil => exact h
  | cons μ μs ih => exact ih (h.act μ)

theorem Reachable.sound {r : Roster} (h : r.Reachable) : r.Sound := by
  obtain ⟨quantum, start, μs, hstart, rfl⟩ := h
  have hempty : start = empty := by
    unfold create at hstart
    split at hstart
    · cases hstart
    · exact (Except.ok.inj hstart).symm
  exact hempty ▸ Sound.empty.run μs

/-! ## Who stands before whom -/

/-- `x` stands before `y` in the line. -/
def Ahead (r : Roster) (x y : Nat) : Prop := [x, y].Sublist r.turnOrder

/-- What a move does to two members who stay: the one in front keeps their place until they get the
turn, and then stands behind the other. -/
theorem Ahead.act {r : Roster} {x y : Nat} (h : r.Sound) (hxy : r.Ahead x y) (μ : RosterMove)
    (hx : x ∈ (r.act μ).2.ids) (hy : y ∈ (r.act μ).2.ids) :
    ((r.act μ).1.holder = some x ∧ (r.act μ).2.Ahead y x) ∨
      ((r.act μ).1.holder ≠ some x ∧ (r.act μ).1.holder ≠ some y ∧ (r.act μ).2.Ahead x y) := by
  cases μ with
  | add id user =>
    refine Or.inr ⟨nofun, nofun, ?_⟩
    by_cases hid : id ∈ r.ids
    · simpa only [Roster.act, add_of_present hid] using hxy
    · obtain ⟨before, after, hline, hline'⟩ := turnOrder_add h hid user
      show [x, y].Sublist (r.add id user).2.turnOrder
      rw [hline']
      rw [Ahead, hline] at hxy
      exact hxy.trans ((List.sublist_cons_self id after).append_left before)
  | remove id =>
    refine Or.inr ⟨nofun, nofun, ?_⟩
    have hline := turnOrder_remove h id
    -- Neither of the two is the one who goes.
    have hne : ∀ z ∈ (r.remove id).2.ids, z ≠ id := by
      intro z hz
      rw [← (h.remove id).mem_turnOrder, hline, h.turnOrder_nodup.mem_erase_iff] at hz
      exact hz.1
    show [x, y].Sublist (r.remove id).2.turnOrder
    have hkeep : [x, y].erase id = [x, y] :=
      List.erase_of_not_mem (by simp [(hne x hx).symm, (hne y hy).symm])
    rw [hline, ← hkeep]
    exact hxy.erase id
  | next now =>
    have hu := h.turnOrder_nodup
    rcases turnOrder_next h now with ⟨hnil, -, -⟩ | ⟨m, rest, hturn, hline, hline'⟩
    · rw [Ahead, hnil] at hxy
      exact absurd hxy (by simp)
    · rw [hline, List.nodup_cons] at hu
      rw [Ahead, hline] at hxy
      have hholder : (r.act (.next now)).1.holder = some m.id := by
        show (r.next now).1.map (·.id) = some m.id
        rw [hturn]
        rfl
      have hafter : (r.act (.next now)).2.turnOrder = rest ++ [m.id] := hline'
      rw [hholder, Ahead, Ahead, hafter]
      by_cases hmx : m.id = x
      · subst hmx
        have hrest : [y].Sublist rest := List.cons_sublist_cons.mp hxy
        exact Or.inl ⟨rfl, hrest.append (List.Sublist.refl [m.id])⟩
      · have hrest : [x, y].Sublist rest := hxy.of_cons_of_ne (Ne.symm hmx)
        have hmy : m.id ≠ y := fun he => hu.1 (he ▸ hrest.subset (by simp))
        exact Or.inr ⟨by simpa using hmx, by simpa using hmy,
          hrest.trans (List.sublist_append_left rest [m.id])⟩

/-- After its turn a member stands behind everybody else. -/
theorem ahead_after_turn {r : Roster} {now : Nat} {m : Member} {b : Nat} (h : r.Sound)
    (hturn : (r.next now).1 = some m) (hb : b ∈ (r.next now).2.ids) (hne : b ≠ m.id) :
    (r.next now).2.Ahead b m.id := by
  rw [← (h.next now).mem_turnOrder] at hb
  rcases turnOrder_next h now with ⟨-, hnone, -⟩ | ⟨m', rest, hm', -, hline'⟩
  · rw [hnone] at hturn
    cases hturn
  · obtain rfl : m' = m := Option.some.inj (hm'.symm.trans hturn)
    rw [hline', List.mem_append, List.mem_singleton] at hb
    rw [Ahead, hline']
    have hrest : [b].Sublist rest := List.singleton_sublist.mpr (hb.resolve_right hne)
    exact hrest.append (List.Sublist.refl [m'.id])

/-! ## Runs without a turn of `a` -/

/-- Whoever stands behind a member who gets no turn gets none either. -/
theorem Ahead.run_behind {r : Roster} {a b : Nat} {μs : List RosterMove} (h : r.Sound)
    (hab : r.Ahead a b) (stay : r.Throughout (fun r => a ∈ r.ids ∧ b ∈ r.ids) μs)
    (hturns : a ∉ r.turns μs) : b ∉ r.turns μs ∧ (r.run μs).Ahead a b := by
  induction μs generalizing r with
  | nil => exact ⟨List.not_mem_nil, hab⟩
  | cons μ μs ih =>
    obtain ⟨ha, hb⟩ := stay.2.head
    rw [turns, List.mem_append, not_or, Option.mem_toList] at hturns
    rcases hab.act h μ ha hb with ⟨hholder, -⟩ | ⟨-, hnot, hab'⟩
    · exact absurd hholder hturns.1
    · obtain ⟨hrest, hrun⟩ := ih (h.act μ) hab' stay.2 hturns.2
      refine ⟨?_, hrun⟩
      rw [turns, List.mem_append, not_or, Option.mem_toList]
      exact ⟨hnot, hrest⟩

/-- Whoever stands before a member who gets no turn either still does and had no turn, or had just
one and stands behind that member now. -/
theorem Ahead.run_before {r : Roster} {a b : Nat} {μs : List RosterMove} (h : r.Sound)
    (hba : r.Ahead b a) (stay : r.Throughout (fun r => a ∈ r.ids ∧ b ∈ r.ids) μs)
    (hturns : a ∉ r.turns μs) :
    (r.run μs).Ahead b a ∨ (r.turns μs).count b = 1 := by
  induction μs generalizing r with
  | nil => exact Or.inl hba
  | cons μ μs ih =>
    obtain ⟨ha, hb⟩ := stay.2.head
    rw [turns, List.mem_append, not_or] at hturns
    rcases hba.act h μ hb ha with ⟨hholder, hab⟩ | ⟨hnot, -, hba'⟩
    · -- The one turn of `b`; from here on it stands behind `a`.
      obtain ⟨hrest, -⟩ := hab.run_behind (h.act μ) stay.2 hturns.2
      refine Or.inr ?_
      rw [turns, hholder, List.count_append, List.count_eq_zero_of_not_mem hrest]
      simp
    · rcases ih (h.act μ) hba' stay.2 hturns.2 with hrun | hone
      · exact Or.inl hrun
      · refine Or.inr ?_
        have hzero : (r.act μ).1.holder.toList.count b = 0 :=
          List.count_eq_zero_of_not_mem fun hm => hnot (Option.mem_toList.mp hm)
        rw [turns, List.count_append, hzero, hone]

/-! ## The theorem -/

/-- **Between two turns of one member, every other member who stays has exactly one**, whoever else
comes and goes meanwhile, and wherever the cursor stands when they do. -/
theorem one_turn_between_turns {r s : Roster} {now later : Nat} {m m' : Member} {b : Nat}
    {μs : List RosterMove} (hr : r.Reachable)
    (first : r.next now = (some m, s))
    (between : m.id ∉ s.turns μs)
    (last : ((s.run μs).next later).1 = some m') (same : m'.id = m.id)
    (hne : b ≠ m.id) (stay : s.Throughout (fun r => m.id ∈ r.ids ∧ b ∈ r.ids) μs) :
    (s.turns μs).count b = 1 := by
  have hs : s.Sound := by simpa only [first] using hr.sound.next now
  have hba : s.Ahead b m.id := by
    have hturn : (r.next now).1 = some m := by rw [first]
    have hb : b ∈ (r.next now).2.ids := by rw [first]; exact stay.head.2
    simpa only [first] using ahead_after_turn hr.sound hturn hb hne
  rcases hba.run_before hs stay between with hrun | hone
  · -- `b` would still stand before `m`, who could not have had the turn.
    have hs' := hs.run μs
    obtain ⟨hm, hb⟩ := stay.last
    rw [← ids_next hs' later] at hm hb
    have hholder : ((s.run μs).act (.next later)).1.holder = some m.id := by
      show ((s.run μs).next later).1.map (·.id) = some m.id
      rw [last, ← same]
      rfl
    rcases hrun.act hs' (.next later) hb hm with ⟨hturn, -⟩ | ⟨-, hnot, -⟩
    · exact absurd (Option.some.inj (hturn.symm.trans hholder)) hne
    · exact absurd hholder hnot
  · exact hone

/-- Two turns of 7, between which 10 comes, 9 goes, 8 and 10 have their turns, and 10 goes. -/
theorem one_turn_between_turns_amid_churn :
    let r := empty.run [.add 7 "ann", .add 8 "bob", .add 9 "cy"]
    let s := (r.next 0).2
    let μs := [.add 10 "dee", .remove 9, .next 1, .next 2, .remove 10]
    r.Reachable ∧ r.next 0 = (some ⟨7, "ann", some 0⟩, s) ∧ 7 ∉ s.turns μs ∧
      ((s.run μs).next 3).1 = some ⟨7, "ann", some 3⟩ ∧
      s.Throughout (fun r => 7 ∈ r.ids ∧ 8 ∈ r.ids) μs ∧ (s.turns μs).count 8 = 1 := by
  intro r s μs
  have hr : r.Reachable := ⟨1, empty, _, rfl, rfl⟩
  have first : r.next 0 = (some ⟨7, "ann", some 0⟩, s) := by decide
  have between : 7 ∉ s.turns μs := by decide
  have last : ((s.run μs).next 3).1 = some ⟨7, "ann", some 3⟩ := by decide
  have stay : s.Throughout (fun r => 7 ∈ r.ids ∧ 8 ∈ r.ids) μs := by decide
  exact ⟨hr, first, between, last, stay,
    one_turn_between_turns hr first between last rfl (by decide) stay⟩

end ChatHub.Roster
