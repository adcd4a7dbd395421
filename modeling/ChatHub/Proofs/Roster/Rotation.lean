import ChatHub.Roster
import Mathlib.Data.List.Basic
import Mathlib.Data.List.Nodup
/-!
# The order of turns

A roster is a list with a cursor, and coming and going moves the one under the other. What its
users mean by it is simpler: a line of people, of whom the first has the next turn and then goes
to the back. `turnOrder` is that line, and this module says what every move does to it:

* a turn takes the first of the line to its end (`turnOrder_next`);
* a departure strikes one id out (`turnOrder_remove`);
* an arrival is put in somewhere (`turnOrder_add`): it goes behind the last *member*, which is the
  end of the line only while the cursor is at the beginning.

All of it rests on `Sound`: no id is there twice, and the cursor points at somebody whenever there
is anybody. Every move keeps that, so it holds in every roster that can be reached.
-/

namespace ChatHub

/-- What can happen to a roster. -/
inductive RosterMove where
  | add (id : Nat) (user : String)
  | remove (id : Nat)
  | next (now : Nat)
deriving Repr, DecidableEq

/-- What comes of a move. -/
inductive RosterAnswer where
  /-- Whether the roster changed. -/
  | changed (yes : Bool)
  /-- Who got the turn. -/
  | turn (m : Option Member)
deriving Repr, DecidableEq

def RosterAnswer.holder : RosterAnswer → Option Nat
  | changed _ => none
  | turn m => m.map (·.id)

namespace Roster

/-! ## Runs -/

/-- The roster after a move, and what came of it. -/
def act (r : Roster) : RosterMove → RosterAnswer × Roster
  | .add id user => (.changed (r.add id user).1, (r.add id user).2)
  | .remove id => (.changed (r.remove id).1, (r.remove id).2)
  | .next now => (.turn (r.next now).1, (r.next now).2)

def run (r : Roster) : List RosterMove → Roster
  | [] => r
  | μ :: μs => (r.act μ).2.run μs

/-- The ids that got the turns of a run, in order. -/
def turns (r : Roster) : List RosterMove → List Nat
  | [] => []
  | μ :: μs => (r.act μ).1.holder.toList ++ (r.act μ).2.turns μs

/-- The ids in the order of the members. -/
def ids (r : Roster) : List Nat := r.members.map (·.id)

/-- The ids in the order in which they would get the next turns. -/
def turnOrder (r : Roster) : List Nat :=
  match r.cursor with
  | none => []
  | some c => r.ids.drop c ++ r.ids.take c

/-- What every roster keeps to. -/
structure Sound (r : Roster) : Prop where
  /-- No id is there twice. -/
  unique : r.ids.Nodup
  /-- The cursor points at somebody, unless there is nobody. -/
  cursor : (r.members = [] ∧ r.cursor = none) ∨ ∃ c, c < r.members.length ∧ r.cursor = some c

theorem Sound.empty : Sound Roster.empty := ⟨List.nodup_nil, Or.inl ⟨rfl, rfl⟩⟩

theorem contains_iff {r : Roster} {id : Nat} : r.contains id = true ↔ id ∈ r.ids := by
  simp [contains, ids]

/-! ## The line, from a splitting of the members

A cursor is the length of what stands before it. Said so, the moves need no arithmetic on
positions. -/

/-- The line of a roster whose cursor stands between `front` and `back`. -/
theorem turnOrder_of_split {r : Roster} (front back : List Member)
    (hm : r.members = front ++ back) (hc : r.cursor = some front.length) :
    r.turnOrder = back.map (·.id) ++ front.map (·.id) := by
  have hl : front.length = (front.map (·.id)).length := (List.length_map _).symm
  rw [turnOrder, hc, ids, hm, List.map_append]
  show List.drop front.length _ ++ List.take front.length _ = _
  rw [hl, List.drop_left, List.take_left]

/-- In a sound roster either nobody is there, or the cursor stands before somebody. -/
theorem Sound.split {r : Roster} (h : r.Sound) :
    (r.members = [] ∧ r.cursor = none) ∨
      ∃ front m back, r.members = front ++ m :: back ∧ r.cursor = some front.length := by
  rcases h.cursor with hnone | ⟨c, hlt, hc⟩
  · exact Or.inl hnone
  · refine Or.inr ⟨r.members.take c, r.members[c], r.members.drop (c + 1), ?_, ?_⟩
    · rw [← List.drop_eq_getElem_cons hlt, List.take_append_drop]
    · rw [hc, List.length_take, Nat.min_eq_left (Nat.le_of_lt hlt)]

theorem Sound.turnOrder_perm {r : Roster} (h : r.Sound) : r.turnOrder.Perm r.ids := by
  rcases h.split with ⟨hm, hc⟩ | ⟨front, m, back, hm, hc⟩
  · rw [turnOrder, hc, ids, hm]
    exact List.Perm.nil
  · rw [turnOrder_of_split _ _ hm hc, ids, hm, List.map_append]
    exact List.perm_append_comm

theorem Sound.turnOrder_nodup {r : Roster} (h : r.Sound) : r.turnOrder.Nodup :=
  h.turnOrder_perm.nodup_iff.mpr h.unique

theorem Sound.mem_turnOrder {r : Roster} (h : r.Sound) {id : Nat} :
    id ∈ r.turnOrder ↔ id ∈ r.ids := h.turnOrder_perm.mem_iff

/-! ## Turns -/

theorem next_of_nobody {r : Roster} (hc : r.cursor = none) (now : Nat) :
    r.next now = (none, r) := by
  rw [next, hc]

/-- Whoever the cursor stands before gets the turn, and the cursor moves behind them. -/
theorem next_of_split {r : Roster} {front back : List Member} {m : Member}
    (hm : r.members = front ++ m :: back) (hc : r.cursor = some front.length) (now : Nat) :
    r.next now =
      (some { m with lastTurn := some now },
        { members := front ++ { m with lastTurn := some now } :: back
          cursor := some ((front.length + 1) % r.members.length) }) := by
  have hget : r.members[front.length]? = some m := by
    rw [hm, List.getElem?_append_right (Nat.le_refl _), Nat.sub_self]
    rfl
  have hset : ∀ x : Member, r.members.set front.length x = front ++ x :: back := by
    intro x
    rw [hm, List.set_append_right _ _ (Nat.le_refl _), Nat.sub_self]
    rfl
  simp only [next, hc, hget, hset]

theorem ids_next {r : Roster} (h : r.Sound) (now : Nat) : (r.next now).2.ids = r.ids := by
  rcases h.split with ⟨-, hc⟩ | ⟨front, m, back, hm, hc⟩
  · rw [next_of_nobody hc]
  · rw [next_of_split hm hc, ids, ids, hm]
    simp only [List.map_append, List.map_cons]

theorem Sound.next {r : Roster} (h : r.Sound) (now : Nat) : (r.next now).2.Sound := by
  refine ⟨by rw [ids_next h]; exact h.unique, ?_⟩
  rcases h.split with ⟨hm, hc⟩ | ⟨front, m, back, hm, hc⟩
  · rw [next_of_nobody hc]
    exact Or.inl ⟨hm, hc⟩
  · rw [next_of_split hm hc]
    refine Or.inr ⟨_, ?_, rfl⟩
    have hlen : (front ++ { m with lastTurn := some now } :: back).length = r.members.length := by
      simp [hm]
    show _ < (front ++ { m with lastTurn := some now } :: back).length
    rw [hlen]
    exact Nat.mod_lt _ (by rw [hm, List.length_append]; exact Nat.succ_pos _)

/-- The first of the line gets the turn and goes to its end. -/
theorem turnOrder_next {r : Roster} (h : r.Sound) (now : Nat) :
    (r.turnOrder = [] ∧ (r.next now).1 = none ∧ (r.next now).2 = r) ∨
      ∃ m rest, (r.next now).1 = some m ∧ r.turnOrder = m.id :: rest ∧
        (r.next now).2.turnOrder = rest ++ [m.id] := by
  rcases h.split with ⟨-, hc⟩ | ⟨front, m, back, hm, hc⟩
  · rw [next_of_nobody hc]
    exact Or.inl ⟨by rw [turnOrder, hc], rfl, rfl⟩
  · rw [next_of_split hm hc]
    refine Or.inr ⟨_, back.map (·.id) ++ front.map (·.id), rfl, turnOrder_of_split _ _ hm hc, ?_⟩
    rcases back with _ | ⟨b, back⟩
    · -- The last member had the turn, so the cursor goes back to the first.
      have hzero : (front.length + 1) % r.members.length = 0 := by simp [hm]
      rw [hzero, turnOrder_of_split [] _ rfl rfl]
      simp
    · have hlt : front.length + 1 < r.members.length := by simp [hm]
      rw [Nat.mod_eq_of_lt hlt, turnOrder_of_split (front ++ [{ m with lastTurn := some now }])
        (b :: back) (by simp) (by simp)]
      simp

/-! ## Arrivals -/

theorem add_of_present {r : Roster} {id : Nat} (hid : id ∈ r.ids) (user : String) :
    r.add id user = (false, r) := by
  rw [add, if_pos (contains_iff.mpr hid)]

theorem add_of_absent {r : Roster} {id : Nat} (hid : id ∉ r.ids) (user : String) :
    r.add id user =
      (true, { members := r.members ++ [{ id, user, lastTurn := none }]
               cursor := some (r.cursor.getD 0) }) := by
  rw [add, if_neg (fun hc => hid (contains_iff.mp hc))]

theorem Sound.add {r : Roster} (h : r.Sound) (id : Nat) (user : String) :
    (r.add id user).2.Sound := by
  by_cases hid : id ∈ r.ids
  · rw [add_of_present hid]
    exact h
  · rw [add_of_absent hid]
    refine ⟨?_, Or.inr ⟨_, ?_, rfl⟩⟩
    · rw [ids, List.map_append, List.map_singleton, ← List.concat_eq_append]
      exact h.unique.concat hid
    · rcases h.cursor with ⟨-, hc⟩ | ⟨c, hlt, hc⟩
      · simp [hc]
      · simpa [hc] using Nat.lt_succ_of_lt hlt

/-- Whoever comes is put into the line, and everybody else keeps their place. -/
theorem turnOrder_add {r : Roster} (h : r.Sound) {id : Nat} (hid : id ∉ r.ids) (user : String) :
    ∃ before after, r.turnOrder = before ++ after ∧
      (r.add id user).2.turnOrder = before ++ id :: after := by
  rw [add_of_absent hid]
  rcases h.split with ⟨hm, hc⟩ | ⟨front, m, back, hm, hc⟩
  · refine ⟨[], [], by rw [turnOrder, hc]; rfl, ?_⟩
    rw [turnOrder_of_split [] _ rfl (by rw [hc]; rfl), hm]
    rfl
  · refine ⟨(m :: back).map (·.id), front.map (·.id), turnOrder_of_split _ _ hm hc, ?_⟩
    rw [turnOrder_of_split front (m :: back ++ [{ id, user, lastTurn := none }])
      (by simp [hm]) (by rw [hc]; rfl)]
    simp

/-! ## Departures -/

theorem remove_of_absent {r : Roster} {id : Nat} (hid : id ∉ r.ids) : r.remove id = (false, r) := by
  have hpos : r.position? id = none := by
    rw [position?, List.findIdx?_eq_none_iff]
    intro m hm
    exact beq_eq_false_iff_ne.mpr fun he => hid (List.mem_map.mpr ⟨m, hm, he⟩)
  rw [remove, hpos]

/-- A departure, told by who stood before and after the one who goes. -/
theorem remove_of_split {r : Roster} {xs ys : List Member} {m : Member} (h : r.Sound)
    (hm : r.members = xs ++ m :: ys) :
    r.remove m.id =
      (true, { members := xs ++ ys
               cursor := cursorAfter xs.length (xs ++ ys).length r.cursor }) := by
  have hxs : ∀ x ∈ xs, (x.id == m.id) = false := by
    intro x hx
    have hu := h.unique
    rw [ids, hm, List.map_append, List.nodup_append] at hu
    exact beq_eq_false_iff_ne.mpr
      (hu.2.2 x.id (List.mem_map_of_mem hx) m.id (by simp))
  have hpos : r.position? m.id = some xs.length := by
    rw [position?, hm, List.findIdx?_append, List.findIdx?_eq_none_iff.mpr hxs, List.findIdx?_cons]
    simp
  have herase : r.members.eraseIdx xs.length = xs ++ ys := by
    rw [hm, List.eraseIdx_append_of_length_le (Nat.le_refl _), Nat.sub_self]
    rfl
  rw [remove, hpos]
  simp only [herase]

theorem exists_split_of_mem {r : Roster} {id : Nat} (hid : id ∈ r.ids) :
    ∃ xs m ys, r.members = xs ++ m :: ys ∧ m.id = id := by
  obtain ⟨m, hm, rfl⟩ := List.mem_map.mp hid
  obtain ⟨xs, ys, hsplit⟩ := List.append_of_mem hm
  exact ⟨xs, m, ys, hsplit, rfl⟩

/-- Where the cursor is after a departure, told by the length of what is before it. -/
theorem cursorAfter_lt {gone len c : Nat} (hgone : gone ≤ len) (hc : c < len + 1) (hlen : len ≠ 0) :
    ∃ c', c' < len ∧ cursorAfter gone len (some c) = some c' := by
  unfold cursorAfter
  rw [if_neg hlen]
  by_cases heq : c = gone
  · exact ⟨gone % len, Nat.mod_lt _ (by omega), by simp [heq]⟩
  · by_cases hlt : gone < c
    · exact ⟨c - 1, by omega, by simp [heq, hlt]⟩
    · exact ⟨c, by omega, by simp [heq, hlt]⟩

/-- The one who goes had the next turn: it is their successor's now. -/
theorem turnOrder_remove_under {r : Roster} {front back : List Member} {m : Member} (h : r.Sound)
    (hm : r.members = front ++ m :: back) (hc : r.cursor = some front.length) :
    (r.remove m.id).2.turnOrder = back.map (·.id) ++ front.map (·.id) := by
  rw [remove_of_split h hm, hc, cursorAfter]
  rcases back with _ | ⟨b, back⟩
  · -- The last member goes, and their successor is the first.
    by_cases hlen : front.length = 0
    · simp [List.eq_nil_of_length_eq_zero hlen, turnOrder]
    · rw [turnOrder_of_split [] front (by simp) (by simp [hlen])]
      simp
  · have hlt : front.length < (front ++ b :: back).length := by simp
    have hlen : (front ++ b :: back).length ≠ 0 := by simp
    rw [turnOrder_of_split front (b :: back) rfl]
    simp only [if_neg hlen, if_true, Nat.mod_eq_of_lt hlt]

/-- The one who goes stands before the cursor. -/
theorem turnOrder_remove_before {r : Roster} {xs mid back : List Member} {m : Member}
    (h : r.Sound) (hm : r.members = xs ++ m :: (mid ++ back)) (hback : back ≠ [])
    (hc : r.cursor = some (xs ++ m :: mid).length) :
    (r.remove m.id).2.turnOrder = back.map (·.id) ++ (xs ++ mid).map (·.id) := by
  rw [remove_of_split h hm, hc, cursorAfter]
  refine turnOrder_of_split (xs ++ mid) back (List.append_assoc ..).symm ?_
  have hlen : (xs ++ (mid ++ back)).length ≠ 0 := by simp [hback]
  have hne : (xs ++ m :: mid).length ≠ xs.length := by simp
  have hlt : xs.length < (xs ++ m :: mid).length := by simp
  simp only [if_neg hlen, if_neg hne, if_pos hlt]
  simp [Nat.add_sub_assoc]

/-- The one who goes stands behind whoever has the next turn. -/
theorem turnOrder_remove_behind {r : Roster} {front mid ys : List Member} {m : Member}
    (h : r.Sound) (hm : r.members = (front ++ mid) ++ m :: ys) (hmid : mid ≠ [])
    (hc : r.cursor = some front.length) :
    (r.remove m.id).2.turnOrder = (mid ++ ys).map (·.id) ++ front.map (·.id) := by
  rw [remove_of_split h hm, hc, cursorAfter]
  refine turnOrder_of_split front (mid ++ ys) (List.append_assoc ..) ?_
  have hpos : 0 < mid.length := List.length_pos_of_ne_nil hmid
  have hlen : ((front ++ mid) ++ ys).length ≠ 0 := by simp [hmid]
  have hne : front.length ≠ (front ++ mid).length := by rw [List.length_append]; omega
  have hge : ¬ (front ++ mid).length < front.length := by rw [List.length_append]; omega
  simp only [if_neg hlen, if_neg hne, if_neg hge]

theorem erase_middle {id : Nat} {before after : List Nat} (h : (before ++ id :: after).Nodup) :
    (before ++ id :: after).erase id = before ++ after := by
  have hbefore : id ∉ before := fun hb =>
    (List.nodup_append.mp h).2.2 _ hb _ List.mem_cons_self rfl
  rw [List.erase_append_right _ hbefore, List.erase_cons_head]

/-- Whoever goes is struck out of the line, and everybody else keeps their place. -/
theorem turnOrder_remove {r : Roster} (h : r.Sound) (id : Nat) :
    (r.remove id).2.turnOrder = r.turnOrder.erase id := by
  by_cases hid : id ∈ r.ids
  · obtain ⟨xs, m, ys, hm, rfl⟩ := exists_split_of_mem hid
    have hu := h.turnOrder_nodup
    rcases h.split with ⟨hnil, -⟩ | ⟨front, n, back, hsplit, hc⟩
    · rw [hm] at hnil
      exact absurd hnil (by simp)
    rw [turnOrder_of_split _ _ hsplit hc] at hu ⊢
    -- Where the one who goes stands: before the cursor, under it, or behind it.
    rcases List.append_eq_append_iff.mp (hm.symm.trans hsplit) with
      ⟨mid, rfl, hback⟩ | ⟨mid, rfl, hys⟩
    · rcases mid with _ | ⟨m', mid⟩
      · obtain ⟨rfl, rfl⟩ := List.cons.inj hback
        rw [List.append_nil] at hc ⊢
        rw [turnOrder_remove_under h hm hc]
        simp
      · obtain ⟨rfl, rfl⟩ := List.cons.inj hback
        rw [turnOrder_remove_before h hm (by simp) hc]
        simp only [List.map_append, List.map_cons, ← List.append_assoc] at hu ⊢
        exact (erase_middle hu).symm
    · by_cases hmid : mid = []
      · subst hmid
        obtain ⟨rfl, rfl⟩ := List.cons.inj hys
        rw [List.append_nil] at hm
        rw [turnOrder_remove_under h hm hc]
        simp
      · rw [hys] at hu ⊢
        rw [turnOrder_remove_behind h hm hmid hc]
        simp only [List.map_append, List.map_cons, List.append_assoc, List.cons_append] at hu ⊢
        exact (erase_middle hu).symm
  · rw [remove_of_absent hid, List.erase_of_not_mem (fun hm => hid (h.mem_turnOrder.mp hm))]

theorem Sound.remove {r : Roster} (h : r.Sound) (id : Nat) : (r.remove id).2.Sound := by
  by_cases hid : id ∈ r.ids
  · obtain ⟨xs, m, ys, hm, rfl⟩ := exists_split_of_mem hid
    rw [remove_of_split h hm]
    refine ⟨?_, ?_⟩
    · have hu := h.unique
      rw [ids, hm] at hu
      exact hu.sublist (((List.sublist_cons_self m ys).append_left xs).map _)
    · by_cases hlen : (xs ++ ys).length = 0
      · refine Or.inl ⟨List.eq_nil_of_length_eq_zero hlen, ?_⟩
        simp only [cursorAfter, if_pos hlen]
      · rcases h.cursor with ⟨hnil, -⟩ | ⟨c, hlt, hc⟩
        · rw [hm] at hnil
          exact absurd hnil (by simp)
        · rw [hc]
          refine Or.inr (cursorAfter_lt (by simp) ?_ hlen)
          rw [hm] at hlt
          simpa [Nat.add_assoc] using hlt
  · rw [remove_of_absent hid]
    exact h

end Roster

end ChatHub
