import ChatHub.RecentCache
import Mathlib.Data.List.Nodup
import Mathlib.Data.List.Perm.Basic
/-!
# What the slots of a cache hold

A cache keeps its books in four places at once: the slots, how many of them are in use, an index
from ids to slots, and a clock. `Kept` says how the four agree. The slots in use are the first
`size` ones, and just these are valid; behind them lie at most some that `clear` left over. The
index is the inverse of the list of ids in use, so no id is there twice. And every entry in use has
a number of its own, drawn from the clock.

Nothing outside needs to know which slot an entry is in. So every operation is told here by what it
does to `live`, the entries in use: an insertion appends or overwrites, a refresh overwrites, and
the rest is bookkeeping. `Kept` holds of a new cache and survives every move, hence holds in every
cache that can come about.
-/

namespace ChatHub

/-- What can happen to a cache. -/
inductive CacheMove where
  | insert (now : Nat) (sender content : String) (timestamp : Int64)
  | lookup (id : String)
  | refresh (now : Nat) (id : String)
  | peek (id : String)
  | clear
deriving Repr, DecidableEq

namespace RecentCache

/-- The entries in use, by slot. -/
def live (c : RecentCache) : List CacheEntry := c.slots.take c.size

/-- The cache after a move. -/
def after (c : RecentCache) : CacheMove → RecentCache
  | .insert now sender content timestamp => (c.insert now sender content timestamp).2
  | .lookup id => (c.lookup id).2
  | .refresh now id => c.refresh now id
  | .peek _ => c
  | .clear => c.clear

/-! ## The index

A list of pairs inverts a list of ids when it gives every id its position, and nothing else. -/

/-- `index` gives the position of every id of `ids`, and nothing else. -/
def Inverts (index : List (String × Nat)) (ids : List String) : Prop :=
  ∀ id slot, index.lookup id = some slot ↔ ids[slot]? = some id

theorem lookup_cons_if (l : List (String × Nat)) (name id : String) (slot : Nat) :
    ((name, slot) :: l).lookup id = if id = name then some slot else l.lookup id := by
  rw [List.lookup_cons]
  by_cases hid : id = name
  · rw [if_pos hid, hid, beq_self_eq_true]
  · rw [if_neg hid, beq_eq_false_iff_ne.mpr hid]

/-- An id that was struck out is not found, and every other one is as before. -/
theorem lookup_filter_ne (l : List (String × Nat)) (k id : String) :
    (l.filter (·.1 != k)).lookup id = if id = k then none else l.lookup id := by
  induction l with
  | nil => simp
  | cons p l ih =>
    obtain ⟨name, slot⟩ := p
    by_cases hk : name = k
    · subst hk
      rw [List.filter_cons_of_neg (by simp), ih, lookup_cons_if]
      by_cases hid : id = name
      · rw [if_pos hid, if_pos hid]
      · rw [if_neg hid, if_neg hid, if_neg hid]
    · rw [List.filter_cons_of_pos (by simpa using hk), lookup_cons_if, lookup_cons_if, ih]
      by_cases hid : id = name
      · rw [if_pos hid, if_pos hid, if_neg (hid ▸ hk)]
      · rw [if_neg hid, if_neg hid]

namespace Inverts

variable {index : List (String × Nat)} {ids : List String} {new : String}

theorem nodup (h : Inverts index ids) : ids.Nodup := by
  rw [List.nodup_iff_getElem?_ne_getElem?]
  intro i j hij hj heq
  have hj' := (h _ _).mpr (List.getElem?_eq_getElem hj)
  have hi' := (h _ _).mpr (heq.trans (List.getElem?_eq_getElem hj))
  exact Nat.ne_of_lt hij (Option.some.inj (hi'.symm.trans hj'))

theorem isSome_iff (h : Inverts index ids) {id : String} :
    (index.lookup id).isSome ↔ id ∈ ids := by
  rw [Option.isSome_iff_exists, List.mem_iff_getElem?]
  exact exists_congr fun slot => h id slot

/-- An id that is new, put behind the others. -/
theorem append (h : Inverts index ids) (hnew : new ∉ ids) :
    Inverts ((new, ids.length) :: index) (ids ++ [new]) := by
  intro id slot
  have hget : ids[slot]? ≠ some new := fun hget => hnew (List.mem_of_getElem? hget)
  rw [lookup_cons_if, List.getElem?_append]
  by_cases hid : id = new
  · subst hid
    grind
  · rw [if_neg hid, h id slot]
    grind

/-- An id that is new, put in the place of another. -/
theorem set (h : Inverts index ids) {victim : String} {k : Nat} (hk : ids[k]? = some victim)
    (hnew : new ∉ ids) :
    Inverts ((new, k) :: index.filter (·.1 != victim)) (ids.set k new) := by
  intro id slot
  have hlt : k < ids.length := (List.getElem?_eq_some_iff.mp hk).1
  have hget : ids[slot]? ≠ some new := fun hget => hnew (List.mem_of_getElem? hget)
  have hold := h id slot
  rw [lookup_cons_if, lookup_filter_ne, List.getElem?_set, if_pos hlt]
  by_cases hid : id = new
  · subst hid
    grind
  · by_cases hvid : id = victim
    · -- The victim was in slot `k` only, and that has a new id now.
      subst hvid
      have hslot : ids[slot]? = some id → k = slot := fun hs =>
        Option.some.inj (((h _ _).mpr hk).symm.trans ((h _ _).mpr hs))
      grind
    · rw [if_neg hid, if_neg hvid, hold]
      grind

end Inverts

/-! ## How the books agree -/

/-- How the books of a cache agree. -/
structure Kept (c : RecentCache) : Prop where
  size_le : c.size ≤ c.slots.length
  slots_le : c.slots.length ≤ c.capacity
  /-- What is in use is valid. -/
  valid : ∀ e ∈ c.live, e.valid = true
  /-- What is not in use is not valid. -/
  stale : ∀ e ∈ c.slots.drop c.size, e.valid = false
  /-- The index finds the slot of every id in use, and no others. -/
  index : Inverts c.index (c.live.map (·.id))
  named : ∀ e ∈ c.live, e.id = makeId e.sender e.createdAt
  /-- No two entries have one number. -/
  distinct : c.live.Pairwise (fun a b => a.seq ≠ b.seq)
  /-- Every number was drawn from the clock. -/
  drawn : ∀ e ∈ c.live, 1 ≤ e.seq ∧ e.seq ≤ c.clock

theorem Kept.empty (capacity : Nat) : (RecentCache.empty capacity).Kept where
  size_le := Nat.le_refl 0
  slots_le := Nat.zero_le _
  valid := nofun
  stale := nofun
  index := by simp [Inverts, RecentCache.empty, live]
  named := nofun
  distinct := List.Pairwise.nil
  drawn := nofun

/-! ## Reading -/

theorem live_lookup (c : RecentCache) (id : String) : (c.lookup id).2.live = c.live := by
  unfold lookup
  split <;> rfl

theorem Kept.length_live {c : RecentCache} (h : c.Kept) : c.live.length = c.size := by
  rw [live, List.length_take, Nat.min_eq_left h.size_le]

/-- The entries counted are those in use. -/
theorem Kept.length_eq {c : RecentCache} (h : c.Kept) : c.length = c.size := by
  have hstale : (c.slots.drop c.size).countP (·.valid) = 0 :=
    List.countP_eq_zero.mpr fun e he => by simp [h.stale e he]
  have hlive : c.live.countP (·.valid) = c.live.length :=
    List.countP_eq_length.mpr fun e he => h.valid e he
  calc c.length = (c.live ++ c.slots.drop c.size).countP (·.valid) := by
        rw [live, List.take_append_drop, length]
    _ = c.size := by rw [List.countP_append, hstale, hlive, h.length_live, Nat.add_zero]

theorem Kept.slotOf?_isSome_iff {c : RecentCache} (h : c.Kept) {id : String} :
    (c.slotOf? id).isSome ↔ id ∈ c.live.map (·.id) := h.index.isSome_iff

/-- An entry is found by its id exactly while it is in use. -/
theorem Kept.peek_eq_some_iff {c : RecentCache} (h : c.Kept) {id : String} {e : CacheEntry} :
    c.peek id = some e ↔ e ∈ c.live ∧ e.id = id := by
  have hslot : ∀ {slot : Nat} {e : CacheEntry}, c.live[slot]? = some e →
      c.slots[slot]? = some e ∧ e.valid = true := by
    intro slot e hget
    have hlt : slot < c.size := by
      rw [← h.length_live]
      exact (List.getElem?_eq_some_iff.mp hget).1
    have hvalid := h.valid e (List.mem_of_getElem? hget)
    rw [live, List.getElem?_take_of_lt hlt] at hget
    exact ⟨hget, hvalid⟩
  constructor
  · intro hpeek
    obtain ⟨slot, hindex, hfilter⟩ := Option.bind_eq_some_iff.mp hpeek
    have hid := (h.index _ _).mp hindex
    rw [List.getElem?_map, Option.map_eq_some_iff] at hid
    obtain ⟨e', hget, rfl⟩ := hid
    rw [(hslot hget).1, Option.filter_some, if_pos (hslot hget).2] at hfilter
    obtain rfl := Option.some.inj hfilter
    exact ⟨List.mem_of_getElem? hget, rfl⟩
  · rintro ⟨hmem, rfl⟩
    obtain ⟨slot, hget⟩ := List.mem_iff_getElem?.mp hmem
    have hindex : c.slotOf? e.id = some slot :=
      (h.index _ _).mpr (by rw [List.getElem?_map, hget]; rfl)
    rw [peek, hindex, Option.bind_some, (hslot hget).1, Option.filter_some, if_pos (hslot hget).2]

/-! ## The least recently used entry -/

/-- With a best so far, the search gives that or a better one, and none of the entries is better. -/
theorem oldestFrom_some {l : List CacheEntry} (hl : ∀ e ∈ l, e.valid = true) (best : Nat × Nat)
    (i : Nat) :
    ∃ r, oldestFrom (some best) i l = some r ∧ r.2 ≤ best.2 ∧ (∀ e ∈ l, r.2 ≤ e.seq) ∧
      (r = best ∨ ∃ k e, l[k]? = some e ∧ r = (i + k, e.seq)) := by
  induction l generalizing best i with
  | nil => exact ⟨best, rfl, Nat.le_refl _, nofun, Or.inl rfl⟩
  | cons e l ih =>
    have hrest : ∀ e ∈ l, e.valid = true := fun x hx => hl x (List.mem_cons_of_mem _ hx)
    have hvalid : e.valid = true := hl e List.mem_cons_self
    by_cases hlt : e.seq < best.2
    · obtain ⟨r, hr, hle, hall, hwhere⟩ := ih hrest (i, e.seq) (i + 1)
      refine ⟨r, ?_, Nat.le_trans hle (Nat.le_of_lt hlt), ?_, Or.inr ?_⟩
      · simpa [oldestFrom, hvalid, hlt] using hr
      · exact List.forall_mem_cons.mpr ⟨hle, hall⟩
      · rcases hwhere with rfl | ⟨k, x, hx, rfl⟩
        · exact ⟨0, e, rfl, rfl⟩
        · exact ⟨k + 1, x, hx, by rw [Nat.add_assoc, Nat.add_comm 1]⟩
    · obtain ⟨r, hr, hle, hall, hwhere⟩ := ih hrest best (i + 1)
      refine ⟨r, ?_, hle, ?_, ?_⟩
      · simpa [oldestFrom, hvalid, hlt] using hr
      · exact List.forall_mem_cons.mpr ⟨Nat.le_trans hle (Nat.le_of_not_lt hlt), hall⟩
      · rcases hwhere with rfl | ⟨k, x, hx, rfl⟩
        · exact Or.inl rfl
        · exact Or.inr ⟨k + 1, x, hx, by rw [Nat.add_assoc, Nat.add_comm 1]⟩

/-- Where there are entries the search finds a least one, and where it is. -/
theorem oldestFrom_none {l : List CacheEntry} (hl : ∀ e ∈ l, e.valid = true) (hne : l ≠ []) :
    ∃ slot e, oldestFrom none 0 l = some (slot, e.seq) ∧ l[slot]? = some e ∧
      ∀ x ∈ l, e.seq ≤ x.seq := by
  cases l with
  | nil => exact absurd rfl hne
  | cons e l =>
    have hrest : ∀ x ∈ l, x.valid = true := fun x hx => hl x (List.mem_cons_of_mem _ hx)
    obtain ⟨r, hr, hle, hall, hwhere⟩ := oldestFrom_some hrest (0, e.seq) 1
    have hscan : oldestFrom none 0 (e :: l) = some r := by
      simpa [oldestFrom, hl e List.mem_cons_self] using hr
    rcases hwhere with rfl | ⟨k, x, hx, rfl⟩
    · exact ⟨0, e, hscan, rfl, List.forall_mem_cons.mpr ⟨Nat.le_refl _, hall⟩⟩
    · refine ⟨1 + k, x, hscan, ?_, List.forall_mem_cons.mpr ⟨hle, hall⟩⟩
      rw [Nat.add_comm, List.getElem?_cons_succ, hx]

/-- Where there are entries there is a least recently used one, and `oldest` is its slot. -/
theorem Kept.oldest_spec {c : RecentCache} (h : c.Kept) (hne : c.live ≠ []) :
    ∃ victim, c.live[c.oldest]? = some victim ∧ ∀ e ∈ c.live, victim.seq ≤ e.seq := by
  obtain ⟨slot, victim, hfound, hget, hleast⟩ := oldestFrom_none h.valid hne
  have hslot : c.oldest = slot := by
    unfold oldest
    rw [← live, hfound]
  exact ⟨victim, hslot ▸ hget, hleast⟩

/-! ## Drawing a number

An insertion and a refresh have one effect in common: an entry gets the next number of the clock,
and the entries in use are that one and some of those from before. -/

/-- `e` got the next number, and beside it `rest` is still in use. -/
structure Draws (c c' : RecentCache) (e : CacheEntry) (rest : List CacheEntry) : Prop where
  live : c'.live.Perm (e :: rest)
  rest : rest.Sublist c.live
  clock : c'.clock = c.clock + 1
  seq : e.seq = c.clock + 1

/-- The new number is greater than every other. -/
theorem Draws.seq_lt {c c' : RecentCache} {e x : CacheEntry} {rest : List CacheEntry}
    (d : Draws c c' e rest) (h : c.Kept) (hx : x ∈ rest) : x.seq < e.seq := by
  rw [d.seq]
  exact Nat.lt_succ_of_le (h.drawn x (d.rest.subset hx)).2

/-- What is left to show of the books after a number was drawn: the slots and the index. -/
theorem Draws.kept {c c' : RecentCache} {e : CacheEntry} {rest : List CacheEntry}
    (d : Draws c c' e rest) (h : c.Kept) (hvalid : e.valid = true)
    (hnamed : e.id = makeId e.sender e.createdAt) (size_le : c'.size ≤ c'.slots.length)
    (slots_le : c'.slots.length ≤ c'.capacity)
    (stale : ∀ x ∈ c'.slots.drop c'.size, x.valid = false)
    (index : Inverts c'.index (c'.live.map (·.id))) : c'.Kept := by
  have hmem : ∀ x ∈ c'.live, x = e ∨ x ∈ c.live := fun x hx =>
    (List.mem_cons.mp (d.live.mem_iff.mp hx)).imp_right fun hr => d.rest.subset hr
  refine ⟨size_le, slots_le, ?_, stale, index, ?_, ?_, ?_⟩
  · intro x hx
    rcases hmem x hx with rfl | hx
    · exact hvalid
    · exact h.valid x hx
  · intro x hx
    rcases hmem x hx with rfl | hx
    · exact hnamed
    · exact h.named x hx
  · have hpair : (e :: rest).Pairwise (fun a b => a.seq ≠ b.seq) :=
      List.pairwise_cons.mpr
        ⟨fun x hx => (Nat.ne_of_lt (d.seq_lt h hx)).symm, h.distinct.sublist d.rest⟩
    exact (d.live.pairwise_iff fun hne => hne.symm).mpr hpair
  · intro x hx
    rw [d.clock]
    rcases hmem x hx with rfl | hx
    · exact ⟨d.seq ▸ Nat.succ_pos _, Nat.le_of_eq d.seq⟩
    · exact ⟨(h.drawn x hx).1, Nat.le_succ_of_le (h.drawn x hx).2⟩

/-! ## Overwriting a slot in use -/

/-- Overwriting a slot in use overwrites an entry in use, and leaves what is behind them alone. -/
theorem live_set {c c' : RecentCache} {slot : Nat} {e : CacheEntry}
    (hslots : c'.slots = c.slots.set slot e) (hsize : c'.size = c.size) :
    c'.live = c.live.set slot e := by
  rw [live, live, hslots, hsize, List.take_set]

theorem Draws.of_set {c c' : RecentCache} {slot : Nat} {e : CacheEntry}
    (hslots : c'.slots = c.slots.set slot e) (hsize : c'.size = c.size)
    (hslot : slot < c.live.length) (hclock : c'.clock = c.clock + 1) (hseq : e.seq = c.clock + 1) :
    Draws c c' e (c.live.eraseIdx slot) where
  live := live_set hslots hsize ▸ List.set_perm_cons_eraseIdx hslot e
  rest := List.eraseIdx_sublist ..
  clock := hclock
  seq := hseq

/-- The books after a slot in use was overwritten. -/
theorem Kept.of_set {c c' : RecentCache} {slot : Nat} {e : CacheEntry} (h : c.Kept)
    (hslots : c'.slots = c.slots.set slot e) (hsize : c'.size = c.size)
    (hcap : c'.capacity = c.capacity) (hslot : slot < c.live.length)
    (hclock : c'.clock = c.clock + 1) (hseq : e.seq = c.clock + 1) (hvalid : e.valid = true)
    (hnamed : e.id = makeId e.sender e.createdAt)
    (index : Inverts c'.index ((c.live.map (·.id)).set slot e.id)) : c'.Kept := by
  have hslot' : slot < c.size := h.length_live ▸ hslot
  refine (Draws.of_set hslots hsize hslot hclock hseq).kept h hvalid hnamed ?_ ?_ ?_ ?_
  · rw [hslots, hsize, List.length_set]
    exact h.size_le
  · rw [hslots, hcap, List.length_set]
    exact h.slots_le
  · rw [hslots, hsize, List.drop_set_of_lt hslot']
    exact h.stale
  · rw [live_set hslots hsize, List.map_set]
    exact index

/-! ## Filling a free slot -/

/-- The cache with an entry in its first slot that is not in use. -/
def filled (c : RecentCache) (e : CacheEntry) : RecentCache :=
  { c with
    slots := if c.size < c.slots.length then c.slots.set c.size e else c.slots ++ [e]
    size := c.size + 1
    index := (e.id, c.size) :: c.index
    clock := c.clock + 1 }

theorem Kept.slots_filled {c : RecentCache} (h : c.Kept) (e : CacheEntry) :
    (c.filled e).slots = c.live ++ e :: c.slots.drop (c.size + 1) := by
  by_cases hlt : c.size < c.slots.length
  · rw [filled, if_pos hlt, List.set_eq_take_append_cons_drop, if_pos hlt, live]
  · have heq : c.size = c.slots.length := Nat.le_antisymm h.size_le (Nat.le_of_not_lt hlt)
    rw [filled, if_neg hlt, live, heq, List.take_length, List.drop_eq_nil_of_le (Nat.le_succ _)]

theorem Kept.live_filled {c : RecentCache} (h : c.Kept) (e : CacheEntry) :
    (c.filled e).live = c.live ++ [e] := by
  have hlen : (c.live ++ [e]).length = (c.filled e).size := by
    rw [List.length_append, h.length_live]
    rfl
  rw [live, h.slots_filled, ← List.singleton_append, ← List.append_assoc, ← hlen, List.take_left]

theorem Kept.draws_filled {c : RecentCache} (h : c.Kept) {e : CacheEntry}
    (hseq : e.seq = c.clock + 1) : Draws c (c.filled e) e c.live where
  live := h.live_filled e ▸ List.perm_append_singleton e c.live
  rest := List.Sublist.refl _
  clock := rfl
  seq := hseq

theorem Kept.filled {c : RecentCache} (h : c.Kept) {e : CacheEntry} (hroom : c.size < c.capacity)
    (hnew : e.id ∉ c.live.map (·.id)) (hseq : e.seq = c.clock + 1) (hvalid : e.valid = true)
    (hnamed : e.id = makeId e.sender e.createdAt) : (c.filled e).Kept := by
  have hlen := h.length_live
  refine (h.draws_filled hseq).kept h hvalid hnamed ?_ ?_ ?_ ?_
  · rw [h.slots_filled, List.length_append, hlen]
    exact Nat.add_le_add_left (Nat.succ_pos _) _
  · have hle := h.slots_le
    rw [h.slots_filled, List.length_append, hlen, List.length_cons, List.length_drop]
    show c.size + _ ≤ c.capacity
    omega
  · intro x hx
    have hdrop : (c.filled e).slots.drop (c.size + 1) = c.slots.drop (c.size + 1) := by
      rw [h.slots_filled, ← hlen, ← List.drop_drop, List.drop_left, List.drop_one, List.tail_cons]
    have hx' : x ∈ (c.slots.drop c.size).drop 1 := by
      rw [List.drop_drop]
      exact hdrop ▸ hx
    exact h.stale x (List.mem_of_mem_drop hx')
  · have happend := h.index.append hnew
    rw [List.length_map, hlen] at happend
    rw [h.live_filled, List.map_append]
    exact happend

/-! ## Evicting -/

/-- The cache with an entry in the slot of another, whose id is forgotten. -/
def evicting (c : RecentCache) (victim e : CacheEntry) : RecentCache :=
  { c with
    slots := c.slots.set c.oldest e
    index := (e.id, c.oldest) :: c.index.filter (·.1 != victim.id)
    clock := c.clock + 1
    evictions := c.evictions + 1 }

/-- A cache without room has a least recently used entry, in the slot that `oldest` gives. -/
theorem Kept.victim {c : RecentCache} (h : c.Kept) (hcap : 0 < c.capacity)
    (hfull : ¬ c.size < c.capacity) :
    ∃ victim, c.live[c.oldest]? = some victim ∧ c.slots[c.oldest]? = some victim ∧
      ∀ e ∈ c.live, victim.seq ≤ e.seq := by
  have hne : c.live ≠ [] := by
    intro hnil
    have hlen := h.length_live
    rw [hnil] at hlen
    exact hfull (hlen ▸ hcap)
  obtain ⟨victim, hget, hleast⟩ := h.oldest_spec hne
  refine ⟨victim, hget, ?_, hleast⟩
  have hlt : c.oldest < c.size := h.length_live ▸ (List.getElem?_eq_some_iff.mp hget).1
  rwa [live, List.getElem?_take_of_lt hlt] at hget

theorem draws_evicting {c : RecentCache} {victim e : CacheEntry}
    (hvictim : c.live[c.oldest]? = some victim) (hseq : e.seq = c.clock + 1) :
    Draws c (c.evicting victim e) e (c.live.eraseIdx c.oldest) :=
  .of_set rfl rfl (List.getElem?_eq_some_iff.mp hvictim).1 rfl hseq

theorem Kept.evicting {c : RecentCache} (h : c.Kept) {victim e : CacheEntry}
    (hvictim : c.live[c.oldest]? = some victim) (hnew : e.id ∉ c.live.map (·.id))
    (hseq : e.seq = c.clock + 1) (hvalid : e.valid = true)
    (hnamed : e.id = makeId e.sender e.createdAt) : (c.evicting victim e).Kept := by
  have hlt : c.oldest < c.live.length := (List.getElem?_eq_some_iff.mp hvictim).1
  refine h.of_set rfl rfl rfl hlt rfl hseq hvalid hnamed (h.index.set ?_ hnew)
  rw [List.getElem?_map, hvictim]
  rfl

/-! ## Refreshing -/

/-- The cache whose entry `e`, in a slot in use, was just used. -/
def refreshed (c : RecentCache) (now slot : Nat) (e : CacheEntry) : RecentCache :=
  { c with
    slots := c.slots.set slot { e with lastAccess := now, seq := c.clock + 1, count := e.count + 1 }
    clock := c.clock + 1 }

theorem draws_refreshed {c : RecentCache} {slot : Nat} {e : CacheEntry}
    (hslot : c.live[slot]? = some e) (now : Nat) :
    Draws c (c.refreshed now slot e)
      { e with lastAccess := now, seq := c.clock + 1, count := e.count + 1 }
      (c.live.eraseIdx slot) :=
  .of_set rfl rfl (List.getElem?_eq_some_iff.mp hslot).1 rfl rfl

theorem Kept.refreshed {c : RecentCache} (h : c.Kept) {now slot : Nat} {e : CacheEntry}
    (hslot : c.live[slot]? = some e) : (c.refreshed now slot e).Kept := by
  obtain ⟨hlt, rfl⟩ := List.getElem?_eq_some_iff.mp hslot
  have hmem : c.live[slot] ∈ c.live := List.getElem_mem hlt
  have hvalid := h.valid _ hmem
  have hnamed := h.named _ hmem
  refine h.of_set rfl rfl rfl hlt rfl rfl hvalid hnamed ?_
  -- The id is the one that was there.
  have hsame : (c.live.map (·.id)).set slot c.live[slot].id = c.live.map (·.id) := by
    rw [← List.map_set, List.set_getElem_self]
  show Inverts c.index ((c.live.map (·.id)).set slot c.live[slot].id)
  rw [hsame]
  exact h.index

/-! ## The operations -/

/-- The entry an insertion makes. -/
def fresh (c : RecentCache) (now : Nat) (sender content : String) (timestamp : Int64) :
    CacheEntry :=
  { id := makeId sender timestamp, content, sender, createdAt := timestamp, lastAccess := now,
    seq := c.clock + 1, count := 1, valid := true }

section Insertion

variable {c : RecentCache} {sender : String} {timestamp : Int64}

theorem insert_of_present (hid : (c.slotOf? (makeId sender timestamp)).isSome) (now : Nat)
    (content : String) : c.insert now sender content timestamp = (false, c) := by
  rw [insert, insertion, if_pos hid]

theorem insert_of_room (hid : c.slotOf? (makeId sender timestamp) = none)
    (hroom : c.size < c.capacity) (now : Nat) (content : String) :
    c.insert now sender content timestamp =
      (true, c.filled (c.fresh now sender content timestamp)) := by
  simp only [insert, insertion, hid, Option.isSome_none, Bool.false_eq_true, if_false, freeSlot,
    victim?, if_pos hroom, place, fresh, filled]

theorem insert_of_full (hid : c.slotOf? (makeId sender timestamp) = none)
    (hfull : ¬ c.size < c.capacity) {victim : CacheEntry} (hslot : c.slots[c.oldest]? = some victim)
    (now : Nat) (content : String) :
    c.insert now sender content timestamp =
      (true, c.evicting victim (c.fresh now sender content timestamp)) := by
  have hlt : c.oldest < c.slots.length := (List.getElem?_eq_some_iff.mp hslot).1
  simp only [insert, insertion, hid, Option.isSome_none, Bool.false_eq_true, if_false, freeSlot,
    victim?, if_neg hfull, hslot, Option.map_some, Option.getD_some, place, if_pos hlt, fresh,
    evicting]

/-- What an insertion can do: nothing, fill a free slot, or evict the least recently used entry. -/
theorem Kept.insert_cases (h : c.Kept) (hcap : 0 < c.capacity) (now : Nat) (sender content : String)
    (timestamp : Int64) :
    (makeId sender timestamp ∈ c.live.map (·.id) ∧
        c.insert now sender content timestamp = (false, c)) ∨
      (makeId sender timestamp ∉ c.live.map (·.id) ∧ c.size < c.capacity ∧
        c.insert now sender content timestamp =
          (true, c.filled (c.fresh now sender content timestamp))) ∨
      (makeId sender timestamp ∉ c.live.map (·.id) ∧ c.size = c.capacity ∧
        ∃ victim, c.live[c.oldest]? = some victim ∧ (∀ e ∈ c.live, victim.seq ≤ e.seq) ∧
          c.insert now sender content timestamp =
            (true, c.evicting victim (c.fresh now sender content timestamp))) := by
  rcases hid : c.slotOf? (makeId sender timestamp) with _ | slot
  · have hnew : makeId sender timestamp ∉ c.live.map (·.id) := by
      rw [← h.slotOf?_isSome_iff, hid]
      nofun
    by_cases hroom : c.size < c.capacity
    · exact Or.inr (Or.inl ⟨hnew, hroom, insert_of_room hid hroom now content⟩)
    · obtain ⟨victim, hlive, hslot, hleast⟩ := h.victim hcap hroom
      have hsize : c.size = c.capacity :=
        Nat.le_antisymm (Nat.le_trans h.size_le h.slots_le) (Nat.le_of_not_lt hroom)
      exact Or.inr (Or.inr ⟨hnew, hsize, victim, hlive, hleast,
        insert_of_full hid hroom hslot now content⟩)
  · have hsome : (c.slotOf? (makeId sender timestamp)).isSome := by rw [hid]; rfl
    exact Or.inl ⟨h.slotOf?_isSome_iff.mp hsome, insert_of_present hsome now content⟩

end Insertion

/-- What a refresh can do: nothing, or use the entry of the id. -/
theorem Kept.refresh_cases {c : RecentCache} (h : c.Kept) (now : Nat) (id : String) :
    (id ∉ c.live.map (·.id) ∧ c.refresh now id = c) ∨
      ∃ slot e, c.live[slot]? = some e ∧ e.id = id ∧ c.refresh now id = c.refreshed now slot e := by
  rcases hid : c.slotOf? id with _ | slot
  · refine Or.inl ⟨?_, by rw [refresh, hid]⟩
    rw [← h.slotOf?_isSome_iff, hid]
    nofun
  · have hget := (h.index _ _).mp hid
    rw [List.getElem?_map, Option.map_eq_some_iff] at hget
    obtain ⟨e, hget, rfl⟩ := hget
    refine Or.inr ⟨slot, e, hget, rfl, ?_⟩
    have hvalid : e.valid = true := h.valid e (List.mem_of_getElem? hget)
    have hlt : slot < c.size := h.length_live ▸ (List.getElem?_eq_some_iff.mp hget).1
    rw [live, List.getElem?_take_of_lt hlt] at hget
    simp only [refresh, hid, List.modify_eq_set_getElem?, hget, Option.map_eq_map,
      Option.map_some, Option.getD_some, if_pos hvalid]
    rfl

theorem Kept.clear {c : RecentCache} (h : c.Kept) : c.clear.Kept where
  size_le := Nat.zero_le _
  slots_le := by
    show (c.slots.map _).length ≤ c.capacity
    rw [List.length_map]
    exact h.slots_le
  valid := nofun
  stale := by
    intro e he
    obtain ⟨e', -, rfl⟩ := List.mem_map.mp he
    rfl
  index := by simp [Inverts, RecentCache.clear, live]
  named := nofun
  distinct := List.Pairwise.nil
  drawn := nofun

/-! ## Every cache that can come about -/

theorem Kept.lookup {c : RecentCache} (h : c.Kept) (id : String) : (c.lookup id).2.Kept := by
  unfold RecentCache.lookup
  split <;> exact ⟨h.size_le, h.slots_le, h.valid, h.stale, h.index, h.named, h.distinct, h.drawn⟩

theorem Kept.insert {c : RecentCache} (h : c.Kept) (hcap : 0 < c.capacity) (now : Nat)
    (sender content : String) (timestamp : Int64) :
    (c.insert now sender content timestamp).2.Kept := by
  rcases h.insert_cases hcap now sender content timestamp with
    ⟨-, heq⟩ | ⟨hnew, hroom, heq⟩ | ⟨hnew, -, victim, hvictim, -, heq⟩
  · rw [heq]
    exact h
  · rw [heq]
    exact h.filled hroom hnew rfl rfl rfl
  · rw [heq]
    exact h.evicting hvictim hnew rfl rfl rfl

theorem Kept.refresh {c : RecentCache} (h : c.Kept) (now : Nat) (id : String) :
    (c.refresh now id).Kept := by
  rcases h.refresh_cases now id with ⟨-, heq⟩ | ⟨slot, e, hslot, -, heq⟩
  · rw [heq]
    exact h
  · rw [heq]
    exact h.refreshed hslot

theorem Kept.after {c : RecentCache} (h : c.Kept) (hcap : 0 < c.capacity) (μ : CacheMove) :
    (c.after μ).Kept := by
  cases μ with
  | insert now sender content timestamp => exact h.insert hcap now sender content timestamp
  | lookup id => exact h.lookup id
  | refresh now id => exact h.refresh now id
  | peek id => exact h
  | clear => exact h.clear

theorem capacity_after (c : RecentCache) (μ : CacheMove) : (c.after μ).capacity = c.capacity := by
  cases μ with
  | insert now sender content timestamp =>
    show (c.insert now sender content timestamp).2.capacity = c.capacity
    by_cases hid : (c.slotOf? (makeId sender timestamp)).isSome
    · rw [insert_of_present hid]
    · by_cases hroom : c.size < c.capacity <;>
        simp only [RecentCache.insert, insertion, if_neg hid, freeSlot, victim?, hroom, if_true,
          if_false, place]
  | lookup id =>
    show (c.lookup id).2.capacity = c.capacity
    unfold RecentCache.lookup
    split <;> rfl
  | refresh now id =>
    show (c.refresh now id).capacity = c.capacity
    unfold RecentCache.refresh
    split <;> rfl
  | peek id => rfl
  | clear => rfl

end RecentCache

end ChatHub
