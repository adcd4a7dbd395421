import ChatHub.Proofs.RecentCache.Slots
/-!
# The books of a cache, slot by slot

`Kept` speaks of the entries in use and forgets where they are. This module says the same of the
slots themselves, as somebody sees them who walks through them by number: which of them are valid,
what the index has to say about them, and what their ids and numbers are (`Consistent`).

From that follows what an insertion may rely on. The slot that it writes to is one that there is, or
the first behind the last. When there is no room, the search finds an entry and does not fall back
to the first slot for want of one; there is only one that it could find; and once its id has been
forgotten the index has all the other ids and no more (`Evicts`).
-/

namespace ChatHub

namespace RecentCache

/-- The cache after a run. -/
def run (c : RecentCache) (μs : List CacheMove) : RecentCache := μs.foldl after c

theorem run_kept {c : RecentCache} (h : c.Kept) (hcap : 0 < c.capacity) (μs : List CacheMove) :
    (c.run μs).Kept ∧ (c.run μs).capacity = c.capacity := by
  induction μs generalizing c with
  | nil => exact ⟨h, rfl⟩
  | cons μ μs ih =>
    have hcapacity := c.capacity_after μ
    obtain ⟨hkept, hsame⟩ := ih (h.after hcap μ) (hcapacity ▸ hcap)
    exact ⟨hkept, hsame.trans hcapacity⟩

theorem create_eq_empty {capacity : Nat} (hcap : 1 ≤ capacity) :
    create capacity = .ok (empty capacity) := if_neg (Nat.ne_of_gt hcap)

/-! ## Slots by number -/

/-- What the slots, the index and the clock say about each other. -/
structure Consistent (c : RecentCache) : Prop where
  size_le_capacity : c.size ≤ c.capacity
  size_le : c.size ≤ c.slots.length
  slots_le : c.slots.length ≤ c.capacity
  /-- The slots in use are the first ones. -/
  valid_iff : ∀ (slot : Nat) (e : CacheEntry), c.slots[slot]? = some e →
    (e.valid = true ↔ slot < c.size)
  /-- The index has the ids of the slots in use, and nothing else. -/
  index_iff : ∀ (id : String) (slot : Nat), c.slotOf? id = some slot ↔
    ∃ e, c.slots[slot]? = some e ∧ e.valid = true ∧ e.id = id
  ids_distinct : ∀ (i j : Nat) (d e : CacheEntry), c.slots[i]? = some d → c.slots[j]? = some e →
    d.valid = true → e.valid = true → d.id = e.id → i = j
  length_eq : c.length = c.size
  named : ∀ e ∈ c.slots, e.valid = true → e.id = makeId e.sender e.createdAt
  seqs_distinct : ∀ (i j : Nat) (d e : CacheEntry), c.slots[i]? = some d → c.slots[j]? = some e →
    d.valid = true → e.valid = true → d.seq = e.seq → i = j
  drawn : ∀ e ∈ c.slots, e.valid = true → 1 ≤ e.seq ∧ e.seq ≤ c.clock

namespace Kept

variable {c : RecentCache} (h : c.Kept)
include h

theorem valid_iff {slot : Nat} {e : CacheEntry} (he : c.slots[slot]? = some e) :
    e.valid = true ↔ slot < c.size := by
  constructor
  · intro hvalid
    apply Nat.lt_of_not_le
    intro hle
    have hbehind : (c.slots.drop c.size)[slot - c.size]? = some e := by
      rw [List.getElem?_drop, Nat.add_sub_cancel' hle]
      exact he
    have hstale := h.stale e (List.mem_of_getElem? hbehind)
    rw [hvalid] at hstale
    cases hstale
  · intro hlt
    have hlive : c.live[slot]? = some e := by
      rw [live, List.getElem?_take_of_lt hlt]
      exact he
    exact h.valid e (List.mem_of_getElem? hlive)

/-- The entries in use are those in the valid slots. -/
theorem getElem?_live_iff {slot : Nat} {e : CacheEntry} :
    c.live[slot]? = some e ↔ c.slots[slot]? = some e ∧ e.valid = true := by
  constructor
  · intro hlive
    have hlt : slot < c.size := by
      rw [← h.length_live]
      exact (List.getElem?_eq_some_iff.mp hlive).1
    have hvalid := h.valid e (List.mem_of_getElem? hlive)
    rw [live, List.getElem?_take_of_lt hlt] at hlive
    exact ⟨hlive, hvalid⟩
  · rintro ⟨he, hvalid⟩
    rw [live, List.getElem?_take_of_lt ((h.valid_iff he).mp hvalid)]
    exact he

theorem mem_live_iff {e : CacheEntry} : e ∈ c.live ↔ e ∈ c.slots ∧ e.valid = true := by
  simp only [List.mem_iff_getElem?, h.getElem?_live_iff, exists_and_right]

theorem slotOf?_eq_some_iff {id : String} {slot : Nat} :
    c.slotOf? id = some slot ↔ ∃ e, c.slots[slot]? = some e ∧ e.valid = true ∧ e.id = id := by
  have hindex : c.slotOf? id = some slot ↔ (c.live.map (·.id))[slot]? = some id := h.index id slot
  simp only [hindex, List.getElem?_map, Option.map_eq_some_iff, h.getElem?_live_iff, and_assoc]

/-- Of the slots in use, no two show the same where no two entries in use do. -/
theorem slots_distinct {α : Type} {f : CacheEntry → α} (hf : (c.live.map f).Nodup) {i j : Nat}
    {d e : CacheEntry} (hd : c.slots[i]? = some d) (he : c.slots[j]? = some e)
    (hdvalid : d.valid = true) (hevalid : e.valid = true) (heq : f d = f e) : i = j := by
  have hi := h.getElem?_live_iff.mpr ⟨hd, hdvalid⟩
  have hj := h.getElem?_live_iff.mpr ⟨he, hevalid⟩
  have hlt : i < (c.live.map f).length := by
    rw [List.length_map]
    exact (List.getElem?_eq_some_iff.mp hi).1
  apply (List.getElem?_inj hlt hf).mp
  rw [List.getElem?_map, List.getElem?_map, hi, hj]
  exact congrArg some heq

theorem consistent : c.Consistent where
  size_le_capacity := Nat.le_trans h.size_le h.slots_le
  size_le := h.size_le
  slots_le := h.slots_le
  valid_iff := fun _ _ he => h.valid_iff he
  index_iff := fun _ _ => h.slotOf?_eq_some_iff
  ids_distinct := fun _ _ _ _ hd he => h.slots_distinct h.index.nodup hd he
  length_eq := h.length_eq
  named := fun e he hvalid => h.named e (h.mem_live_iff.mpr ⟨he, hvalid⟩)
  seqs_distinct := fun _ _ _ _ hd he =>
    h.slots_distinct (List.pairwise_map.mpr h.distinct) hd he
  drawn := fun e he hvalid => h.drawn e (h.mem_live_iff.mpr ⟨he, hvalid⟩)

end Kept

/-! ## The slot of an insertion -/

/-- The entry that has to go when there is no room. -/
structure Evicts (c : RecentCache) (victim : CacheEntry) : Prop where
  /-- The search finds it, and does not give up. -/
  found : oldestFrom none 0 (c.slots.take c.size) = some (c.oldest, victim.seq)
  slot : c.slots[c.oldest]? = some victim
  valid : victim.valid = true
  /-- No other entry could have been found. -/
  least : ∀ (slot : Nat) (e : CacheEntry), c.slots[slot]? = some e → e.valid = true →
    slot ≠ c.oldest → victim.seq < e.seq
  freed : c.freeSlot.1 = c.oldest
  /-- The index has lost the slot that is freed, and nothing else. -/
  forgotten : ∀ (id : String) (slot : Nat), c.freeSlot.2.slotOf? id = some slot ↔
    c.slotOf? id = some slot ∧ slot ≠ c.oldest

namespace Kept

variable {c : RecentCache} (h : c.Kept)
include h

/-- The search gives the slot that is freed. -/
theorem oldestFrom_eq {victim : CacheEntry} (hvictim : c.live[c.oldest]? = some victim) :
    oldestFrom none 0 (c.slots.take c.size) = some (c.oldest, victim.seq) := by
  have hne : c.live ≠ [] := List.ne_nil_of_mem (List.mem_of_getElem? hvictim)
  obtain ⟨slot, e, hfound, hget, -⟩ := oldestFrom_none h.valid hne
  have hslot : c.oldest = slot := by
    unfold oldest
    rw [← live, hfound]
  subst hslot
  rw [← live, hfound, Option.some.inj (hget.symm.trans hvictim)]

/-- When the id of a slot in use is struck out, the index still has all the others. -/
theorem slotOf?_freed {slot : Nat} {victim : CacheEntry} (hvictim : c.slots[slot]? = some victim)
    (hvalid : victim.valid = true) (id : String) (other : Nat) :
    (c.index.filter (·.1 != victim.id)).lookup id = some other ↔
      c.slotOf? id = some other ∧ other ≠ slot := by
  have hown : c.slotOf? victim.id = some slot :=
    h.slotOf?_eq_some_iff.mpr ⟨victim, hvictim, hvalid, rfl⟩
  rw [lookup_filter_ne]
  by_cases hid : id = victim.id
  · subst hid
    rw [if_pos rfl, hown]
    simp [eq_comm]
  · rw [if_neg hid]
    refine ⟨fun hother => ⟨hother, ?_⟩, fun hother => hother.1⟩
    rintro rfl
    obtain ⟨e, he, -, heid⟩ := h.slotOf?_eq_some_iff.mp hother
    rw [hvictim] at he
    exact hid (heid.symm.trans (congrArg CacheEntry.id (Option.some.inj he).symm))

theorem evicts (hcap : 0 < c.capacity) (hfull : ¬ c.size < c.capacity) :
    ∃ victim, c.Evicts victim := by
  obtain ⟨victim, hlive, hslot, hleast⟩ := h.victim hcap hfull
  have hvalid := h.valid victim (List.mem_of_getElem? hlive)
  have hfree : c.freeSlot =
      (c.oldest, { c with
        index := c.index.filter (·.1 != victim.id), evictions := c.evictions + 1 }) := by
    simp only [freeSlot, victim?, if_neg hfull, hslot, Option.map_some, Option.getD_some]
  refine ⟨victim, h.oldestFrom_eq hlive, hslot, hvalid, ?_, ?_, ?_⟩
  · intro slot e he hevalid hne
    have hmem : e ∈ c.live := h.mem_live_iff.mpr ⟨List.mem_of_getElem? he, hevalid⟩
    apply Nat.lt_of_le_of_ne (hleast e hmem)
    intro heq
    exact hne (h.consistent.seqs_distinct _ _ _ _ he hslot hevalid hvalid heq.symm)
  · rw [hfree]
  · intro id slot
    rw [hfree]
    exact h.slotOf?_freed hslot hvalid id slot

/-- A new entry comes into the slot that is freed for it: one that there is, or the next one. -/
theorem slots_insert (hcap : 0 < c.capacity) {sender : String} {timestamp : Int64}
    (hnew : c.slotOf? (makeId sender timestamp) = none) (now : Nat) (content : String) :
    c.freeSlot.1 ≤ c.slots.length ∧
      (c.insert now sender content timestamp).2.slots =
        c.slots.take c.freeSlot.1 ++
          c.fresh now sender content timestamp :: c.slots.drop (c.freeSlot.1 + 1) := by
  by_cases hroom : c.size < c.capacity
  · have hfree : c.freeSlot.1 = c.size := by
      simp only [freeSlot, victim?, if_pos hroom]
    rw [hfree, insert_of_room hnew hroom, h.slots_filled]
    exact ⟨h.size_le, rfl⟩
  · obtain ⟨victim, -, hslot, -⟩ := h.victim hcap hroom
    have hlt : c.oldest < c.slots.length := (List.getElem?_eq_some_iff.mp hslot).1
    have hfree : c.freeSlot.1 = c.oldest := by
      simp only [freeSlot, victim?, if_neg hroom]
    rw [hfree, insert_of_full hnew hroom hslot]
    refine ⟨Nat.le_of_lt hlt, ?_⟩
    show c.slots.set c.oldest _ = _
    rw [List.set_eq_take_append_cons_drop, if_pos hlt]

end Kept

/-- **The books of a cache agree**, whatever has happened to it: the slots, how many of them are in
use, the index and the clock. So every insertion of a new id writes its entry to a slot that there
is, or to the next one, and leaves the others as they are; and when there is no room it finds the
one entry that has to go. -/
theorem books_consistent {capacity : Nat} (hcap : 1 ≤ capacity) :
    ∃ start, create capacity = .ok start ∧ ∀ μs : List CacheMove,
      let c := start.run μs
      c.capacity = capacity ∧ c.Consistent ∧
        ∀ now sender content timestamp, c.slotOf? (makeId sender timestamp) = none →
          let slot := c.freeSlot.1
          slot ≤ c.slots.length ∧
            (c.insert now sender content timestamp).2.slots =
              c.slots.take slot ++
                c.fresh now sender content timestamp :: c.slots.drop (slot + 1) ∧
            (c.size = c.capacity → ∃ victim, c.Evicts victim) := by
  refine ⟨empty capacity, create_eq_empty hcap, fun μs => ?_⟩
  obtain ⟨hkept, hcapacity⟩ := run_kept (Kept.empty capacity) hcap μs
  intro c
  have hroom : 0 < c.capacity := hcapacity ▸ hcap
  refine ⟨hcapacity, hkept.consistent, fun now sender content timestamp hnew => ?_⟩
  obtain ⟨hslot, hslots⟩ := hkept.slots_insert hroom hnew now content
  exact ⟨hslot, hslots, fun hfull => hkept.evicts hroom (Nat.not_lt.mpr (Nat.le_of_eq hfull.symm))⟩

/-- Two entries fill a cache, and the one that was not refreshed has to go; after a clearing one
slot of the two is in use again. -/
theorem books_consistent_through_eviction_and_clearing :
    1 ≤ 2 ∧ ∃ start, create 2 = .ok start ∧
      let full := start.run [.insert 0 "a" "x" 1, .insert 1 "b" "y" 1, .refresh 2 "a_1"]
      let cleared := full.run [.insert 3 "c" "z" 1, .clear, .insert 4 "a" "w" 1]
      full.Consistent ∧ (∃ victim, full.Evicts victim ∧ victim.id = "b_1") ∧
        cleared.Consistent ∧ cleared.length = 1 ∧ cleared.slots.length = 2 := by
  obtain ⟨start, hstart, hbooks⟩ := books_consistent (show 1 ≤ 2 by decide)
  refine ⟨by decide, start, hstart, ?_⟩
  obtain rfl : empty 2 = start := Except.ok.inj hstart
  intro full cleared
  obtain ⟨-, hfull, hinsertion⟩ :=
    hbooks [.insert 0 "a" "x" 1, .insert 1 "b" "y" 1, .refresh 2 "a_1"]
  obtain ⟨-, -, hevicts⟩ := hinsertion 3 "c" "z" 1 (by decide)
  obtain ⟨victim, hvictim⟩ := hevicts (by decide)
  have hid : victim.id = "b_1" := by
    have hslot : full.slots[full.oldest]?.map (·.id) = some "b_1" := by decide
    rw [hvictim.slot] at hslot
    exact Option.some.inj hslot
  have hcleared := (hbooks [.insert 0 "a" "x" 1, .insert 1 "b" "y" 1, .refresh 2 "a_1",
    .insert 3 "c" "z" 1, .clear, .insert 4 "a" "w" 1]).2.1
  exact ⟨hfull, ⟨victim, hvictim, hid⟩, hcleared, by decide, by decide⟩

end RecentCache

end ChatHub
