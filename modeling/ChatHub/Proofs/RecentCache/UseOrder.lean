import ChatHub.Proofs.RecentCache.Slots
/-!
# The cache as a list in order of use

What a cache of recent messages does can be said without slots, numbers and an index. `UseList` says
it: a list of entries from the least to the most recently used. A new entry goes to the end, and the
first one drops out when there were `capacity` of them; a refresh moves an entry to the end; a
lookup counts and moves nothing.

`RecentCache.toUseList` reads that list off a cache, by sorting the entries in use by their numbers,
and every operation commutes with it (`step_toUseList`). So nobody who only asks can tell the two
apart: `transcript_eq_useList` compares, for every sequence of moves, everything that is answered
and everything that can be seen after each move.

Counts have no upper end here, as they have none in `RecentCache`.
-/

namespace ChatHub

/-- What can be seen of one entry: everything but its number. -/
structure Memo where
  id : String
  sender : String
  content : String
  createdAt : Int64
  lastAccess : Nat
  count : Nat
deriving Repr, DecidableEq

/-- What comes of a move. -/
inductive CacheAnswer where
  /-- Whether a message was remembered. -/
  | added (yes : Bool)
  /-- What was found under an id. -/
  | content (found : Option String)
  | memo (found : Option Memo)
  /-- It was done, and there is nothing to tell. -/
  | done
deriving Repr, DecidableEq

/-- Everything that can be seen of a cache. -/
structure Glimpse where
  length : Nat
  hits : Nat
  misses : Nat
  evictions : Nat
  memo : String → Option Memo

/-- The answers of a run, each with what could be seen after it. -/
def transcript {σ : Type} (step : σ → CacheMove → CacheAnswer × σ) (glimpse : σ → Glimpse) :
    σ → List CacheMove → List (CacheAnswer × Glimpse)
  | _, [] => []
  | s, μ :: μs =>
    ((step s μ).1, glimpse (step s μ).2) :: transcript step glimpse (step s μ).2 μs

/-- If a view commutes with every step and shows what there is to see, it changes no transcript. -/
theorem transcript_eq_of_view {σ τ : Type} {step : σ → CacheMove → CacheAnswer × σ}
    {step' : τ → CacheMove → CacheAnswer × τ} {glimpse : σ → Glimpse} {glimpse' : τ → Glimpse}
    (view : σ → τ) (P : σ → Prop) (keeps : ∀ s μ, P s → P (step s μ).2)
    (commutes : ∀ s μ, P s → step' (view s) μ = ((step s μ).1, view (step s μ).2))
    (shows : ∀ s, P s → glimpse' (view s) = glimpse s) {s : σ} (hs : P s) (μs : List CacheMove) :
    transcript step glimpse s μs = transcript step' glimpse' (view s) μs := by
  induction μs generalizing s with
  | nil => rfl
  | cons μ μs ih =>
    rw [transcript, transcript, commutes s μ hs, shows _ (keeps s μ hs), ih (keeps s μ hs)]

/-! ## The list -/

/-- Entries from the least to the most recently used, and how often they were looked for. -/
structure UseList where
  capacity : Nat
  memos : List Memo
  hits : Nat
  misses : Nat
  evictions : Nat
deriving Repr, DecidableEq

namespace UseList

/-- A list with nothing in it. -/
def empty (capacity : Nat) : UseList :=
  { capacity, memos := [], hits := 0, misses := 0, evictions := 0 }

def find? (l : UseList) (id : String) : Option Memo := l.memos.find? (·.id == id)

/-- Puts a message at the end, unless its id is there. The first entry drops out when there are as
many as there may be. -/
def insert (l : UseList) (now : Nat) (sender content : String) (timestamp : Int64) :
    Bool × UseList :=
  let memo : Memo :=
    { id := RecentCache.makeId sender timestamp, sender, content, createdAt := timestamp,
      lastAccess := now, count := 1 }
  if (l.find? memo.id).isSome then (false, l)
  else if l.memos.length = l.capacity then
    (true, { l with memos := l.memos.tail ++ [memo], evictions := l.evictions + 1 })
  else (true, { l with memos := l.memos ++ [memo] })

/-- The content under an id; counts a hit or a miss. -/
def lookup (l : UseList) (id : String) : Option String × UseList :=
  match l.find? id with
  | some m => (some m.content, { l with hits := l.hits + 1 })
  | none => (none, { l with misses := l.misses + 1 })

/-- Moves the entry of an id to the end, and counts the use. -/
def refresh (l : UseList) (now : Nat) (id : String) : UseList :=
  match l.find? id with
  | some m =>
    { l with memos :=
        l.memos.eraseP (·.id == id) ++ [{ m with lastAccess := now, count := m.count + 1 }] }
  | none => l

/-- Forgets every entry, and how many lookups there were. -/
def clear (l : UseList) : UseList := { l with memos := [], hits := 0, misses := 0 }

def step (l : UseList) : CacheMove → CacheAnswer × UseList
  | .insert now sender content timestamp =>
    (.added (l.insert now sender content timestamp).1, (l.insert now sender content timestamp).2)
  | .lookup id => (.content (l.lookup id).1, (l.lookup id).2)
  | .refresh now id => (.done, l.refresh now id)
  | .peek id => (.memo (l.find? id), l)
  | .clear => (.done, l.clear)

/-- What can be seen of a list. -/
def glimpse (l : UseList) : Glimpse :=
  { length := l.memos.length, hits := l.hits, misses := l.misses, evictions := l.evictions
    memo := l.find? }

end UseList

/-! ## The list of a cache -/

/-- What can be seen of an entry. -/
def CacheEntry.memo (e : CacheEntry) : Memo :=
  { id := e.id, sender := e.sender, content := e.content, createdAt := e.createdAt,
    lastAccess := e.lastAccess, count := e.count }

namespace RecentCache

/-- What comes of a move. -/
def answer (c : RecentCache) : CacheMove → CacheAnswer
  | .insert now sender content timestamp => .added (c.insert now sender content timestamp).1
  | .lookup id => .content (c.lookup id).1
  | .refresh _ _ => .done
  | .peek id => .memo ((c.peek id).map (·.memo))
  | .clear => .done

def step (c : RecentCache) (μ : CacheMove) : CacheAnswer × RecentCache := (c.answer μ, c.after μ)

/-- What can be seen of a cache. -/
def glimpse (c : RecentCache) : Glimpse :=
  { length := c.length, hits := c.hits, misses := c.misses, evictions := c.evictions
    memo := fun id => (c.peek id).map (·.memo) }

/-- The entries in use, from the least to the most recently used. -/
def byUse (c : RecentCache) : List CacheEntry := c.live.mergeSort (fun a b => a.seq ≤ b.seq)

/-- The cache as a list in order of use. -/
def toUseList (c : RecentCache) : UseList :=
  { capacity := c.capacity, memos := c.byUse.map (·.memo), hits := c.hits, misses := c.misses,
    evictions := c.evictions }

theorem byUse_perm (c : RecentCache) : c.byUse.Perm c.live := List.mergeSort_perm _ _

theorem Kept.byUse_sorted {c : RecentCache} (h : c.Kept) :
    c.byUse.Pairwise (fun a b => a.seq < b.seq) := by
  have hle : c.byUse.Pairwise (fun a b => decide (a.seq ≤ b.seq) = true) := by
    refine List.pairwise_mergeSort ?_ ?_ c.live
    · intro a b d hab hbd
      exact decide_eq_true (Nat.le_trans (of_decide_eq_true hab) (of_decide_eq_true hbd))
    · intro a b
      simpa using Nat.le_total a.seq b.seq
  have hne : c.byUse.Pairwise (fun a b => a.seq ≠ b.seq) :=
    (c.byUse_perm.pairwise_iff fun hne => hne.symm).mpr h.distinct
  exact (hle.and hne).imp fun hab => Nat.lt_of_le_of_ne (of_decide_eq_true hab.1) hab.2

/-- There is only one order of use. -/
theorem Kept.byUse_eq {c : RecentCache} (h : c.Kept) {order : List CacheEntry}
    (hperm : order.Perm c.live) (hsorted : order.Pairwise (fun a b => a.seq < b.seq)) :
    c.byUse = order :=
  List.Perm.eq_of_pairwise
    (fun _ _ _ _ hab hba => absurd hba (Nat.lt_asymm hab))
    h.byUse_sorted hsorted (c.byUse_perm.trans hperm.symm)

/-- When a number was drawn, its entry is the last in the order of use, and the others keep the
order they had. -/
theorem Draws.byUse_eq {c c' : RecentCache} {e : CacheEntry} {rest order : List CacheEntry}
    (d : Draws c c' e rest) (h : c.Kept) (h' : c'.Kept) (hperm : order.Perm rest)
    (hsub : order.Sublist c.byUse) : c'.byUse = order ++ [e] := by
  refine h'.byUse_eq ?_ ?_
  · exact ((List.perm_append_singleton e order).trans (hperm.cons e)).trans d.live.symm
  · refine List.pairwise_append.mpr ⟨h.byUse_sorted.sublist hsub, List.pairwise_singleton _ _, ?_⟩
    intro x hx y hy
    rw [List.mem_singleton.mp hy]
    exact d.seq_lt h (hperm.mem_iff.mp hx)

/-! ## What can be seen is the same -/

theorem Kept.length_memos {c : RecentCache} (h : c.Kept) :
    c.toUseList.memos.length = c.length := by
  show (c.byUse.map (·.memo)).length = c.length
  rw [List.length_map, c.byUse_perm.length_eq, h.length_live, h.length_eq]

/-- No two entries in use have one id. -/
theorem Kept.eq_of_id_eq {c : RecentCache} (h : c.Kept) {e e' : CacheEntry} (he : e ∈ c.live)
    (he' : e' ∈ c.live) (hid : e'.id = e.id) : e' = e :=
  List.inj_on_of_nodup_map h.index.nodup he' he hid

theorem Kept.find?_byUse {c : RecentCache} (h : c.Kept) (id : String) :
    c.byUse.find? (·.id == id) = c.peek id := by
  have hmem : ∀ e, e ∈ c.byUse ↔ e ∈ c.live := fun e => c.byUse_perm.mem_iff
  cases hf : c.byUse.find? (·.id == id) with
  | none =>
    cases hp : c.peek id with
    | none => rfl
    | some e =>
      obtain ⟨he, hid⟩ := h.peek_eq_some_iff.mp hp
      exact absurd hid (by simpa using List.find?_eq_none.mp hf e ((hmem e).mpr he))
  | some e =>
    have he := (hmem e).mp (List.mem_of_find?_eq_some hf)
    exact (h.peek_eq_some_iff.mpr ⟨he, by simpa using List.find?_some hf⟩).symm

/-- An id finds the same entry in the list as in the cache. -/
theorem Kept.find?_toUseList {c : RecentCache} (h : c.Kept) (id : String) :
    c.toUseList.find? id = (c.peek id).map (·.memo) := by
  show (c.byUse.map (·.memo)).find? (·.id == id) = _
  rw [List.find?_map, ← h.find?_byUse]
  rfl

theorem Kept.glimpse_toUseList {c : RecentCache} (h : c.Kept) :
    c.toUseList.glimpse = c.glimpse := by
  rw [UseList.glimpse, glimpse, h.length_memos, funext h.find?_toUseList]
  rfl

/-! ## Every operation is the same -/

theorem Kept.toUseList_filled {c : RecentCache} (h : c.Kept) {e : CacheEntry}
    (hseq : e.seq = c.clock + 1) (h' : (c.filled e).Kept) :
    (c.filled e).toUseList = { c.toUseList with memos := c.toUseList.memos ++ [e.memo] } := by
  have hby : (c.filled e).byUse = c.byUse ++ [e] :=
    (h.draws_filled hseq).byUse_eq h h' c.byUse_perm (List.Sublist.refl _)
  rw [toUseList, hby, List.map_append]
  rfl

/-- The entry with the least number is the first in the order of use. -/
theorem Kept.byUse_of_least {c : RecentCache} (h : c.Kept) {victim : CacheEntry} {slot : Nat}
    (hslot : c.live[slot]? = some victim) (hleast : ∀ e ∈ c.live, victim.seq ≤ e.seq) :
    ∃ order, c.byUse = victim :: order ∧ order.Perm (c.live.eraseIdx slot) := by
  obtain ⟨hlt, hget⟩ := List.getElem?_eq_some_iff.mp hslot
  have hvictim : victim ∈ c.live := List.mem_of_getElem? hslot
  have hperm : c.byUse.Perm (victim :: c.live.eraseIdx slot) :=
    hget ▸ c.byUse_perm.trans (List.getElem_cons_eraseIdx_perm hlt).symm
  have hsorted := h.byUse_sorted
  rcases hby : c.byUse with _ | ⟨first, order⟩
  · rw [hby] at hperm
    exact absurd hperm.length_eq (by simp)
  · rw [hby] at hperm hsorted
    have hfirst : first ∈ c.live := c.byUse_perm.mem_iff.mp (hby ▸ List.mem_cons_self)
    -- Whoever else were first would have both a smaller and no smaller number.
    have heq : first = victim := by
      rcases List.mem_cons.mp (hperm.mem_iff.mpr List.mem_cons_self) with heq | hlater
      · exact heq.symm
      · exact absurd (hleast first hfirst)
          (Nat.not_le_of_lt ((List.pairwise_cons.mp hsorted).1 victim hlater))
    subst heq
    exact ⟨order, rfl, hperm.cons_inv⟩

theorem Kept.toUseList_evicting {c : RecentCache} (h : c.Kept) {victim e : CacheEntry}
    (hvictim : c.live[c.oldest]? = some victim) (hleast : ∀ e ∈ c.live, victim.seq ≤ e.seq)
    (hseq : e.seq = c.clock + 1) (h' : (c.evicting victim e).Kept) :
    (c.evicting victim e).toUseList =
      { c.toUseList with
        memos := c.toUseList.memos.tail ++ [e.memo]
        evictions := c.evictions + 1 } := by
  obtain ⟨order, horder, hperm⟩ := h.byUse_of_least hvictim hleast
  have hby : (c.evicting victim e).byUse = order ++ [e] :=
    (draws_evicting hvictim hseq).byUse_eq h h' hperm
      (horder ▸ List.sublist_cons_self victim order)
  rw [toUseList, hby, toUseList, horder, List.map_append]
  rfl

theorem Kept.toUseList_refreshed {c : RecentCache} (h : c.Kept) {now slot : Nat} {e : CacheEntry}
    (hslot : c.live[slot]? = some e) :
    (c.refreshed now slot e).toUseList =
      { c.toUseList with
        memos := c.toUseList.memos.eraseP (·.id == e.id) ++
          [{ e.memo with lastAccess := now, count := e.count + 1 }] } := by
  obtain ⟨hlt, hget⟩ := List.getElem?_eq_some_iff.mp hslot
  have he : e ∈ c.live := List.mem_of_getElem? hslot
  obtain ⟨e', before, after, -, hid, hsplit, herase⟩ :=
    List.exists_of_eraseP (p := (·.id == e.id)) (c.byUse_perm.mem_iff.mpr he) (beq_self_eq_true _)
  have he' : e' ∈ c.live := c.byUse_perm.mem_iff.mp (hsplit ▸ by simp)
  obtain rfl := h.eq_of_id_eq he he' (by simpa using hid)
  have hperm : (c.byUse.eraseP (·.id == e'.id)).Perm (c.live.eraseIdx slot) := by
    rw [herase]
    have hlive : (before ++ e' :: after).Perm (e' :: c.live.eraseIdx slot) :=
      (hsplit ▸ c.byUse_perm).trans (hget ▸ (List.getElem_cons_eraseIdx_perm hlt).symm)
    exact (List.perm_middle.symm.trans hlive).cons_inv
  have hby := (draws_refreshed hslot now).byUse_eq h (h.refreshed hslot) hperm
    (List.eraseP_sublist ..)
  rw [toUseList, hby, toUseList, List.map_append, List.eraseP_map]
  rfl

section Insertion

variable {c : RecentCache} {sender : String} {timestamp : Int64}

theorem Kept.find?_isSome_iff (h : c.Kept) {id : String} :
    (c.toUseList.find? id).isSome ↔ id ∈ c.live.map (·.id) := by
  rw [h.find?_toUseList, Option.isSome_map, Option.isSome_iff_exists, List.mem_map]
  exact exists_congr fun e => h.peek_eq_some_iff

theorem Kept.insert_toUseList (h : c.Kept) (hcap : 0 < c.capacity) (now : Nat)
    (sender content : String) (timestamp : Int64) :
    c.toUseList.insert now sender content timestamp =
      ((c.insert now sender content timestamp).1,
        (c.insert now sender content timestamp).2.toUseList) := by
  have hlen : c.toUseList.memos.length = c.size := h.length_memos.trans h.length_eq
  have h' := h.insert hcap now sender content timestamp
  rw [UseList.insert]
  rcases h.insert_cases hcap now sender content timestamp with
    ⟨hold, heq⟩ | ⟨hnew, hroom, heq⟩ | ⟨hnew, hsize, victim, hvictim, hleast, heq⟩
  · rw [if_pos (h.find?_isSome_iff.mpr hold), heq]
  · have hsome := fun hf => hnew (h.find?_isSome_iff.mp hf)
    have hfree : c.toUseList.memos.length ≠ c.toUseList.capacity := by
      rw [hlen]
      exact Nat.ne_of_lt hroom
    rw [heq] at h' ⊢
    rw [if_neg hsome, if_neg hfree, h.toUseList_filled rfl h']
    rfl
  · have hsome := fun hf => hnew (h.find?_isSome_iff.mp hf)
    have hfull : c.toUseList.memos.length = c.toUseList.capacity := hlen.trans hsize
    rw [heq] at h' ⊢
    rw [if_neg hsome, if_pos hfull, h.toUseList_evicting hvictim hleast rfl h']
    rfl

theorem Kept.lookup_toUseList (h : c.Kept) (id : String) :
    c.toUseList.lookup id = ((c.lookup id).1, (c.lookup id).2.toUseList) := by
  rw [UseList.lookup, RecentCache.lookup, h.find?_toUseList]
  cases c.peek id with
  | none => rfl
  | some e => rfl

theorem Kept.refresh_toUseList (h : c.Kept) (now : Nat) (id : String) :
    c.toUseList.refresh now id = (c.refresh now id).toUseList := by
  rw [UseList.refresh]
  rcases h.refresh_cases now id with ⟨hnot, heq⟩ | ⟨slot, e, hslot, rfl, heq⟩
  · rw [← h.find?_isSome_iff, Option.not_isSome_iff_eq_none] at hnot
    rw [hnot, heq]
  · have he : e ∈ c.live := List.mem_of_getElem? hslot
    rw [h.find?_toUseList, h.peek_eq_some_iff.mpr ⟨he, rfl⟩, heq, h.toUseList_refreshed hslot]
    rfl

theorem Kept.clear_toUseList (h : c.Kept) : c.toUseList.clear = c.clear.toUseList := by
  have hnil : c.clear.byUse = [] :=
    h.clear.byUse_eq (List.Perm.refl []) List.Pairwise.nil
  rw [UseList.clear, toUseList, toUseList, hnil]
  rfl

end Insertion

/-- The list of a cache goes along with every move, and gives the answers of the cache. -/
theorem Kept.step_toUseList {c : RecentCache} (h : c.Kept) (hcap : 0 < c.capacity) (μ : CacheMove) :
    c.toUseList.step μ = ((c.step μ).1, (c.step μ).2.toUseList) := by
  cases μ with
  | insert now sender content timestamp =>
    rw [UseList.step, h.insert_toUseList hcap]
    rfl
  | lookup id =>
    rw [UseList.step, h.lookup_toUseList]
    rfl
  | refresh now id =>
    rw [UseList.step, h.refresh_toUseList]
    rfl
  | peek id =>
    rw [UseList.step, h.find?_toUseList]
    rfl
  | clear =>
    rw [UseList.step, h.clear_toUseList]
    rfl

theorem toUseList_empty (capacity : Nat) :
    (empty capacity).toUseList = UseList.empty capacity := by
  have hnil : (empty capacity).byUse = [] :=
    (Kept.empty capacity).byUse_eq (List.Perm.refl []) List.Pairwise.nil
  rw [toUseList, hnil]
  rfl

/-- **A cache answers as a list in order of use does**, whatever is asked of it: every answer is the
same, and so is all that can be seen after every move. -/
theorem transcript_eq_useList (capacity : Nat) (hcap : 1 ≤ capacity) :
    ∃ c, create capacity = .ok c ∧ ∀ μs : List CacheMove,
      transcript step glimpse c μs =
        transcript UseList.step UseList.glimpse (UseList.empty capacity) μs := by
  have hcreate : create capacity = .ok (empty capacity) := if_neg (Nat.ne_of_gt hcap)
  refine ⟨empty capacity, hcreate, fun μs => ?_⟩
  rw [← toUseList_empty]
  refine transcript_eq_of_view toUseList (fun c => c.Kept ∧ 0 < c.capacity) ?_ ?_ ?_
    ⟨Kept.empty capacity, hcap⟩ μs
  · rintro c μ ⟨h, hcap⟩
    exact ⟨h.after hcap μ, by rw [step, capacity_after]; exact hcap⟩
  · rintro c μ ⟨h, hcap⟩
    exact h.step_toUseList hcap μ
  · rintro c ⟨h, -⟩
    exact h.glimpse_toUseList

/-- Two entries fill a cache; the one that was not refreshed is evicted; and after a clearing the
old slots are used again. -/
theorem transcript_through_eviction_and_clearing :
    1 ≤ 2 ∧ ∃ c, create 2 = .ok c ∧
      (transcript step glimpse c
        [.insert 0 "a" "x" 1, .insert 1 "b" "y" 1, .refresh 2 "a_1", .insert 3 "c" "z" 1,
          .lookup "b_1", .lookup "a_1", .clear, .insert 4 "a" "w" 1, .peek "a_1"]).map (·.1) =
        [.added true, .added true, .done, .added true, .content none, .content (some "x"), .done,
          .added true, .memo (some ⟨"a_1", "a", "w", 1, 4, 1⟩)] := by
  obtain ⟨c, hc, htranscript⟩ := transcript_eq_useList 2 (by decide)
  refine ⟨by decide, c, hc, ?_⟩
  rw [htranscript]
  decide

end RecentCache

end ChatHub
