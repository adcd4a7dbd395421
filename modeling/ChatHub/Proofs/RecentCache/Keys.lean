import ChatHub.Proofs.RecentCache.Eviction
import Std.Data.String.ToInt
/-!
# Whose entry a key finds

A key is a sender, an underscore and a number. Senders may have underscores and digits in them, and
numbers may be negative, so keys of different senders can look very much alike. None of them are the
same all the same: there is no underscore in a number, so the last one in a key is the one that was
put there, and what stands on either side of it is known (`makeId_eq_iff`).

Every entry in use is found under the key of its own sender and second, because it was put in under
that key and no part of it changes later. So a key gives access to what this sender said in this
second, and to nothing else: an insertion is refused only for the sake of such an entry, and no
other is read. Whose entries these are can be told from the run: they were put in under the same
name, with the same content, in the same second (`Kept.origin_run`).
-/

namespace ChatHub

namespace RecentCache

/-! ## Keys -/

/-- If nothing behind `x` is another `x`, then no other way to cut at an `x` cuts later. -/
theorem length_le_of_append_cons_eq {α : Type} {x : α} {as bs cs ds : List α} (hbs : x ∉ bs)
    (h : as ++ x :: bs = cs ++ x :: ds) : cs.length ≤ as.length := by
  by_contra hlater
  obtain ⟨k, hk⟩ := Nat.exists_eq_add_of_lt (Nat.lt_of_not_le hlater)
  have hget : (as ++ x :: bs)[cs.length]? = some x := by
    rw [h, List.getElem?_append_right (Nat.le_refl _), Nat.sub_self]
    rfl
  rw [List.getElem?_append_right (Nat.le_of_lt (Nat.lt_of_not_le hlater)),
    show cs.length - as.length = k + 1 by omega] at hget
  exact hbs (List.mem_of_getElem? hget)

/-- A list is cut at the last `x` in one way only. -/
theorem eq_of_append_cons_eq {α : Type} {x : α} {as bs cs ds : List α} (hbs : x ∉ bs)
    (hds : x ∉ ds) (h : as ++ x :: bs = cs ++ x :: ds) : as = cs ∧ bs = ds := by
  have hlength : as.length = cs.length :=
    Nat.le_antisymm (length_le_of_append_cons_eq hds h.symm) (length_le_of_append_cons_eq hbs h)
  obtain ⟨has, hrest⟩ := List.append_inj h hlength
  exact ⟨has, (List.cons.inj hrest).2⟩

theorem underscore_notMem_repr (n : Nat) : '_' ∉ n.repr.toList := by
  rw [Nat.toList_repr]
  intro hmem
  exact absurd (Nat.isDigit_of_mem_toDigits (by decide) (by decide) hmem) (by decide)

/-- A number is written with digits, and perhaps a minus sign. -/
theorem underscore_notMem_numeral (z : Int) : '_' ∉ (toString z).toList := by
  rw [Int.toString_eq_repr, Int.repr_eq_if]
  split
  · exact underscore_notMem_repr _
  · rw [String.toList_append, List.mem_append]
    exact fun h => h.elim (by decide) (underscore_notMem_repr _)

/-- The key of what was said in a second, be it one that no word can hold. -/
def keyAt (sender : String) (second : Int) : String := sender ++ "_" ++ toString second

/-- What different senders say, or one says in different seconds, has different keys. -/
theorem keyAt_eq_iff {s₁ s₂ : String} {z₁ z₂ : Int} :
    keyAt s₁ z₁ = keyAt s₂ z₂ ↔ s₁ = s₂ ∧ z₁ = z₂ := by
  refine ⟨fun h => ?_, fun h => h.1 ▸ h.2 ▸ rfl⟩
  have hkeys := congrArg String.toList h
  simp only [keyAt, String.toList_append, List.append_assoc] at hkeys
  obtain ⟨hsender, hnumeral⟩ := eq_of_append_cons_eq (underscore_notMem_numeral _)
    (underscore_notMem_numeral _) hkeys
  rw [String.toList_inj, Int.toString_eq_repr, Int.toString_eq_repr, Int.repr_inj] at hnumeral
  exact ⟨String.toList_inj.mp hsender, hnumeral⟩

theorem makeId_eq_keyAt (sender : String) (second : Int64) :
    makeId sender second = keyAt sender second.toInt := rfl

theorem makeId_eq_iff {s₁ s₂ : String} {t₁ t₂ : Int64} :
    makeId s₁ t₁ = makeId s₂ t₂ ↔ s₁ = s₂ ∧ t₁ = t₂ := by
  rw [makeId_eq_keyAt, makeId_eq_keyAt, keyAt_eq_iff, Int64.toInt_inj]

/-! ## What is found under a key -/

/-- An entry in use that this sender made in this second. -/
structure Has (c : RecentCache) (sender : String) (second : Int64) (e : CacheEntry) : Prop where
  mem : e ∈ c.slots
  valid : e.valid = true
  sender : e.sender = sender
  createdAt : e.createdAt = second

section Finding

variable {c : RecentCache} (h : c.Kept) {sender : String} {second : Int64}
include h

theorem Kept.peek_makeId_iff {e : CacheEntry} :
    c.peek (makeId sender second) = some e ↔ c.Has sender second e := by
  rw [h.peek_eq_some_iff]
  constructor
  · rintro ⟨hlive, hid⟩
    obtain ⟨hmem, hvalid⟩ := h.mem_live_iff.mp hlive
    obtain ⟨hsender, hsecond⟩ := makeId_eq_iff.mp ((h.named e hlive).symm.trans hid)
    exact ⟨hmem, hvalid, hsender, hsecond⟩
  · rintro ⟨hmem, hvalid, rfl, rfl⟩
    have hlive : e ∈ c.live := h.mem_live_iff.mpr ⟨hmem, hvalid⟩
    exact ⟨hlive, h.named e hlive⟩

theorem Kept.insert_fst_eq_false_iff (now : Nat) (content : String) :
    (c.insert now sender content second).1 = false ↔ ∃ e, c.Has sender second e := by
  have hrefused : (c.insert now sender content second).1 = false ↔
      (c.slotOf? (makeId sender second)).isSome := by
    by_cases hid : (c.slotOf? (makeId sender second)).isSome
    · rw [insert_of_present hid]
      exact iff_of_true rfl hid
    · rw [RecentCache.insert, insertion, if_neg hid]
      exact iff_of_false Bool.noConfusion hid
  rw [hrefused, h.slotOf?_isSome_iff, List.mem_map]
  refine exists_congr fun e => ?_
  rw [← h.peek_makeId_iff, h.peek_eq_some_iff]

theorem Kept.lookup_fst_eq_some_iff {content : String} :
    (c.lookup (makeId sender second)).1 = some content ↔
      ∃ e, c.Has sender second e ∧ e.content = content := by
  have hread : (c.lookup (makeId sender second)).1 =
      (c.peek (makeId sender second)).map (·.content) := by
    unfold RecentCache.lookup
    split <;> rename_i hpeek <;> rw [hpeek] <;> rfl
  rw [hread, Option.map_eq_some_iff]
  exact exists_congr fun e => and_congr_left fun _ => h.peek_makeId_iff

end Finding

end RecentCache

/-! ## Where entries come from -/

/-- The move put an entry in with this sender, content and second. -/
def CacheMove.Makes (μ : CacheMove) (e : CacheEntry) : Prop :=
  ∃ now, μ = .insert now e.sender e.content e.createdAt

/-- The entry says the same as another, which may have been used less often. -/
def CacheEntry.SaysAs (e d : CacheEntry) : Prop :=
  e.sender = d.sender ∧ e.content = d.content ∧ e.createdAt = d.createdAt

namespace RecentCache

variable {c : RecentCache}

/-- What is in use after a move was in use before it, or was put in by it. -/
theorem Kept.origin_after (h : c.Kept) (hcap : 0 < c.capacity) {μ : CacheMove} {e : CacheEntry}
    (he : e ∈ (c.after μ).live) : (∃ d ∈ c.live, e.SaysAs d) ∨ μ.Makes e := by
  have hsame : e ∈ c.live → (∃ d ∈ c.live, e.SaysAs d) ∨ μ.Makes e := fun hlive =>
    .inl ⟨e, hlive, rfl, rfl, rfl⟩
  cases μ with
  | insert now sender content timestamp =>
    change e ∈ (c.insert now sender content timestamp).2.live at he
    rcases h.insert_cases hcap now sender content timestamp with
      ⟨-, heq⟩ | ⟨-, -, heq⟩ | ⟨-, -, victim, hvictim, -, heq⟩
    · rw [heq] at he
      exact hsame he
    · rw [heq, h.live_filled, List.mem_append, List.mem_singleton] at he
      rcases he with he | rfl
      · exact hsame he
      · exact .inr ⟨now, rfl⟩
    · rw [heq, (draws_evicting hvictim rfl).live.mem_iff, List.mem_cons] at he
      rcases he with rfl | he
      · exact .inr ⟨now, rfl⟩
      · exact hsame (List.mem_of_mem_eraseIdx he)
  | lookup id => exact hsame (c.live_lookup id ▸ he)
  | refresh now id =>
    change e ∈ (c.refresh now id).live at he
    rcases h.refresh_cases now id with ⟨-, heq⟩ | ⟨slot, d, hslot, -, heq⟩
    · rw [heq] at he
      exact hsame he
    · rw [heq, (draws_refreshed hslot now).live.mem_iff, List.mem_cons] at he
      rcases he with rfl | he
      · exact .inl ⟨d, List.mem_of_getElem? hslot, rfl, rfl, rfl⟩
      · exact hsame (List.mem_of_mem_eraseIdx he)
  | peek id => exact hsame he
  | clear => cases he

theorem Kept.origin_run (h : c.Kept) (hcap : 0 < c.capacity) {μs : List CacheMove} {e : CacheEntry}
    (he : e ∈ (c.run μs).live) : (∃ d ∈ c.live, e.SaysAs d) ∨ ∃ μ ∈ μs, μ.Makes e := by
  induction μs generalizing c with
  | nil => exact .inl ⟨e, he, rfl, rfl, rfl⟩
  | cons μ μs ih =>
    rcases ih (h.after hcap μ) ((c.capacity_after μ).symm ▸ hcap) he with
      ⟨d, hd, hsender, hcontent, hsecond⟩ | ⟨ν, hν, hmakes⟩
    · rcases h.origin_after hcap hd with ⟨d', hd', hsender', hcontent', hsecond'⟩ | ⟨now, rfl⟩
      · exact .inl ⟨d', hd', hsender.trans hsender', hcontent.trans hcontent',
          hsecond.trans hsecond'⟩
      · exact .inr ⟨_, List.mem_cons_self, now, by rw [hsender, hcontent, hsecond]⟩
    · exact .inr ⟨ν, List.mem_cons_of_mem _ hν, hmakes⟩

/-- **A key belongs to one sender and one second**, whatever is in the sender's name. So in every
cache that can come about, an insertion is refused exactly if the cache has an entry of that very
sender from that very second, a lookup under their key reads such an entry or nothing, and such an
entry was put in under that sender's name. Nobody keeps the words of another out, or reads them, by
the choice of a name. -/
theorem keys_belong_to_senders :
    (∀ (s₁ s₂ : String) (t₁ t₂ : Int64), makeId s₁ t₁ = makeId s₂ t₂ → s₁ = s₂ ∧ t₁ = t₂) ∧
      ∀ capacity, 1 ≤ capacity → ∃ start, create capacity = .ok start ∧ ∀ μs : List CacheMove,
        let c := start.run μs
        ∀ (sender : String) (second : Int64),
          (∀ now content, (c.insert now sender content second).1 = false ↔
            ∃ e, c.Has sender second e) ∧
          (∀ content, (c.lookup (makeId sender second)).1 = some content ↔
            ∃ e, c.Has sender second e ∧ e.content = content) ∧
          (∀ e, c.peek (makeId sender second) = some e ↔ c.Has sender second e) ∧
          ∀ e, c.Has sender second e → ∃ now, .insert now sender e.content second ∈ μs := by
  refine ⟨fun _ _ _ _ h => makeId_eq_iff.mp h, fun capacity hcap => ?_⟩
  refine ⟨empty capacity, create_eq_empty hcap, fun μs => ?_⟩
  intro c sender second
  have hkept : c.Kept := (run_kept (Kept.empty capacity) hcap μs).1
  refine ⟨fun now content => hkept.insert_fst_eq_false_iff now content,
    fun content => hkept.lookup_fst_eq_some_iff, fun e => hkept.peek_makeId_iff, ?_⟩
  rintro e ⟨hmem, hvalid, rfl, rfl⟩
  have hlive : e ∈ c.live := hkept.mem_live_iff.mpr ⟨hmem, hvalid⟩
  rcases (Kept.empty capacity).origin_run hcap hlive with ⟨d, hd, -⟩ | ⟨μ, hμ, now, rfl⟩
  · cases hd
  · exact ⟨now, hμ⟩

/-- Three names that differ in underscores and digits only, and a negative second. -/
theorem keys_belong_to_senders_that_look_alike :
    let μs : List CacheMove := [.insert 0 "a_1" "x" 2, .insert 1 "a" "y" (-12), .refresh 2 "a_1_2"]
    1 ≤ 3 ∧ ∃ start, create 3 = .ok start ∧
      let c := start.run μs
      makeId "a_1" 2 = "a_1_2" ∧ makeId "a" (-12) = "a_-12" ∧
        (c.insert 3 "a_1" "z" 2).1 = false ∧ (∃ e, c.Has "a_1" 2 e ∧ e.content = "x") ∧
        (c.insert 3 "a_" "z" 12).1 ≠ false ∧ (∀ e, ¬c.Has "a_" 12 e) ∧
        (c.lookup (makeId "a" (-12))).1 = some "y" := by
  intro μs
  obtain ⟨-, hall⟩ := keys_belong_to_senders
  obtain ⟨start, hstart, hkeys⟩ := hall 3 (by decide)
  refine ⟨by decide, start, hstart, ?_⟩
  obtain rfl : empty 3 = start := Except.ok.inj hstart
  intro c
  obtain ⟨hinsert, hlookup, -, -⟩ := hkeys μs "a_1" 2
  have hread : (c.lookup (makeId "a_1" 2)).1 = some "x" := by decide +kernel
  have hother : (c.insert 3 "a_" "z" 12).1 ≠ false := by decide +kernel
  obtain ⟨hinsert', -, -, -⟩ := hkeys μs "a_" 12
  refine ⟨by decide +kernel, by decide +kernel, (hinsert 3 "z").mpr ?_, (hlookup "x").mp hread,
    hother, fun e he => hother ((hinsert' 3 "z").mpr ⟨e, he⟩), by decide +kernel⟩
  obtain ⟨e, he, -⟩ := (hlookup "x").mp hread
  exact ⟨e, he⟩

end RecentCache

end ChatHub
