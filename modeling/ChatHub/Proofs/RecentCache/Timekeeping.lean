import ChatHub.Proofs.RecentCache.Eviction
/-!
# The least recently used entry is the one with the oldest time

Which entry has to go is decided by numbers. The time at which an entry was last used stands beside
its number and is never looked at. It could be, as long as the clock does not go back: an entry that
was used later then has a time that is no earlier (`Timed`). So the entry that goes has a time that
no other entry undercuts, and the two orders differ only where the clock stood still. There the
numbers go on ascending, and the times cannot tell the entries apart.

A number and a time are given together, by an insertion and by a refresh, and the number is above
all others. So one lemma about drawing a number (`Draws.timed`) carries the whole invariant.
-/

namespace ChatHub

namespace CacheMove

/-- The reading of the clock that a move is given, if it needs one. -/
def time? : CacheMove → Option Nat
  | insert now _ _ _ => some now
  | refresh now _ => some now
  | _ => none

/-- The clock does not go back while these moves are made. It may stand still. -/
def Steady (μs : List CacheMove) : Prop := (μs.filterMap time?).Pairwise (· ≤ ·)

instance Steady.decidable (μs : List CacheMove) : Decidable (Steady μs) :=
  inferInstanceAs (Decidable ((μs.filterMap time?).Pairwise (· ≤ ·)))

/-- A move that neither adds nor forgets an entry, and uses none but that of one id. -/
def Spares (id : String) : CacheMove → Prop
  | lookup _ => True
  | peek _ => True
  | refresh _ other => other = id
  | _ => False

end CacheMove

namespace RecentCache

variable {c c' : RecentCache}

/-! ## Numbers and times -/

/-- The numbers of the entries in use ascend with their times, none of which is later than `now`. -/
structure Timed (c : RecentCache) (now : Nat) : Prop where
  ordered : ∀ d ∈ c.live, ∀ e ∈ c.live, d.seq < e.seq → d.lastAccess ≤ e.lastAccess
  past : ∀ e ∈ c.live, e.lastAccess ≤ now

namespace Timed

theorem empty (capacity now : Nat) : (empty capacity).Timed now where
  ordered := nofun
  past := nofun

theorem mono {past now : Nat} (h : c.Timed past) (hle : past ≤ now) : c.Timed now where
  ordered := h.ordered
  past e he := Nat.le_trans (h.past e he) hle

theorem of_live_eq {now : Nat} (h : c.Timed now) (hlive : c'.live = c.live) : c'.Timed now where
  ordered := hlive ▸ h.ordered
  past := hlive ▸ h.past

end Timed

/-- Whoever gets the greatest number gets the latest time. -/
theorem Draws.timed {e : CacheEntry} {rest : List CacheEntry} {past now : Nat}
    (d : Draws c c' e rest) (hkept : c.Kept) (h : c.Timed past) (hle : past ≤ now)
    (htime : e.lastAccess = now) : c'.Timed now := by
  have hmem : ∀ x ∈ c'.live, x = e ∨ x ∈ rest := fun x hx =>
    List.mem_cons.mp (d.live.mem_iff.mp hx)
  have hpast : ∀ x ∈ rest, x.lastAccess ≤ now := fun x hx =>
    Nat.le_trans (h.past x (d.rest.subset hx)) hle
  constructor
  · intro x hx y hy hlt
    rcases hmem x hx with rfl | hx
    · -- Nobody has a greater number than the one just drawn.
      rcases hmem y hy with rfl | hy
      · exact absurd hlt (Nat.lt_irrefl _)
      · exact absurd hlt (Nat.lt_asymm (d.seq_lt hkept hy))
    · rcases hmem y hy with rfl | hy
      · exact htime ▸ hpast x hx
      · exact h.ordered x (d.rest.subset hx) y (d.rest.subset hy) hlt
  · intro x hx
    rcases hmem x hx with rfl | hx
    · exact Nat.le_of_eq htime
    · exact hpast x hx

/-- One move, when the clock reads `past` at most before it. -/
theorem Timed.after {past : Nat} (h : c.Timed past) (hkept : c.Kept) (hcap : 0 < c.capacity)
    {μ : CacheMove} (hle : ∀ now ∈ μ.time?, past ≤ now) :
    (c.after μ).Timed (μ.time?.getD past) := by
  cases μ with
  | insert now sender content timestamp =>
    have hnow : past ≤ now := hle now rfl
    show (c.insert now sender content timestamp).2.Timed now
    rcases hkept.insert_cases hcap now sender content timestamp with
      ⟨-, heq⟩ | ⟨-, -, heq⟩ | ⟨-, -, victim, hvictim, -, heq⟩
    · rw [heq]
      exact h.mono hnow
    · rw [heq]
      exact (hkept.draws_filled rfl).timed hkept h hnow rfl
    · rw [heq]
      exact (draws_evicting hvictim rfl).timed hkept h hnow rfl
  | lookup id => exact h.of_live_eq (c.live_lookup id)
  | refresh now id =>
    have hnow : past ≤ now := hle now rfl
    show (c.refresh now id).Timed now
    rcases hkept.refresh_cases now id with ⟨-, heq⟩ | ⟨slot, e, hslot, -, heq⟩
    · rw [heq]
      exact h.mono hnow
    · rw [heq]
      exact (draws_refreshed hslot now).timed hkept h hnow rfl
  | peek id => exact h
  | clear => exact ⟨nofun, nofun⟩

theorem Timed.run {past : Nat} (h : c.Timed past) (hkept : c.Kept) (hcap : 0 < c.capacity)
    {μs : List CacheMove} (hsteady : CacheMove.Steady μs)
    (hle : ∀ now ∈ μs.filterMap CacheMove.time?, past ≤ now) : ∃ now, (c.run μs).Timed now := by
  induction μs generalizing c past with
  | nil => exact ⟨past, h⟩
  | cons μ μs ih =>
    have hfirst : ∀ now ∈ μ.time?, past ≤ now := fun now hnow =>
      hle now (List.mem_filterMap.mpr ⟨μ, List.mem_cons_self, hnow⟩)
    have hafter := h.after hkept hcap hfirst
    have hcap' : 0 < (c.after μ).capacity := (c.capacity_after μ).symm ▸ hcap
    unfold CacheMove.Steady at hsteady
    cases htime : μ.time? with
    | none =>
      rw [List.filterMap_cons_none htime] at hsteady hle
      rw [htime] at hafter
      exact ih hafter (hkept.after hcap μ) hcap' hsteady hle
    | some now =>
      rw [List.filterMap_cons_some htime] at hsteady hle
      rw [htime] at hafter
      exact ih hafter (hkept.after hcap μ) hcap' (List.pairwise_cons.mp hsteady).2
        (List.pairwise_cons.mp hsteady).1

/-! ## What an insertion costs -/

/-- `victim` is the one entry that is lost from one cache to another. -/
structure Loses (c c' : RecentCache) (victim : CacheEntry) : Prop where
  cached : c.peek victim.id = some victim
  gone : c'.peek victim.id = none
  others : ∀ e, c.peek e.id = some e → e ≠ victim → c'.peek e.id = some e

section Insertion

variable (h : c.Kept) (hcap : 0 < c.capacity)
include h hcap

/-- An entry survives an insertion for which there is room, or for which another one has to go that
was used before it. -/
theorem Kept.peek_insert_of_earlier {d : CacheEntry} (hd : d ∈ c.live)
    (hearlier : c.length = c.capacity → ∃ e ∈ c.live, e.seq < d.seq) (now : Nat)
    (sender content : String) (timestamp : Int64) :
    (c.insert now sender content timestamp).2.peek d.id = some d := by
  refine (h.insert hcap now sender content timestamp).peek_eq_some_iff.mpr ⟨?_, rfl⟩
  rcases h.insert_cases hcap now sender content timestamp with
    ⟨-, heq⟩ | ⟨-, -, heq⟩ | ⟨-, hfull, victim, hvictim, hleast, heq⟩
  · rw [heq]
    exact hd
  · rw [heq, h.live_filled]
    exact List.mem_append_left _ hd
  · rw [heq]
    obtain ⟨e, he, hlt⟩ := hearlier (h.length_eq.trans hfull)
    have hne : d ≠ victim := by
      rintro rfl
      exact absurd (hleast e he) (Nat.not_le_of_lt hlt)
    obtain ⟨hslot, rfl⟩ := List.getElem?_eq_some_iff.mp hvictim
    have hsplit := (List.getElem_cons_eraseIdx_perm hslot).mem_iff.mpr hd
    exact (draws_evicting hvictim rfl).live.mem_iff.mpr
      (List.mem_cons_of_mem _ ((List.mem_cons.mp hsplit).resolve_left hne))

/-- A new entry takes the place of the least recently used one when there is no room for it. -/
theorem Kept.loses_insert {sender : String} {timestamp : Int64} (hfull : c.length = c.capacity)
    (hnew : c.peek (makeId sender timestamp) = none) (now : Nat) (content : String) :
    ∃ victim, c.Loses (c.insert now sender content timestamp).2 victim ∧
      ∀ e, c.peek e.id = some e → e ≠ victim → victim.seq < e.seq := by
  have h' := h.insert hcap now sender content timestamp
  rcases h.insert_cases hcap now sender content timestamp with
    ⟨hold, -⟩ | ⟨-, hroom, -⟩ | ⟨hfresh, -, victim, hvictim, hleast, heq⟩
  · obtain ⟨e, he, hid⟩ := List.mem_map.mp hold
    have hfound := h.peek_eq_some_iff.mpr ⟨he, hid⟩
    rw [hnew] at hfound
    cases hfound
  · exact absurd (h.length_eq ▸ hfull) (Nat.ne_of_lt hroom)
  · have hmem : victim ∈ c.live := List.mem_of_getElem? hvictim
    have hlater : ∀ e ∈ c.live, e ≠ victim → victim.seq < e.seq := by
      intro e he hne
      refine Nat.lt_of_le_of_ne (hleast e he) fun hseq => hne ?_
      have hnodup : (c.live.map (·.seq)).Nodup := List.pairwise_map.mpr h.distinct
      exact List.inj_on_of_nodup_map hnodup he hmem hseq.symm
    refine ⟨victim, ⟨h.peek_eq_some_iff.mpr ⟨hmem, rfl⟩, ?_, ?_⟩, ?_⟩
    · rw [Option.eq_none_iff_forall_ne_some]
      intro x hx
      obtain ⟨hlive, hid⟩ := h'.peek_eq_some_iff.mp hx
      rw [heq, (draws_evicting hvictim rfl).live.mem_iff, List.mem_cons] at hlive
      rcases hlive with rfl | hlive
      · exact hfresh (List.mem_map.mpr ⟨victim, hmem, hid.symm⟩)
      · -- The entries that are left do not have the id of the one that went.
        obtain ⟨hslot, rfl⟩ := List.getElem?_eq_some_iff.mp hvictim
        have hunique :=
          ((List.getElem_cons_eraseIdx_perm hslot).map (·.id)).nodup_iff.mpr h.index.nodup
        rw [List.map_cons, List.nodup_cons] at hunique
        exact hunique.1 (hid ▸ List.mem_map_of_mem hlive)
    · intro e he hne
      obtain ⟨hlive, -⟩ := h.peek_eq_some_iff.mp he
      exact h.peek_insert_of_earlier hcap hlive (fun _ => ⟨victim, hmem, hlater e hlive hne⟩) now
        sender content timestamp
    · intro e he hne
      exact hlater e (h.peek_eq_some_iff.mp he).1 hne

end Insertion

/-! ## The entry that was used last -/

/-- The entry of an id is there, and was used after all others. -/
def Latest (c : RecentCache) (id : String) : Prop :=
  ∃ e ∈ c.live, e.id = id ∧ ∀ d ∈ c.live, d.id ≠ id → d.seq < e.seq

theorem Kept.latest_refresh (h : c.Kept) (now : Nat) {id : String}
    (hid : id ∈ c.live.map (·.id)) : (c.refresh now id).Latest id := by
  rcases h.refresh_cases now id with ⟨hnot, -⟩ | ⟨slot, e, hslot, rfl, heq⟩
  · exact absurd hid hnot
  · have hdraws := draws_refreshed hslot now
    rw [heq]
    refine ⟨_, hdraws.live.mem_iff.mpr List.mem_cons_self, rfl, fun d hd hne => ?_⟩
    rcases List.mem_cons.mp (hdraws.live.mem_iff.mp hd) with rfl | hd
    · exact absurd rfl hne
    · exact hdraws.seq_lt h hd

namespace Latest

variable {id : String}

theorem after (hlatest : c.Latest id) (h : c.Kept) {ν : CacheMove} (hν : ν.Spares id) :
    (c.after ν).Latest id := by
  cases ν with
  | insert => exact hν.elim
  | lookup other =>
    show (c.lookup other).2.Latest id
    rw [Latest, live_lookup]
    exact hlatest
  | refresh now other =>
    obtain rfl : other = id := hν
    obtain ⟨e, he, rfl, -⟩ := hlatest
    exact h.latest_refresh now (List.mem_map_of_mem he)
  | peek => exact hlatest
  | clear => exact hν.elim

theorem run (hlatest : c.Latest id) (h : c.Kept) (hcap : 0 < c.capacity) {νs : List CacheMove}
    (hνs : ∀ ν ∈ νs, ν.Spares id) : (c.run νs).Latest id := by
  induction νs generalizing c with
  | nil => exact hlatest
  | cons ν νs ih =>
    obtain ⟨hν, hνs⟩ := List.forall_mem_cons.mp hνs
    exact ih (hlatest.after h hν) (h.after hcap ν) ((c.capacity_after ν).symm ▸ hcap) hνs

/-- Where there is a second entry, or room for one, the entry that was used last stays. -/
theorem peek_insert (hlatest : c.Latest id) (h : c.Kept) (hcap : 2 ≤ c.capacity) (now : Nat)
    (sender content : String) (timestamp : Int64) :
    (c.peek id).isSome ∧ (c.insert now sender content timestamp).2.peek id = c.peek id := by
  obtain ⟨e, he, rfl, hbefore⟩ := hlatest
  have hfound := h.peek_eq_some_iff.mpr ⟨he, rfl⟩
  rw [hfound]
  refine ⟨rfl,
    h.peek_insert_of_earlier (by omega) he (fun hfull => ?_) now sender content timestamp⟩
  -- A full cache has two ids at least, and one of them is another.
  by_contra hnone
  have hsame : ∀ name ∈ c.live.map (·.id), name = e.id := by
    intro name hname
    obtain ⟨d, hd, rfl⟩ := List.mem_map.mp hname
    by_contra hne
    exact hnone ⟨d, hd, hbefore d hd hne⟩
  have hone := List.eq_replicate_of_mem hsame
  have hnodup := h.index.nodup
  rw [hone, List.nodup_replicate, List.length_map, h.length_live, ← h.length_eq, hfull] at hnodup
  omega

end Latest

/-! ## The order of the numbers and the order of the times -/

/-- An insertion evicts exactly if it is of a new id and there is no room. -/
theorem Kept.evictions_insert_iff (h : c.Kept) (hcap : 0 < c.capacity) (now : Nat)
    (sender content : String) (timestamp : Int64) :
    (c.insert now sender content timestamp).2.evictions = c.evictions + 1 ↔
      c.length = c.capacity ∧ c.peek (makeId sender timestamp) = none := by
  have hnothing : c.peek (makeId sender timestamp) = none ↔
      makeId sender timestamp ∉ c.live.map (·.id) := by
    rw [Option.eq_none_iff_forall_ne_some, List.mem_map, not_exists]
    exact forall_congr' fun e => not_congr h.peek_eq_some_iff
  rw [hnothing, h.length_eq]
  have hsame : c.evictions ≠ c.evictions + 1 := Nat.ne_of_lt (Nat.lt_succ_self _)
  rcases h.insert_cases hcap now sender content timestamp with
    ⟨hold, heq⟩ | ⟨-, hroom, heq⟩ | ⟨hnew, hfull, victim, -, -, heq⟩
  · rw [heq]
    exact iff_of_false hsame fun hnew => hnew.2 hold
  · rw [heq]
    exact iff_of_false hsame fun hfull => Nat.ne_of_lt hroom hfull.1
  · rw [heq]
    exact iff_of_true rfl ⟨hfull, hnew⟩

/-- **What has to go was used no later than anything that stays**, as long as the clock does not go
back, even if it stands still. Whatever has happened to a cache, of two entries the one with the
smaller number has a time that is no later. So an insertion that evicts loses one entry, and no
other has an earlier time; and where there are two slots, an entry that was refreshed is not lost by
the next insertion, unless another one is used in between. -/
theorem recency_agrees_with_time {capacity : Nat} (hcap : 1 ≤ capacity) :
    ∃ start, create capacity = .ok start ∧ ∀ μs : List CacheMove, CacheMove.Steady μs →
      let c := start.run μs
      (∀ d e, c.peek d.id = some d → c.peek e.id = some e → d.seq < e.seq →
        d.lastAccess ≤ e.lastAccess) ∧
      (∀ now sender content timestamp,
        let after := (c.insert now sender content timestamp).2
        (after.evictions = c.evictions + 1 ↔
          c.length = capacity ∧ c.peek (makeId sender timestamp) = none) ∧
        (after.evictions = c.evictions + 1 → ∃ victim, c.Loses after victim ∧
          ∀ e, c.peek e.id = some e → victim.lastAccess ≤ e.lastAccess)) ∧
      (2 ≤ capacity → ∀ now id, (c.peek id).isSome →
        ∀ νs : List CacheMove, (∀ ν ∈ νs, ν.Spares id) → ∀ later sender content timestamp,
          let used := (c.refresh now id).run νs
          (used.peek id).isSome ∧
            (used.insert later sender content timestamp).2.peek id = used.peek id) := by
  refine ⟨empty capacity, create_eq_empty hcap, fun μs hsteady => ?_⟩
  intro c
  obtain ⟨hkept, hcapacity⟩ := run_kept (Kept.empty capacity) hcap μs
  obtain ⟨now, htimed⟩ := (Timed.empty capacity 0).run (Kept.empty capacity) hcap hsteady
    fun _ _ => Nat.zero_le _
  have hroom : 0 < c.capacity := hcapacity ▸ hcap
  have hordered : ∀ d e, c.peek d.id = some d → c.peek e.id = some e → d.seq < e.seq →
      d.lastAccess ≤ e.lastAccess := by
    intro d e hd he hlt
    exact htimed.ordered d (hkept.peek_eq_some_iff.mp hd).1 e (hkept.peek_eq_some_iff.mp he).1 hlt
  refine ⟨hordered, fun now sender content timestamp => ?_, fun htwo now id hid νs hνs => ?_⟩
  · intro after
    have hevicts : after.evictions = c.evictions + 1 ↔
        c.length = capacity ∧ c.peek (makeId sender timestamp) = none := by
      have hiff := hkept.evictions_insert_iff hroom now sender content timestamp
      rwa [hcapacity] at hiff
    refine ⟨hevicts, fun hevicted => ?_⟩
    obtain ⟨hfull, hnew⟩ := hevicts.mp hevicted
    obtain ⟨victim, hloses, hleast⟩ :=
      hkept.loses_insert hroom (hfull.trans hcapacity.symm) hnew now content
    refine ⟨victim, hloses, fun e he => ?_⟩
    by_cases hsame : e = victim
    · exact Nat.le_of_eq (congrArg CacheEntry.lastAccess hsame.symm)
    · exact hordered victim e hloses.cached he (hleast e he hsame)
  · intro later sender content timestamp used
    obtain ⟨e, he⟩ := Option.isSome_iff_exists.mp hid
    obtain ⟨hlive, rfl⟩ := hkept.peek_eq_some_iff.mp he
    have hlatest := hkept.latest_refresh now (List.mem_map_of_mem (f := (·.id)) hlive)
    have hkept' : (c.refresh now e.id).Kept := hkept.refresh now e.id
    have hcapacity' : (c.refresh now e.id).capacity = capacity :=
      (c.capacity_after (.refresh now e.id)).trans hcapacity
    have hroom' : 0 < (c.refresh now e.id).capacity := by
      rw [hcapacity']
      exact hcap
    obtain ⟨hused, hsame⟩ := run_kept hkept' hroom' νs
    have htwo' : 2 ≤ used.capacity := by
      rw [hsame, hcapacity']
      exact htwo
    exact (hlatest.run hkept' hroom' hνs).peek_insert hused htwo' later sender content timestamp

/-- The clock stands still from the first entry on. The first one is refreshed and stays, and the
second goes although their times are the same; if that is then refreshed, it stays. -/
theorem recency_agrees_with_time_that_stands_still :
    let μs : List CacheMove :=
      [.insert 5 "a" "x" 1, .insert 5 "b" "y" 1, .lookup "b_1", .refresh 5 "a_1", .refresh 5 "c_1"]
    1 ≤ 2 ∧ CacheMove.Steady μs ∧ ∃ start, create 2 = .ok start ∧
      let c := start.run μs
      let used := (c.refresh 5 "b_1").run [.peek "a_1", .lookup "a_1"]
      (∃ victim, c.Loses (c.insert 5 "c" "z" 1).2 victim ∧ victim.id = "b_1" ∧
        victim.lastAccess = 5 ∧ ∀ e, c.peek e.id = some e → 5 ≤ e.lastAccess) ∧
      (used.peek "b_1").isSome ∧ (used.insert 6 "c" "z" 1).2.peek "b_1" = used.peek "b_1" := by
  intro μs
  have hsteady : CacheMove.Steady μs := by decide
  obtain ⟨start, hstart, hrun⟩ := recency_agrees_with_time (show 1 ≤ 2 by decide)
  refine ⟨by decide, hsteady, start, hstart, ?_⟩
  obtain rfl : empty 2 = start := Except.ok.inj hstart
  obtain ⟨-, hinsert, hrefresh⟩ := hrun μs hsteady
  intro c used
  refine ⟨?_, hrefresh (by decide) 5 "b_1" (by decide) _ (by simp [CacheMove.Spares]) 6 "c" "z" 1⟩
  obtain ⟨victim, hloses, htime⟩ := (hinsert 5 "c" "z" 1).2 (by decide)
  obtain ⟨b, hb, hid, hlast⟩ :
      ∃ b, c.peek "b_1" = some b ∧ b.id = "b_1" ∧ b.lastAccess = 5 := ⟨_, rfl, rfl, rfl⟩
  obtain rfl : b = victim := by
    by_contra hne
    have hstays := hloses.others b (hid.symm ▸ hb) hne
    have hgone : (c.insert 5 "c" "z" 1).2.peek "b_1" = none := by decide
    rw [hid, hgone] at hstays
    cases hstays
  exact ⟨b, hloses, hid, hlast, fun e he => hlast ▸ htime e he⟩

end RecentCache

end ChatHub
