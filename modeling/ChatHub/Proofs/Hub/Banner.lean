import ChatHub.Proofs.Hub.Announcements
import ChatHub.Proofs.Hub.Recency
import Mathlib.Order.Bounds.Basic
/-!
# What the banner tells about lookups

The banner tells twice how the cache has done: by two counts, and by a rate. The counts are totals,
and a total never goes back. Whenever it is brought up to date it takes over what the cache has
counted, if that is more. The rate is that of the cache itself, and the cache begins to count afresh
when it is cleared.

So each count on the banner is the largest that was ever read, now or before
(`Hub.isGreatest_shown`). As long as no reading was larger than what the cache has counted now, the
two counts are the cache's own, and the banner tells one story. It takes a clearing after a reading
for it to tell two, and then it does so until the cache has caught up with both counts.

Hits and misses are treated alike all the way, so they go by one name, `counted` in the cache and
`copied` in the totals, and a `Bool` says which is meant.
-/

namespace ChatHub

/-- How many lookups the cache has counted: the hits, or the misses. -/
def RecentCache.counted (c : RecentCache) : Bool → Nat
  | true => c.hits
  | false => c.misses

/-- How many of them the totals know of. -/
def Tally.copied (t : Tally) : Bool → UInt64
  | true => t.cacheHits
  | false => t.cacheMisses

/-- Whether a move brings the totals up to date. -/
def HubMove.refreshes : HubMove → Bool
  | refreshTally | report | replyStatus .. => true
  | _ => false

/-- What the cache had counted each time the totals were brought up to date in a run. -/
def Hub.readings (h : Hub) (found : Bool) : List HubMove → List Nat
  | [] => []
  | μ :: μs =>
    (if μ.refreshes then [h.cache.counted found] else []) ++ (h.act μ).readings found μs

/-! ## What the totals take over -/

section Copied

variable (found : Bool)

theorem Tally.copied_syncCache (t : Tally) (c : RecentCache) :
    (t.syncCache c.hits c.misses).copied found =
      max (t.copied found) (c.counted found).toUInt64 := by
  cases found <;> rfl

namespace Hub

theorem copied_welcome (h : Hub) (c : Client) :
    (h.welcome c).tally.copied found = h.tally.copied found := by
  unfold welcome enrol
  rcases h.roster.add c.id c.user with ⟨added, roster⟩
  cases added <;> cases found <;> rfl

theorem copied_dismiss (h : Hub) (id : Nat) :
    (h.dismiss id).tally.copied found = h.tally.copied found := by
  have hstrike : (h.strike id).2.tally = h.tally := by
    unfold strike
    rcases h.roster.remove id with ⟨removed, roster⟩
    cases removed <;> rfl
  unfold dismiss
  dsimp only
  rw [← hstrike]
  split <;> cases found <;> rfl

theorem copied_broadcast (h : Hub) (t : Clock) (m : Record) (excluding : Option Nat) :
    (h.broadcast t m excluding).2.tally.copied found = h.tally.copied found := by
  rw [broadcast_snd]
  cases found <;> rfl

theorem tally_lookup (h : Hub) (id : String) : (h.lookup id).2.tally = h.tally :=
  congrArg (fun g => g.tally) (h.unprobed_lookup id)

end Hub

namespace HubMove

theorem tally_afterwards (h : Hub) (μ : HubMove) : (μ.afterwards h).tally = h.tally := by
  cases μ with
  | relayText t _ user _ =>
    exact congrArg (fun g => g.tally) (h.unprobed_probeBack t user Hub.recentWindow)
  | _ => rfl

theorem copied_round {h : Hub} {μ : HubMove} {ρ : Round} (hρ : μ.round? h = some ρ) :
    ρ.hub.tally.copied found = h.tally.copied found := by
  cases μ <;> cases hρ
  · exact h.copied_welcome found _
  · exact h.copied_dismiss found _
  · rfl
  · exact congrArg (fun t => t.copied found) (h.tally_lookup _)

/-- The totals change by a move only if it brings them up to date. -/
theorem copied_act (h : Hub) (μ : HubMove) :
    (h.act μ).tally.copied found =
      if μ.refreshes then max (h.tally.copied found) (h.cache.counted found).toUInt64
      else h.tally.copied found := by
  cases hρ : μ.round? h with
  | some ρ =>
    have hround : ρ.outcome.2.tally.copied found = ρ.hub.tally.copied found :=
      ρ.hub.copied_broadcast found ρ.clock ρ.record ρ.excluding
    rw [act_of_round hρ, tally_afterwards, hround, copied_round found hρ]
    cases μ <;> first | rfl | cases hρ
  | none =>
    cases μ with
    | join | leave | broadcast | relayText => cases hρ
    | refreshTally | report | replyStatus =>
      exact Tally.copied_syncCache found (h.tally.setClients _) h.cache
    | nextTurn t =>
      show (h.nextTurn t).2.tally.copied found = _
      unfold Hub.nextTurn
      rcases h.roster.next t.ms with ⟨m, roster⟩
      rfl
    | lookup id => exact congrArg (fun t => t.copied found) (h.tally_lookup id)
    | remember t sender content timestamp =>
      show (h.remember t sender content timestamp).2.tally.copied found = _
      unfold Hub.remember
      rcases h.cache.insertion t.ms sender content timestamp with ⟨report, cache⟩
      rfl
    | _ => rfl

end HubMove

/-! ## What the cache counts -/

namespace HubMove

/-- The cache counts the lookups of a move, unless it is cleared by it. -/
theorem counted_act {μ : HubMove} (hμ : μ ≠ .forget) (h : Hub) :
    (h.act μ).cache.counted found = h.cache.counted found + (μ.lookups h).count found := by
  have hcounts := counts_act hμ h
  cases found
  · exact congrArg (fun n => n.cacheMisses) hcounts
  · exact congrArg (fun n => n.cacheHits) hcounts

theorem counted_act_le (h : Hub) (μ : HubMove) :
    (h.act μ).cache.counted found ≤ h.cache.counted found + (μ.lookups h).length := by
  by_cases hμ : μ = .forget
  · subst hμ
    cases found <;> exact Nat.zero_le _
  · rw [counted_act found hμ]
    exact Nat.add_le_add_left List.count_le_length _

end HubMove

namespace Hub

theorem counted_le_run {μs : List HubMove} (hμs : .forget ∉ μs) (h : Hub) :
    h.cache.counted found ≤ (h.run μs).cache.counted found := by
  induction μs generalizing h with
  | nil => exact Nat.le_refl _
  | cons μ μs ih =>
    obtain ⟨hμ, hrest⟩ := not_or.mp (mt List.mem_cons.mpr hμs)
    refine Nat.le_trans ?_ (ih hrest (h.act μ))
    rw [HubMove.counted_act found (Ne.symm hμ)]
    exact Nat.le_add_right _ _

/-- The cache is never cleared after the totals were brought up to date. -/
def ClearedUnread (μs : List HubMove) : Prop :=
  ∀ before after, μs = before ++ .forget :: after → ∀ μ ∈ before, μ.refreshes = false

/-- What was read is counted still. -/
theorem readings_le {μs : List HubMove} (hμs : ClearedUnread μs) (h : Hub) :
    ∀ n ∈ h.readings found μs, n ≤ (h.run μs).cache.counted found := by
  induction μs generalizing h with
  | nil => exact nofun
  | cons μ μs ih =>
    intro n hn
    rw [readings, List.mem_append] at hn
    rcases hn with hn | hn
    · cases hμ : μ.refreshes with
      | false => simp [hμ] at hn
      | true =>
        rw [hμ, if_pos rfl, List.mem_singleton] at hn
        have hkept : .forget ∉ μ :: μs := by
          rw [List.mem_cons, not_or]
          refine ⟨fun heq => ?_, fun hmem => ?_⟩
          · rw [← heq] at hμ
            cases hμ
          · obtain ⟨before, after, rfl⟩ := List.append_of_mem hmem
            have hnone := hμs (μ :: before) after rfl μ List.mem_cons_self
            rw [hμ] at hnone
            cases hnone
        exact hn ▸ counted_le_run found hkept h
    · refine ih ?_ (h.act μ) n hn
      rintro before after rfl ν hν
      exact hμs (μ :: before) after rfl ν (List.mem_cons_of_mem _ hν)

/-! ## The largest reading -/

theorem isGreatest_caught_up {n : Nat} {l : List Nat} (h : ∀ m ∈ l, m ≤ n) :
    IsGreatest {m | m = n ∨ m ∈ l} n := by
  refine ⟨.inl rfl, ?_⟩
  rintro m (rfl | hm)
  · exact Nat.le_refl _
  · exact h m hm

/-- Of two readings in a row the larger one counts. -/
theorem isGreatest_of_max {a b n : Nat} {s : Set Nat} (h : IsGreatest (insert (max a b) s) n) :
    IsGreatest (insert a (insert b s)) n := by
  obtain ⟨hmem, hupper⟩ := h
  have hmax : max a b ≤ n := hupper (.inl rfl)
  constructor
  · rcases hmem with rfl | hmem
    · rcases max_choice a b with ha | hb
      · exact .inl ha
      · exact .inr (.inl hb)
    · exact .inr (.inr hmem)
  · rintro m (rfl | rfl | hm)
    · exact Nat.le_trans (Nat.le_max_left _ _) hmax
    · exact Nat.le_trans (Nat.le_max_right _ _) hmax
    · exact hupper (.inr hm)

theorem toNat_copied_act {h : Hub} {μ : HubMove} (hμ : μ.refreshes = true)
    (hword : h.cache.counted found < 2 ^ 64) :
    ((h.act μ).tally.copied found).toNat =
      max (h.tally.copied found).toNat (h.cache.counted found) := by
  have hread : (h.cache.counted found).toUInt64.toNat = h.cache.counted found :=
    UInt64.toNat_ofNat_of_lt hword
  rw [HubMove.copied_act, if_pos hμ, UInt64.toNat_max, hread]

/-- A count on the banner is the largest of the total at the beginning, of all readings since, and
of what the cache has counted. -/
theorem isGreatest_shown {μs : List HubMove} (h : Hub)
    (hword : h.cache.counted found + (h.lookups μs).length < 2 ^ 64) :
    IsGreatest (insert (h.tally.copied found).toNat
        (insert ((h.run μs).cache.counted found) {n | n ∈ h.readings found μs}))
      ((h.run μs).report.2.tally.copied found).toNat := by
  induction μs generalizing h with
  | nil =>
    have hreport : (h.report.2.tally.copied found).toNat = _ :=
      toNat_copied_act found (show HubMove.report.refreshes = true from rfl) hword
    refine isGreatest_of_max ⟨.inl hreport, ?_⟩
    rintro n (rfl | hn)
    · exact Nat.le_of_eq hreport.symm
    · cases hn
  | cons μ μs ih =>
    rw [lookups, List.length_append] at hword
    have hstep := HubMove.counted_act_le found h μ
    have hrest := ih (h.act μ) (by omega)
    cases hμ : μ.refreshes with
    | false =>
      rw [HubMove.copied_act, hμ] at hrest
      rw [readings, hμ]
      exact hrest
    | true =>
      have hread : {n | n ∈ h.readings found (μ :: μs)} =
          insert (h.cache.counted found) {n | n ∈ (h.act μ).readings found μs} := by
        rw [readings, hμ]
        exact Set.ext fun n => List.mem_cons
      rw [toNat_copied_act found hμ (by omega)] at hrest
      rw [hread, Set.insert_comm ((h.run (μ :: μs)).cache.counted found)]
      exact isGreatest_of_max hrest

/-- A hub that has just been made has nothing to show of its own. -/
theorem isGreatest_shown_since_start (capacity : Nat) {μs : List HubMove}
    (hword : ((empty capacity).lookups μs).length < 2 ^ 64) :
    IsGreatest {n | n = ((empty capacity).run μs).cache.counted found ∨
        n ∈ (empty capacity).readings found μs}
      (((empty capacity).run μs).report.2.tally.copied found).toNat := by
  have hzero : (empty capacity).cache.counted found = 0 ∧
      ((empty capacity).tally.copied found).toNat = 0 := by
    cases found <;> exact ⟨rfl, rfl⟩
  obtain ⟨hmem, hupper⟩ := isGreatest_shown found (empty capacity) (by rwa [hzero.1, Nat.zero_add])
  refine ⟨hmem.elim (fun hnothing => ?_) id, fun n hn => hupper (.inr hn)⟩
  -- A total that is zero is what the cache has counted, which is no more.
  have hle := hupper (.inr (.inl rfl))
  left
  omega

end Hub

end Copied

/-! ## One banner -/

/-- Two pairs of hits and misses are in the same ratio, and are nothing together only. -/
def SameRatio (hits misses hits' misses' : Nat) : Prop :=
  hits * (hits' + misses') = hits' * (hits + misses) ∧
    (hits + misses = 0 ↔ hits' + misses' = 0)

instance SameRatio.decidable (hits misses hits' misses' : Nat) :
    Decidable (SameRatio hits misses hits' misses') :=
  inferInstanceAs (Decidable (_ ∧ _))

theorem SameRatio.refl (hits misses : Nat) : SameRatio hits misses hits misses :=
  ⟨rfl, Iff.rfl⟩

namespace Hub

/-- The banner is printed with these numbers of clients, of lookups and of entries, and with the
rate of the cache. -/
def Shows (h : Hub) (clients hits misses entries capacity : Nat) : Prop :=
  h.report.1 = "\n".intercalate
    [ "",
      "=== SERVER STATISTICS ===",
      "Messages Sent:     " ++ toString h.tally.sent.toNat,
      "Messages Received: " ++ toString h.tally.received.toNat,
      "Active Clients:    " ++ toString clients,
      "Active Workers:    " ++ toString h.tally.workers.toNat,
      "Cache Hits:        " ++ toString hits,
      "Cache Misses:      " ++ toString misses,
      "Cache Hit Rate:    " ++ Numeral.twoPlaces h.cache.hitRate ++ "%",
      "Cache Size:        " ++ toString entries ++ "/" ++ toString capacity,
      "=========================" ]

theorem shows_report (h : Hub) :
    h.Shows h.report.2.tally.clients.toNat (h.report.2.tally.copied true).toNat
      (h.report.2.tally.copied false).toNat h.cache.length h.cache.capacity :=
  rfl

/-- A word has room for the number of clients. -/
theorem shows_size {h : Hub} (hsize : h.registry.size < 2 ^ 64) :
    h.Shows h.registry.size (h.report.2.tally.copied true).toNat
      (h.report.2.tally.copied false).toNat h.cache.length h.cache.capacity := by
  have hclients : h.report.2.tally.clients.toNat = h.registry.size :=
    UInt64.toNat_ofNat_of_lt hsize
  have hshows := h.shows_report
  rwa [hclients] at hshows

/-- What a banner with these counts of lookups tells after a run. -/
structure Told (start : Hub) (capacity : Nat) (μs : List HubMove) (hits misses : Nat) : Prop where
  shows : (start.run μs).Shows (start.run μs).registry.size hits misses
    (start.run μs).cache.length capacity
  hits_greatest : IsGreatest {n | n = (start.run μs).cache.hits ∨ n ∈ start.readings true μs} hits
  misses_greatest :
    IsGreatest {n | n = (start.run μs).cache.misses ∨ n ∈ start.readings false μs} misses
  length_le : (start.run μs).cache.length ≤ capacity
  /-- A banner without lookups has the rate of a cache without lookups. -/
  none : hits + misses = 0 → (start.run μs).cache.hits + (start.run μs).cache.misses = 0
  ratio : (∀ n ∈ start.readings true μs, n ≤ (start.run μs).cache.hits) →
    (∀ n ∈ start.readings false μs, n ≤ (start.run μs).cache.misses) →
    SameRatio hits misses (start.run μs).cache.hits (start.run μs).cache.misses
  ratio_of_unread : ClearedUnread μs →
    SameRatio hits misses (start.run μs).cache.hits (start.run μs).cache.misses

/-- **The banner shows the largest counts that were ever read, and the rate of the cache.** Whatever
has happened, short of lookups that no word can count: the number of clients is that of the
registry, no more entries are shown than there is room for, and either count of lookups is the
largest of what the cache has counted and of all that was read from it before. So a banner without
lookups has the rate of a cache without lookups. The counts are in the ratio that the rate is
computed from whenever the cache has caught up with all readings, which is always if it is never
cleared after one. -/
theorem banner_tells_largest_readings {capacity quantum : Nat} {start : Hub}
    (hstart : create capacity quantum = .ok start) (μs : List HubMove)
    (hlookups : (start.lookups μs).length < 2 ^ 64)
    (hclients : (start.run μs).registry.size < 2 ^ 64) :
    ∃ hits misses, start.Told capacity μs hits misses := by
  have hcapacity : capacity ≠ 0 := by
    rintro rfl
    cases hstart
  obtain rfl := eq_empty_of_create hstart
  have hready := ready_run (ready_empty hcapacity) μs
  have hroom : ((empty capacity).run μs).cache.capacity = capacity := capacity_run _ μs
  have hhits := isGreatest_shown_since_start true capacity hlookups
  have hmisses := isGreatest_shown_since_start false capacity hlookups
  have hratio : (∀ n ∈ (empty capacity).readings true μs,
        n ≤ ((empty capacity).run μs).cache.hits) →
      (∀ n ∈ (empty capacity).readings false μs, n ≤ ((empty capacity).run μs).cache.misses) →
      SameRatio (((empty capacity).run μs).report.2.tally.copied true).toNat
        (((empty capacity).run μs).report.2.tally.copied false).toNat
        ((empty capacity).run μs).cache.hits ((empty capacity).run μs).cache.misses := by
    intro htrue hfalse
    have hsame := hhits.unique (isGreatest_caught_up htrue)
    have hsame' := hmisses.unique (isGreatest_caught_up hfalse)
    rw [hsame, hsame']
    exact .refl _ _
  refine ⟨_, _, ?_, hhits, hmisses, ?_, fun hnone => ?_, hratio, fun hunread => ?_⟩
  · have hshows := shows_size hclients
    rwa [hroom] at hshows
  · exact Nat.le_trans hready.kept.length_le (Nat.le_of_eq hroom)
  · have hle := hhits.2 (.inl rfl)
    have hle' := hmisses.2 (.inl rfl)
    change ((empty capacity).run μs).cache.hits ≤ _ at hle
    change ((empty capacity).run μs).cache.misses ≤ _ at hle'
    omega
  · exact hratio (readings_le true hunread _) (readings_le false hunread _)

/-- What a cache of room for four is asked for before it is cleared, and after. -/
theorem banner_tells_largest_readings_after_a_clearing :
    let t : Clock := ⟨7, 5⟩
    let μs : List HubMove :=
      [.remember t "ann" "hi" 1, .lookup "ann_1", .lookup "bob_1", .refreshTally, .forget,
        .lookup "bob_1", .lookup "ann_1", .lookup "eve_1"]
    create 4 100 = .ok (empty 4) ∧ ((empty 4).lookups μs).length < 2 ^ 64 ∧
      ((empty 4).run μs).registry.size < 2 ^ 64 ∧ ¬ClearedUnread μs ∧
      ∃ hits misses, (empty 4).Told 4 μs hits misses ∧ hits = 1 ∧ misses = 3 := by
  intro t μs
  have hstart : create 4 100 = .ok (empty 4) := rfl
  have hlookups : ((empty 4).lookups μs).length < 2 ^ 64 := by decide +kernel
  have hclients : ((empty 4).run μs).registry.size < 2 ^ 64 := by decide +kernel
  have hread : ¬ClearedUnread μs := by
    intro hunread
    have hnone := hunread (μs.take 4) (μs.drop 5) rfl .refreshTally (by decide +kernel)
    cases hnone
  obtain ⟨hits, misses, htold⟩ := banner_tells_largest_readings hstart μs hlookups hclients
  refine ⟨hstart, hlookups, hclients, hread, hits, misses, htold, ?_, ?_⟩
  · -- The cache has no hits left to show; the banner knows of one.
    have hgreatest : IsGreatest {n | n = ((empty 4).run μs).cache.hits ∨
        n ∈ (empty 4).readings true μs} 1 := by
      have hcounted : ((empty 4).run μs).cache.hits = 0 := by decide +kernel
      have hreadings : (empty 4).readings true μs = [1] := by decide +kernel
      rw [hcounted, hreadings]
      exact ⟨.inr List.mem_cons_self, by simp [upperBounds]⟩
    exact htold.hits_greatest.unique hgreatest
  · have hcounted : ((empty 4).run μs).cache.misses = 3 := by decide +kernel
    have hcaught : ∀ n ∈ (empty 4).readings false μs, n ≤ ((empty 4).run μs).cache.misses := by
      decide +kernel
    exact hcounted ▸ htold.misses_greatest.unique (isGreatest_caught_up hcaught)

/-- A hit and a miss were read, then the cache was cleared, and then something was missed: half of
the lookups on the banner are hits, and none of those in the cache. -/
theorem banner_of_a_cleared_cache :
    let t : Clock := ⟨7, 5⟩
    let h := (empty 4).run
      [.remember t "ann" "hi" 1, .lookup "ann_1", .lookup "bob_1", .refreshTally, .forget,
        .lookup "bob_1"]
    create 4 100 = .ok (empty 4) ∧ h.Shows 0 1 1 0 4 ∧ h.cache.hits = 0 ∧ h.cache.misses = 1 ∧
      ¬SameRatio 1 1 0 1 := by
  intro t h
  have hshows : h.Shows 0 1 1 0 4 := by
    have hclients : h.report.2.tally.clients.toNat = 0 := by decide +kernel
    have hhits : (h.report.2.tally.copied true).toNat = 1 := by decide +kernel
    have hmisses : (h.report.2.tally.copied false).toNat = 1 := by decide +kernel
    have hlength : h.cache.length = 0 := by decide +kernel
    have hcapacity : h.cache.capacity = 4 := by decide +kernel
    have hreport := h.shows_report
    rwa [hclients, hhits, hmisses, hlength, hcapacity] at hreport
  exact ⟨rfl, hshows, by decide +kernel, by decide +kernel, by decide⟩

end Hub

end ChatHub
