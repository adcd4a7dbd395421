import ChatHub.Proofs.Hub.Relayed
import ChatHub.Proofs.Hub.Signals
/-!
# The two sets of books agree

What a hub does is counted twice: in the totals, of which the cache keeps a part itself, and in the
monitoring counters. Each number is written in another place. The theorem compares all of them with
what happened in a run, so with each other (`Hub.books_agree`).

What happened is read off the run, and not off any number: the rounds with what they report and what
they leave in the queues, and the lookups with what they found. A line of text makes one lookup
before its round and three after it, so they are told apart (`HubMove.lookupsBefore`,
`HubMove.lookupsAfter`).

Everything that can change a number is a round or a lookup, and `Counts.add` says how. The cache
forgets its own counts of lookups when it is cleared; that is the one move that subtracts.
-/

namespace ChatHub

/-! ## What happens in a run -/

/-- The records that a round puts at the ends of the queues. -/
def Round.appended (ρ : Round) : List Record :=
  ρ.hub.registry.clients.flatMap fun c =>
    ((ρ.outcome.2.registry.find? c.id).map fun d =>
      d.link.mailbox.queue.drop c.link.mailbox.queue.length).getD []

/-- How many copies were delivered, as the rounds report it. -/
def delivered (ρs : List Round) : Nat := (ρs.map (·.outcome.1.delivered)).sum

/-- How many deliveries failed, as the rounds report it. -/
def undelivered (ρs : List Round) : Nat := (ρs.map (·.outcome.1.failed.length)).sum

/-- Which of the probes after a line find something. -/
def Hub.probes (h : Hub) (t : Clock) (user : String) : List Int64 → List Bool
  | [] => []
  | back :: rest =>
    let id := RecentCache.makeId user (t.unix - back)
    (h.lookup id).1.isSome :: (h.probeRecent t id).probes t user rest

namespace HubMove

/-- Which lookups of a move find something, up to its round. -/
def lookupsBefore (h : Hub) : HubMove → List Bool
  | relayText _ _ user m =>
    let m := Hub.signed user m
    [(h.lookup (RecentCache.makeId m.sender (m.timestamp - Hub.probeOffset))).1.isSome]
  | lookup id => [(h.lookup id).1.isSome]
  | _ => []

/-- Which lookups of a move find something, once its round is made. -/
def lookupsAfter (h : Hub) : HubMove → List Bool
  | relayText t _ user _ => h.probes t user Hub.recentWindow
  | _ => []

/-- Which lookups of a move find something. -/
def lookups (h : Hub) (μ : HubMove) : List Bool :=
  μ.lookupsBefore h ++ ((μ.round? h).map fun ρ => μ.lookupsAfter ρ.outcome.2).getD []

end HubMove

namespace Hub

/-- The rounds of a run, each with the hub as it was. -/
def rounds (h : Hub) : List HubMove → List Round
  | [] => []
  | μ :: μs => (μ.round? h).toList ++ (h.act μ).rounds μs

/-- Which lookups of a run find something. -/
def lookups (h : Hub) : List HubMove → List Bool
  | [] => []
  | μ :: μs => μ.lookups h ++ (h.act μ).lookups μs

end Hub

/-! ## A round says how many copies it made -/

theorem flatMap_ite_singleton {α β : Type} (p : α → Bool) (b : β) (l : List α) :
    (l.flatMap fun a => if p a = true then [b] else []) = List.replicate (l.countP p) b := by
  induction l with
  | nil => rfl
  | cons a l ih =>
    rw [List.flatMap_cons, ih, List.countP_cons]
    cases p a with
    | true => simp [List.replicate_succ]
    | false => simp

/-- What a round leaves in the queues is its message, as often as it says. -/
theorem Round.appended_eq (ρ : Round) :
    ρ.appended = List.replicate ρ.outcome.1.delivered ρ.record := by
  have hqueue : ∀ c ∈ ρ.hub.registry.clients,
      ((ρ.outcome.2.registry.find? c.id).map fun d =>
        d.link.mailbox.queue.drop c.link.mailbox.queue.length).getD [] =
      if ((c.deliver ρ.record).1 && Registry.isAudience ρ.excluding c) = true then [ρ.record]
      else [] := by
    intro c hc
    rw [Round.outcome, Hub.registry_broadcast, Registry.find?_mapClients, Registry.find?_of_mem hc,
      Client.deliver_fst]
    simp only [Option.map_some, Option.getD_some, Client.queue_afterRound, List.drop_left]
    cases c.link.mailbox.hasRoom <;> cases Registry.isAudience ρ.excluding c <;> rfl
  show _ = List.replicate ((ρ.hub.registry.clients.filter (Registry.isAudience ρ.excluding)).countP
    fun c => (c.deliver ρ.record).1) ρ.record
  rw [List.countP_filter, ← flatMap_ite_singleton, appended, List.flatMap_def,
    List.map_congr_left hqueue, ← List.flatMap_def]

/-! ## The numbers -/

/-- The numbers that count rounds and lookups. -/
structure Counts where
  /-- Copies delivered, by the totals and by the monitoring counters. -/
  sent : UInt64
  noted : Nat
  failed : Nat
  /-- Lookups, by the monitoring counters. -/
  hits : Nat
  misses : Nat
  /-- Lookups, by the cache. -/
  cacheHits : Nat
  cacheMisses : Nat
  /-- By how many evictions the cache is ahead of the monitoring counters. -/
  unbooked : Int

namespace Counts

/-- The numbers after so many deliveries and failures, and these lookups. -/
def add (n : Counts) (delivered failed : Nat) (found : List Bool) : Counts :=
  { sent := n.sent + delivered.toUInt64
    noted := n.noted + delivered
    failed := n.failed + failed
    hits := n.hits + found.count true
    misses := n.misses + found.count false
    cacheHits := n.cacheHits + found.count true
    cacheMisses := n.cacheMisses + found.count false
    unbooked := n.unbooked }

/-- The numbers without those that the cache forgets. -/
def lasting (n : Counts) : Counts := { n with cacheHits := 0, cacheMisses := 0 }

/-- What the cache forgets it need not have counted. -/
theorem lasting_add (n : Counts) (d f : Nat) (l : List Bool) :
    (n.lasting.add d f l).lasting = (n.add d f l).lasting := rfl

theorem add_nothing (n : Counts) : n.add 0 0 [] = n := by
  simp [add]

theorem add_add (n : Counts) (d d' f f' : Nat) (l l' : List Bool) :
    (n.add d f l).add d' f' l' = n.add (d + d') (f + f') (l ++ l') := by
  simp [add, List.count_append, Nat.add_assoc, UInt64.add_assoc]

end Counts

namespace RecentCache

/-- Remembering a message is no lookup, and an eviction is counted exactly when one is reported. -/
theorem counters_insertion (c : RecentCache) (now : Nat) (sender content : String)
    (timestamp : Int64) :
    (c.insertion now sender content timestamp).2.hits = c.hits ∧
      (c.insertion now sender content timestamp).2.misses = c.misses ∧
      (c.insertion now sender content timestamp).2.evictions = c.evictions +
        if (c.insertion now sender content timestamp).1.evicted.isSome then 1 else 0 := by
  unfold insertion
  dsimp only
  split
  · exact ⟨rfl, rfl, rfl⟩
  · unfold freeSlot
    cases c.victim? with
    | none => exact ⟨rfl, rfl, rfl⟩
    | some victim => exact ⟨rfl, rfl, rfl⟩

end RecentCache

namespace Hub

def counts (h : Hub) : Counts :=
  { sent := h.tally.sent
    noted := h.gauges.sent
    failed := h.gauges.failed
    hits := h.gauges.hits
    misses := h.gauges.misses
    cacheHits := h.cache.hits
    cacheMisses := h.cache.misses
    unbooked := h.cache.evictions - h.gauges.evictions }

theorem counts_enrol (h : Hub) (id : Nat) (user : String) :
    (h.enrol id user).2.counts = h.counts := by
  unfold enrol
  rcases h.roster.add id user with ⟨added, roster⟩
  cases added <;> rfl

theorem counts_dismiss (h : Hub) (id : Nat) : (h.dismiss id).counts = h.counts := by
  have hstrike : (h.strike id).2.counts = h.counts := by
    unfold strike
    rcases h.roster.remove id with ⟨removed, roster⟩
    cases removed <;> rfl
  unfold dismiss
  dsimp only
  split <;> exact hstrike

theorem counts_lose (h : Hub) (id : Nat) : (lose h id).counts = h.counts.add 0 1 [] := by
  unfold lose
  rcases h.registry.retire id with ⟨_ | user, registry⟩ <;> simp [counts, Counts.add, warn]

theorem counts_foldl_lose (h : Hub) (ids : List Nat) :
    (ids.foldl lose h).counts = h.counts.add 0 ids.length [] := by
  induction ids generalizing h with
  | nil => exact (Counts.add_nothing _).symm
  | cons id ids ih =>
    rw [List.foldl_cons, ih, counts_lose, Counts.add_add, List.length_cons, Nat.add_comm 1]
    rfl

theorem counts_remember (h : Hub) (t : Clock) (sender content : String) (timestamp : Int64) :
    (h.remember t sender content timestamp).2.counts = h.counts := by
  obtain ⟨hhits, hmisses, hevictions⟩ := h.cache.counters_insertion t.ms sender content timestamp
  unfold remember
  generalize h.cache.insertion t.ms sender content timestamp = inserted at hhits hmisses hevictions
  obtain ⟨⟨added, evicted⟩, cache⟩ := inserted
  dsimp only at hhits hmisses hevictions
  simp only [counts, hhits, hmisses, hevictions, Counts.mk.injEq, true_and]
  omega

theorem counts_broadcast (h : Hub) (t : Clock) (m : Record) (excluding : Option Nat) :
    (h.broadcast t m excluding).2.counts =
      h.counts.add (h.broadcast t m excluding).1.delivered
        (h.broadcast t m excluding).1.failed.length [] := by
  unfold broadcast
  rcases h.registry.fanOut m excluding with ⟨fan, registry⟩
  dsimp only
  rw [counts_remember, counts_foldl_lose]
  simp [counts, Counts.add, Tally.addSent]

theorem counts_lookup (h : Hub) (id : String) :
    (h.lookup id).2.counts = h.counts.add 0 0 [(h.lookup id).1.isSome] := by
  unfold lookup RecentCache.lookup
  cases h.cache.peek id <;> simp [counts, Counts.add]

theorem counts_refresh (h : Hub) (t : Clock) (id : String) :
    (h.refresh t id).counts = h.counts := by
  unfold refresh RecentCache.refresh
  split <;> rfl

theorem counts_probeRecent (h : Hub) (t : Clock) (id : String) :
    (h.probeRecent t id).counts = h.counts.add 0 0 [(h.lookup id).1.isSome] := by
  show (if (h.lookup id).1.isSome then (h.lookup id).2.refresh t id
    else (h.lookup id).2).counts = _
  split
  · rw [counts_refresh, counts_lookup]
  · exact h.counts_lookup id

theorem counts_probes (h : Hub) (t : Clock) (user : String) (window : List Int64) :
    (window.foldl (fun h back => h.probeRecent t (RecentCache.makeId user (t.unix - back)))
      h).counts = h.counts.add 0 0 (h.probes t user window) := by
  induction window generalizing h with
  | nil => exact (Counts.add_nothing _).symm
  | cons back rest ih =>
    rw [List.foldl_cons, ih, counts_probeRecent, Counts.add_add]
    rfl

end Hub

/-! ## One move -/

namespace HubMove

variable {h : Hub} {μ : HubMove}

theorem counts_round {ρ : Round} (hρ : μ.round? h = some ρ) :
    ρ.hub.counts = h.counts.add 0 0 (μ.lookupsBefore h) := by
  cases μ <;> cases hρ
  · exact (Hub.counts_enrol _ _ _).trans (Counts.add_nothing _).symm
  · exact (h.counts_dismiss _).trans (Counts.add_nothing _).symm
  · exact (Counts.add_nothing _).symm
  · exact h.counts_lookup _

theorem counts_afterwards (h : Hub) (μ : HubMove) :
    (μ.afterwards h).counts = h.counts.add 0 0 (μ.lookupsAfter h) := by
  cases μ with
  | relayText t id user m => exact h.counts_probes t user Hub.recentWindow
  | _ => exact (Counts.add_nothing _).symm

/-- A move counts its round and its lookups, unless it makes the cache forget. -/
theorem counts_act (hμ : μ ≠ .forget) (h : Hub) :
    (h.act μ).counts =
      h.counts.add (delivered (μ.round? h).toList) (undelivered (μ.round? h).toList)
        (μ.lookups h) := by
  unfold lookups
  cases hρ : μ.round? h with
  | some ρ =>
    have hround : ρ.outcome.2.counts =
        ρ.hub.counts.add ρ.outcome.1.delivered ρ.outcome.1.failed.length [] :=
      ρ.hub.counts_broadcast ρ.clock ρ.record ρ.excluding
    rw [act_of_round hρ, counts_afterwards, hround, counts_round hρ, Counts.add_add, Counts.add_add]
    simp [delivered, undelivered]
  | none =>
    have hnone : ∀ {n : Counts}, n = h.counts →
        n = h.counts.add (delivered []) (undelivered []) ([] ++ []) := fun hn =>
      hn.trans (Counts.add_nothing _).symm
    cases μ with
    | join | leave | broadcast | relayText => cases hρ
    | forget => exact absurd rfl hμ
    | lookup id => exact h.counts_lookup id
    | nextTurn t =>
      refine hnone ?_
      show (h.nextTurn t).2.counts = h.counts
      unfold Hub.nextTurn
      rcases h.roster.next t.ms with ⟨m, roster⟩
      rfl
    | remember t sender content timestamp =>
      exact hnone (h.counts_remember t sender content timestamp)
    | refresh t id => exact hnone (h.counts_refresh t id)
    | _ => exact hnone rfl

theorem lasting_act (h : Hub) (μ : HubMove) :
    (h.act μ).counts.lasting =
      (h.counts.add (delivered (μ.round? h).toList) (undelivered (μ.round? h).toList)
        (μ.lookups h)).lasting := by
  by_cases hμ : μ = .forget
  · subst hμ
    have hforget : (h.act .forget).counts.lasting = h.counts.lasting := rfl
    exact hforget.trans (congrArg Counts.lasting (Counts.add_nothing h.counts).symm)
  · rw [counts_act hμ]

end HubMove

/-! ## Runs -/

theorem delivered_append (ρs σs : List Round) :
    delivered (ρs ++ σs) = delivered ρs + delivered σs := by
  simp [delivered]

theorem undelivered_append (ρs σs : List Round) :
    undelivered (ρs ++ σs) = undelivered ρs + undelivered σs := by
  simp [undelivered]

/-- The queues have what the rounds report. -/
theorem length_appended (ρs : List Round) : (ρs.flatMap Round.appended).length = delivered ρs := by
  induction ρs with
  | nil => rfl
  | cons ρ ρs ih =>
    rw [List.flatMap_cons, List.length_append, ih, Round.appended_eq, List.length_replicate]
    rfl

namespace Hub

theorem counts_run {μs : List HubMove} (hμs : .forget ∉ μs) (h : Hub) :
    (h.run μs).counts =
      h.counts.add (delivered (h.rounds μs)) (undelivered (h.rounds μs)) (h.lookups μs) := by
  induction μs generalizing h with
  | nil => exact (Counts.add_nothing _).symm
  | cons μ μs ih =>
    obtain ⟨hμ, hrest⟩ := not_or.1 (mt List.mem_cons.2 hμs)
    show ((h.act μ).run μs).counts = _
    rw [ih hrest, HubMove.counts_act (Ne.symm hμ), Counts.add_add, ← delivered_append,
      ← undelivered_append]
    rfl

theorem lasting_run (h : Hub) (μs : List HubMove) :
    (h.run μs).counts.lasting =
      (h.counts.add (delivered (h.rounds μs)) (undelivered (h.rounds μs))
        (h.lookups μs)).lasting := by
  induction μs generalizing h with
  | nil => exact congrArg Counts.lasting (Counts.add_nothing _).symm
  | cons μ μs ih =>
    show ((h.act μ).run μs).counts.lasting = _
    rw [ih, ← Counts.lasting_add, HubMove.lasting_act, Counts.lasting_add, Counts.add_add,
      ← delivered_append, ← undelivered_append]
    rfl

theorem received_run (h : Hub) (μs : List HubMove) :
    (h.run μs).tally.received = h.tally.received + (μs.countP (·.isReceipt)).toUInt64 ∧
      (h.run μs).gauges.received = h.gauges.received + μs.countP (·.isReceipt) := by
  induction μs generalizing h with
  | nil => simp [run]
  | cons μ μs ih =>
    obtain ⟨htally, hgauges⟩ := ih (h.act μ)
    rw [List.countP_cons]
    cases hμ : μ.isReceipt with
    | false =>
      have heffort := HubMove.effort_act hμ h
      have hreceived : (h.act μ).tally.received = h.tally.received :=
        congrArg Effort.received heffort
      have hnoted : (h.act μ).gauges.received = h.gauges.received := congrArg Effort.noted heffort
      exact ⟨htally.trans (by rw [hreceived]; rfl), hgauges.trans (by rw [hnoted]; rfl)⟩
    | true =>
      cases μ with
      | recordReceived t id =>
        refine ⟨htally.trans ?_, hgauges.trans ?_⟩
        · show h.tally.received + 1 + _ = _
          simp [UInt64.add_assoc, UInt64.add_comm 1]
        · show h.gauges.received + 1 + _ = _
          simp [Nat.add_assoc, Nat.add_comm 1]
      | _ => cases hμ

theorem run_append (h : Hub) (μs νs : List HubMove) : h.run (μs ++ νs) = (h.run μs).run νs :=
  List.foldl_append

/-- The cache has counted the lookups since it was new or was cleared. -/
theorem counts_since_cleared (capacity : Nat) {before after : List HubMove}
    (hbefore : before = [] ∨ ∃ earlier, before = earlier ++ [.forget]) (hafter : .forget ∉ after) :
    ((empty capacity).run (before ++ after)).cache.hits =
        (((empty capacity).run before).lookups after).count true ∧
      ((empty capacity).run (before ++ after)).cache.misses =
        (((empty capacity).run before).lookups after).count false := by
  have hfresh : ((empty capacity).run before).counts.cacheHits = 0 ∧
      ((empty capacity).run before).counts.cacheMisses = 0 := by
    rcases hbefore with rfl | ⟨earlier, rfl⟩
    · exact ⟨rfl, rfl⟩
    · rw [run_append]
      exact ⟨rfl, rfl⟩
  have hsince := ((empty capacity).run before).counts_run hafter
  rw [run_append]
  refine ⟨(congrArg (fun n => n.cacheHits) hsince).trans ?_,
    (congrArg (fun n => n.cacheMisses) hsince).trans ?_⟩
  · show ((empty capacity).run before).counts.cacheHits + _ = _
    rw [hfresh.1, Nat.zero_add]
  · show ((empty capacity).run before).counts.cacheMisses + _ = _
    rw [hfresh.2, Nat.zero_add]

/-- The numbers after a run are what happened in it. -/
structure Accounted (start : Hub) (μs : List HubMove) : Prop where
  sent : (start.run μs).tally.sent.toNat = delivered (start.rounds μs)
  sentNoted : (start.run μs).gauges.sent = delivered (start.rounds μs)
  /-- As many records as that were put into queues by rounds. -/
  appended : ((start.rounds μs).flatMap Round.appended).length = delivered (start.rounds μs)
  received : (start.run μs).tally.received.toNat = μs.countP (·.isReceipt)
  receivedNoted : (start.run μs).gauges.received = μs.countP (·.isReceipt)
  failed : (start.run μs).gauges.failed = undelivered (start.rounds μs)
  hits : (start.run μs).gauges.hits = (start.lookups μs).count true
  misses : (start.run μs).gauges.misses = (start.lookups μs).count false
  /-- The cache's own counts begin with the last time that it was cleared. -/
  sinceCleared : ∀ before after, μs = before ++ after →
    (before = [] ∨ ∃ earlier, before = earlier ++ [.forget]) → .forget ∉ after →
      (start.run μs).cache.hits = ((start.run before).lookups after).count true ∧
      (start.run μs).cache.misses = ((start.run before).lookups after).count false
  evictions : (start.run μs).gauges.evictions = (start.run μs).cache.evictions

/-- **The two sets of books agree**, with each other and with what happened, in every run of a hub
that begins empty, as long as no more is sent or received than the monitoring counters can tell
apart. -/
theorem books_agree {capacity quantum : Nat} (hcapacity : capacity ≠ 0) (hquantum : quantum ≠ 0) :
    ∃ start, create capacity quantum = .ok start ∧ ∀ μs : List HubMove,
      delivered (start.rounds μs) < 2 ^ 53 → μs.countP (·.isReceipt) < 2 ^ 53 →
        start.Accounted μs := by
  refine ⟨_, create_eq_empty hcapacity hquantum, fun μs hsent hreceived => ?_⟩
  have hword : ∀ {n : Nat}, n < 2 ^ 53 → ((0 : UInt64) + n.toUInt64).toNat = n := by
    intro n hn
    rw [UInt64.zero_add]
    exact UInt64.toNat_ofNat_of_lt (Nat.lt_trans hn (by decide))
  have hcounts := (empty capacity).lasting_run μs
  obtain ⟨hreceipts, hnoted⟩ := (empty capacity).received_run μs
  have hzero : ∀ {n m : Nat}, n = 0 + m → n = m := fun h => h.trans (Nat.zero_add _)
  have hevictions : (((empty capacity).run μs).cache.evictions : Int) -
      ((empty capacity).run μs).gauges.evictions = 0 := congrArg (fun n => n.unbooked) hcounts
  exact
    { sent := (congrArg (fun n => n.sent.toNat) hcounts).trans (hword hsent)
      sentNoted := hzero (congrArg (fun n => n.noted) hcounts)
      appended := length_appended _
      received := (congrArg UInt64.toNat hreceipts).trans (hword hreceived)
      receivedNoted := hzero hnoted
      failed := hzero (congrArg (fun n => n.failed) hcounts)
      hits := hzero (congrArg (fun n => n.hits) hcounts)
      misses := hzero (congrArg (fun n => n.misses) hcounts)
      sinceCleared := by
        rintro before after rfl hbefore hafter
        exact counts_since_cleared capacity hbefore hafter
      evictions := (Int.ofNat.inj (Int.sub_eq_zero.1 hevictions)).symm }

/-- A cache of one entry, and a client with room for one record. The line finds no room there, the
first lookup finds what was said, and the second one comes after the cache has been cleared. -/
theorem books_agree_after_a_loss :
    let line := Record.make .text "" "hi" 8
    let μs : List HubMove :=
      [.join ⟨9, 9000⟩ 0 1 "ann" none 1, .join ⟨9, 9000⟩ 0 2 "bob" none 4,
        .recordReceived ⟨10, 10000⟩ 2, .relayText ⟨10, 10000⟩ 2 "bob" line, .lookup "bob_10",
        .forget, .lookup "bob_10", .leave ⟨11, 11000⟩ 1 "ann"]
    1 ≠ 0 ∧ 100 ≠ 0 ∧ ∃ start, create 1 100 = .ok start ∧
      delivered (start.rounds μs) < 2 ^ 53 ∧ μs.countP (·.isReceipt) < 2 ^ 53 ∧
      start.Accounted μs ∧
      delivered (start.rounds μs) = 2 ∧ undelivered (start.rounds μs) = 1 ∧
      start.lookups μs = [false, false, false, false, true, false] ∧
      (start.run μs).cache.evictions = 2 := by
  intro line μs
  have hcapacity : 1 ≠ 0 := by decide
  have hquantum : 100 ≠ 0 := by decide
  obtain ⟨start, hstart, hbooks⟩ := books_agree hcapacity hquantum
  have hsent : delivered (start.rounds μs) = 2 := by
    cases hstart
    decide +kernel
  have hreceived : μs.countP (·.isReceipt) < 2 ^ 53 := by decide
  have hsmall : delivered (start.rounds μs) < 2 ^ 53 := by
    rw [hsent]
    decide
  refine ⟨hcapacity, hquantum, start, hstart, hsmall, hreceived, hbooks μs hsmall hreceived, hsent,
    ?_⟩
  cases hstart
  decide +kernel

end Hub

end ChatHub
