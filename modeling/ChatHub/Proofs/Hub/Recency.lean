import ChatHub.Proofs.Hub.Broadcast
import ChatHub.Proofs.Hub.Counters
import ChatHub.Proofs.RecentCache.Keys
import Mathlib.Data.Bool.Count
/-!
# Whose traces a line keeps fresh

A line of text is looked for in the cache once before it goes round and three times after, and what
is found after it is used again, so that it stays. This module says exactly what that does: which
entries are used, that they become the most recent ones, and that no other entry is touched
(`RecentCache.Refreshed`).

The line goes round, and is remembered, under the name that the record carries. What is looked for
after it are the traces of the session's own user id, of the last three seconds. As long as the two
names are the same these are the sender's own lines; a record that carries another name leaves the
traces of that name as they are, and refreshes those of a user who may have said nothing.
-/

namespace ChatHub

/-- The entry once it was used again. -/
def CacheEntry.used (e : CacheEntry) (now seq : Nat) : CacheEntry :=
  { e with lastAccess := now, seq, count := e.count + 1 }

namespace RecentCache

/-! ## One probe -/

variable {c : RecentCache}

theorem peek_lookup (c : RecentCache) (id other : String) :
    (c.lookup id).2.peek other = c.peek other := by
  unfold lookup
  split <;> rfl

theorem clock_lookup (c : RecentCache) (id : String) : (c.lookup id).2.clock = c.clock := by
  unfold lookup
  split <;> rfl

theorem lookup_fst_isSome (c : RecentCache) (id : String) :
    (c.lookup id).1.isSome = (c.peek id).isSome := by
  unfold lookup
  split <;> rename_i h <;> rw [h] <;> rfl

/-- A refresh uses the entry of its id, and no other. -/
theorem Kept.peek_refresh (h : c.Kept) (now : Nat) (id other : String) :
    (c.refresh now id).peek other =
      (c.peek other).map fun e => if other = id then e.used now (c.clock + 1) else e := by
  unfold RecentCache.refresh
  rcases hid : c.slotOf? id with _ | slot
  · by_cases hother : other = id
    · rw [peek, hother, hid]
      rfl
    · simp [hother]
  · show ((c.slotOf? other).bind fun place =>
      (c.slots.modify slot _)[place]?.filter (·.valid)) = _
    rcases hplace : c.slotOf? other with _ | place
    · rw [peek, hplace]
      rfl
    · rw [peek, hplace, Option.bind_some, Option.bind_some, List.getElem?_modify]
      by_cases hother : other = id
      · obtain rfl : slot = place := by
          rw [hother, hid] at hplace
          exact Option.some.inj hplace
        cases c.slots[slot]? with
        | none => rfl
        | some e =>
          cases hvalid : e.valid <;> simp [hvalid, hother, Option.filter_some, CacheEntry.used]
      · have hne : slot ≠ place := by
          rintro rfl
          obtain ⟨d, hd, -, hdid⟩ := h.slotOf?_eq_some_iff.mp hid
          obtain ⟨e, he, -, heid⟩ := h.slotOf?_eq_some_iff.mp hplace
          rw [hd] at he
          have hsame := congrArg CacheEntry.id (Option.some.inj he)
          exact hother (heid.symm.trans (hsame.symm.trans hdid))
        simp [hne, hother]

theorem Kept.peek_probe (h : c.Kept) (now : Nat) (id other : String) :
    (c.probe now id).peek other =
      (c.peek other).map fun e => if other = id then e.used now (c.clock + 1) else e := by
  unfold RecentCache.probe
  rw [lookup_fst_isSome]
  split
  · rw [(h.lookup id).peek_refresh, peek_lookup, clock_lookup]
  · rename_i hmissing
    rw [peek_lookup]
    by_cases hother : other = id
    · rw [Option.not_isSome_iff_eq_none] at hmissing
      rw [hother, hmissing]
      rfl
    · simp [hother]

theorem clock_probe (c : RecentCache) (now : Nat) (id : String) :
    c.clock ≤ (c.probe now id).clock := by
  have hrefresh : ∀ d : RecentCache, d.clock ≤ (d.refresh now id).clock := by
    intro d
    unfold refresh
    split
    · exact Nat.le_refl _
    · exact Nat.le_succ _
  unfold probe
  rw [← c.clock_lookup id]
  split
  · exact hrefresh _
  · exact Nat.le_refl _

/-! ## One probe after the other -/

/-- Probes for several ids, one after the other. -/
def probeAll (c : RecentCache) (now : Nat) (ids : List String) : RecentCache :=
  ids.foldl (fun c id => c.probe now id) c

theorem Ready.probeAll (h : c.Ready) (now : Nat) (ids : List String) :
    (c.probeAll now ids).Ready := by
  induction ids generalizing c with
  | nil => exact h
  | cons id ids ih => exact ih (h.probe now id)

/-- An entry is as it was if its id was not probed for. -/
theorem Ready.peek_probeAll_of_notMem (h : c.Ready) (now : Nat) {ids : List String} {other : String}
    (hother : other ∉ ids) : (c.probeAll now ids).peek other = c.peek other := by
  induction ids generalizing c with
  | nil => rfl
  | cons id ids ih =>
    obtain ⟨hid, hids⟩ := not_or.mp (mt List.mem_cons.mpr hother)
    show ((c.probe now id).probeAll now ids).peek other = _
    rw [ih (h.probe now id) hids, h.kept.peek_probe]
    simp [hid]

/-- Nothing comes in by being probed for. -/
theorem Ready.peek_probeAll_of_none (h : c.Ready) (now : Nat) (ids : List String) {other : String}
    (hnone : c.peek other = none) : (c.probeAll now ids).peek other = none := by
  induction ids generalizing c with
  | nil => exact hnone
  | cons id ids ih =>
    apply ih (h.probe now id)
    rw [h.kept.peek_probe, hnone]
    rfl

/-- An entry that was probed for once was used once, later than anything before. -/
theorem Ready.peek_probeAll_of_mem (h : c.Ready) (now : Nat) {ids : List String} (hids : ids.Nodup)
    {id : String} (hid : id ∈ ids) {e : CacheEntry} (he : c.peek id = some e) :
    ∃ seq, c.clock < seq ∧ (c.probeAll now ids).peek id = some (e.used now seq) := by
  induction ids generalizing c with
  | nil => cases hid
  | cons first ids ih =>
    obtain ⟨hfirst, hids⟩ := List.nodup_cons.mp hids
    have hprobed := h.kept.peek_probe now first id
    rw [he, Option.map_some] at hprobed
    by_cases heq : id = first
    · rw [if_pos heq] at hprobed
      refine ⟨c.clock + 1, Nat.lt_succ_self _, ?_⟩
      rw [← hprobed]
      exact (h.probe now first).peek_probeAll_of_notMem now (heq ▸ hfirst)
    · rw [if_neg heq] at hprobed
      have hrest : id ∈ ids := (List.mem_cons.mp hid).resolve_left heq
      obtain ⟨seq, hseq, hused⟩ := ih (h.probe now first) hids hrest hprobed
      exact ⟨seq, Nat.lt_of_le_of_lt (c.clock_probe now first) hseq, hused⟩

/-- The entries of some ids were used again, where there are any, and nothing else happened to the
entries. -/
structure Refreshed (c : RecentCache) (now : Nat) (ids : List String) (c' : RecentCache) :
    Prop where
  used : ∀ id ∈ ids, ∀ e, c.peek id = some e → ∃ seq, c'.peek id = some (e.used now seq)
  /-- What was used is more recent than whatever was not. -/
  newer : ∀ id ∈ ids, ∀ other ∉ ids, ∀ d e, c'.peek id = some e → c'.peek other = some d →
    d.seq < e.seq
  others : ∀ other, other ∉ ids ∨ c.peek other = none → c'.peek other = c.peek other

theorem Ready.refreshed (h : c.Ready) (now : Nat) {ids : List String} (hids : ids.Nodup) :
    c.Refreshed now ids (c.probeAll now ids) where
  used := by
    intro id hid e he
    obtain ⟨seq, -, hused⟩ := h.peek_probeAll_of_mem now hids hid he
    exact ⟨seq, hused⟩
  newer := by
    intro id hid other hother d e he hd
    rw [h.peek_probeAll_of_notMem now hother] at hd
    cases hbefore : c.peek id with
    | none =>
      rw [h.peek_probeAll_of_none now ids hbefore] at he
      cases he
    | some e₀ =>
      obtain ⟨seq, hseq, hused⟩ := h.peek_probeAll_of_mem now hids hid hbefore
      obtain rfl := Option.some.inj (hused.symm.trans he)
      -- Whatever was not used has a number that the clock had given out before.
      have hdrawn := (h.kept.drawn d (h.kept.peek_eq_some_iff.mp hd).1).2
      exact Nat.lt_of_le_of_lt hdrawn hseq
  others := by
    rintro other (hother | hnone)
    · exact h.peek_probeAll_of_notMem now hother
    · rw [h.peek_probeAll_of_none now ids hnone, hnone]

end RecentCache

namespace Hub

/-! ## The hub around a line -/

/-- The hub but for what a probe changes: the cache, and the gauges of its lookups. -/
def unprobed (h : Hub) : Hub :=
  { h with cache := .empty 0, gauges := { h.gauges with hits := 0, misses := 0 } }

theorem unprobed_lookup (h : Hub) (id : String) : (h.lookup id).2.unprobed = h.unprobed := by
  unfold lookup
  rcases h.cache.lookup id with ⟨_ | found, cache⟩ <;> rfl

theorem unprobed_probeRecent (h : Hub) (t : Clock) (id : String) :
    (h.probeRecent t id).unprobed = h.unprobed := by
  rw [← h.unprobed_lookup id]
  show (if (h.lookup id).1.isSome then (h.lookup id).2.refresh t id
    else (h.lookup id).2).unprobed = _
  split <;> rfl

/-- The key of what a user said some seconds ago. -/
def keyBack (t : Clock) (user : String) (back : Int64) : String :=
  RecentCache.makeId user (t.unix - back)

/-- What is probed for once a line has gone round: what the session's user said just before. -/
def recentKeys (t : Clock) (user : String) : List String := recentWindow.map (keyBack t user)

theorem recentKeys_nodup (t : Clock) (user : String) : (recentKeys t user).Nodup := by
  have hwindow : recentWindow.Nodup := by decide
  apply hwindow.map
  intro a b hab
  have hsecond := (RecentCache.makeId_eq_iff.mp hab).2
  rw [Int64.sub_eq_add_neg, Int64.sub_eq_add_neg, Int64.add_right_inj, Int64.neg_inj] at hsecond
  exact hsecond

/-- The probes after a line. -/
def probeBack (h : Hub) (t : Clock) (user : String) (window : List Int64) : Hub :=
  window.foldl (fun h back => h.probeRecent t (RecentCache.makeId user (t.unix - back))) h

theorem cache_probeBack (h : Hub) (t : Clock) (user : String) (window : List Int64) :
    (h.probeBack t user window).cache = h.cache.probeAll t.ms (window.map (keyBack t user)) := by
  induction window generalizing h with
  | nil => rfl
  | cons back rest ih =>
    show ((h.probeRecent t (keyBack t user back)).probeBack t user rest).cache = _
    rw [ih, cache_probeRecent]
    rfl

theorem unprobed_probeBack (h : Hub) (t : Clock) (user : String) (window : List Int64) :
    (h.probeBack t user window).unprobed = h.unprobed := by
  induction window generalizing h with
  | nil => rfl
  | cons back rest ih =>
    show ((h.probeRecent t (keyBack t user back)).probeBack t user rest).unprobed = _
    rw [ih, unprobed_probeRecent]

theorem length_probes (h : Hub) (t : Clock) (user : String) (window : List Int64) :
    (h.probes t user window).length = window.length := by
  induction window generalizing h with
  | nil => rfl
  | cons back rest ih => rw [probes, List.length_cons, ih, List.length_cons]

/-- Four lookups are counted for a line, by the gauges and by the cache. -/
theorem lookups_relayText (h : Hub) (t : Clock) (id : Nat) (user : String) (m : Record) :
    (h.relayText t id user m).2.gauges.hits + (h.relayText t id user m).2.gauges.misses =
        h.gauges.hits + h.gauges.misses + 4 ∧
      (h.relayText t id user m).2.cache.hits + (h.relayText t id user m).2.cache.misses =
        h.cache.hits + h.cache.misses + 4 := by
  generalize hafter : (h.relayText t id user m).2 = after
  obtain ⟨sent, failed, found, hlength, hcounts⟩ : ∃ sent failed, ∃ found : List Bool,
      found.length = 4 ∧ after.counts = h.counts.add sent failed found := by
    have hkind : HubMove.relayText t id user m ≠ .forget := nofun
    rw [← hafter]
    refine ⟨_, _, _, ?_, HubMove.counts_act hkind h⟩
    show (_ ++ probes _ t user recentWindow).length = 4
    rw [List.length_append, length_probes]
    rfl
  have hfound : found.count true + found.count false = 4 :=
    (List.count_true_add_count_false found).trans hlength
  simp only [counts, Counts.add, Counts.mk.injEq] at hcounts
  omega

/-! ## One line -/

/-- A user id that fits its field is put in whole where a sender is missing. -/
theorem signed_eq {user : String} (huser : user.utf8ByteSize ≤ maxSenderBytes) (m : Record) :
    signed user m = { m with sender := if m.sender.isEmpty then user else m.sender } := by
  unfold signed
  split
  · rw [Record.withSender, Text.truncate_of_le huser]
  · rfl

theorem relayText_eq_of_fits {user : String} (huser : user.utf8ByteSize ≤ maxSenderBytes) (h : Hub)
    (t : Clock) (id : Nat) (m : Record) :
    let s := if m.sender.isEmpty then user else m.sender
    let probed := (h.lookup (RecentCache.makeId s (m.timestamp - probeOffset))).2
    let round := probed.broadcast t { m with sender := s, timestamp := t.unix } (some id)
    h.relayText t id user m = (round.1, round.2.probeBack t user recentWindow) := by
  have hline := h.relayText_eq t id user m
  rw [signed_eq huser] at hline
  exact hline

/-- A lookup changes no more of the cache than its counts. -/
theorem cache_lookup_eq (h : Hub) (key : String) :
    (h.lookup key).2.cache =
      { h.cache with
        hits := (h.lookup key).2.cache.hits
        misses := (h.lookup key).2.cache.misses } := by
  rw [cache_lookup, RecentCache.lookup]
  split <;> rfl

/-- **A line refreshes the traces of the session that it came from.** In any hub whose cache can
come about: a line of a session goes round to everybody else, under the relay's time and under the
name that it carries, or else the session's user id, and is remembered under these. Of the session's
user id, then, what was said one, two and three seconds before is used again where the cache still
has it, and is more recent from then on than all the rest, which stays as it was. There are four
lookups. -/
theorem relayText_refreshes_own_traces {capacity : Nat} {new : RecentCache}
    (hnew : RecentCache.create capacity = .ok new) (used : List CacheMove) {h : Hub}
    (hcache : h.cache = new.run used) (t : Clock) (id : Nat) {user : String}
    (huser : user.utf8ByteSize ≤ maxSenderBytes) (m : Record) :
    let s := if m.sender.isEmpty then user else m.sender
    let sent := { m with sender := s, timestamp := t.unix }
    let probed := (h.lookup (RecentCache.makeId s (m.timestamp - probeOffset))).2
    let told := (probed.broadcast t sent (some id)).2
    let after := (h.relayText t id user m).2
    probed.unprobed = h.unprobed ∧
      probed.cache =
        { h.cache with hits := probed.cache.hits, misses := probed.cache.misses } ∧
      probed.GoneRound t sent (some id) (h.relayText t id user m).1 told ∧
      (∃ e, told.cache.peek (RecentCache.makeId s t.unix) = some e ∧
        e.id = RecentCache.makeId s t.unix) ∧
      after.unprobed = told.unprobed ∧
      told.cache.Refreshed t.ms (recentKeys t user) after.cache ∧
      after.gauges.hits + after.gauges.misses = h.gauges.hits + h.gauges.misses + 4 ∧
      after.cache.hits + after.cache.misses = h.cache.hits + h.cache.misses + 4 := by
  intro s sent probed told after
  have hrelay : h.relayText t id user m =
      ((probed.broadcast t sent (some id)).1, told.probeBack t user recentWindow) :=
    relayText_eq_of_fits huser h t id m
  have hafter : after = told.probeBack t user recentWindow := by
    show (h.relayText t id user m).2 = _
    rw [hrelay]
  have hreadyProbed : probed.cache.Ready := by
    rw [cache_lookup, hcache]
    exact (RecentCache.ready_run hnew used).after (.lookup _)
  have htold : told.cache = probed.cache.keep t sent := probed.cache_broadcast t sent (some id)
  have hreadyTold : told.cache.Ready := htold ▸ hreadyProbed.keep t sent
  have hround : probed.GoneRound t sent (some id) (h.relayText t id user m).1 told := by
    rw [hrelay]
    exact probed.goneRound t sent (some id)
  have hkept : ∃ e, told.cache.peek (RecentCache.makeId s t.unix) = some e ∧
      e.id = RecentCache.makeId s t.unix := by
    rw [htold]
    exact hreadyProbed.peek_keep t sent
  have hrefreshed : told.cache.Refreshed t.ms (recentKeys t user) after.cache := by
    rw [hafter, cache_probeBack]
    exact hreadyTold.refreshed t.ms (recentKeys_nodup t user)
  have hsame : after.unprobed = told.unprobed := by
    rw [hafter]
    exact told.unprobed_probeBack t user recentWindow
  have hprobed : probed.unprobed = h.unprobed := h.unprobed_lookup _
  have hcounts : probed.cache =
      { h.cache with hits := probed.cache.hits, misses := probed.cache.misses } :=
    h.cache_lookup_eq _
  refine ⟨hprobed, hcounts, hround, hkept, hsame, hrefreshed, ?_⟩
  unfold after
  exact h.lookups_relayText t id user m

/-- Two have spoken a second ago. One of them speaks again, and gives no name. -/
theorem relayText_refreshes_own_traces_of_two_talkers :
    let new := RecentCache.empty 4
    let h : Hub :=
      { empty 4 with
        registry := [.arriving 0 1 "bob" none 2, .arriving 0 2 "ann" none 2].foldl
          Registry.insert .empty
        cache := new.run [.insert 0 "bob" "ho" 9, .insert 1 "ann" "hey" 9] }
    let m := Record.make .text "" "hi" 3
    let after := (h.relayText ⟨10, 5⟩ 1 "bob" m).2
    RecentCache.create 4 = .ok new ∧ "bob".utf8ByteSize ≤ maxSenderBytes ∧
      (h.relayText ⟨10, 5⟩ 1 "bob" m).1.failed = [] ∧
      ∃ e d, after.cache.peek "bob_9" = some e ∧ e.count = 2 ∧ after.cache.peek "ann_9" = some d ∧
        d.count = 1 ∧ d.seq < e.seq := by
  intro new h m after
  have hnew : RecentCache.create 4 = .ok new := rfl
  have huser : "bob".utf8ByteSize ≤ maxSenderBytes := by decide
  obtain ⟨-, -, hround, -, -, hrefreshed, -, -⟩ := relayText_refreshes_own_traces hnew
    [.insert 0 "bob" "ho" 9, .insert 1 "ann" "hey" 9] (h := h) rfl ⟨10, 5⟩ 1 huser m
  have hkey : "bob_9" ∈ recentKeys ⟨10, 5⟩ "bob" := by decide +kernel
  have hother : "ann_9" ∉ recentKeys ⟨10, 5⟩ "bob" := by decide +kernel
  obtain ⟨seq, hbob⟩ := hrefreshed.used "bob_9" hkey
    { id := "bob_9", content := "ho", sender := "bob", createdAt := 9, lastAccess := 0, seq := 1,
      count := 1, valid := true } (by decide +kernel)
  have hann : after.cache.peek "ann_9" = some
      { id := "ann_9", content := "hey", sender := "ann", createdAt := 9, lastAccess := 1, seq := 2,
        count := 1, valid := true } :=
    (hrefreshed.others "ann_9" (.inl hother)).trans (by decide +kernel)
  have hfailed : (h.relayText ⟨10, 5⟩ 1 "bob" m).1.failed = [] := by
    apply List.eq_nil_iff_forall_not_mem.mpr
    intro id hid
    obtain ⟨c, hc, -, -, -, hfull⟩ := (hround.failed_iff id).mp hid
    have hroom : ∀ c ∈ h.registry.clients, c.link.mailbox.hasRoom = true := by decide
    rw [hroom c hc] at hfull
    cases hfull
  exact ⟨hnew, huser, hfailed, _, _, hbob, rfl, hann, rfl,
    hrefreshed.newer "bob_9" hkey "ann_9" hother _ _ hbob hann⟩

/-- Two lines of one session, a second apart, carry a name that is not the session's. The first one
is there when the second has gone round, and is not refreshed. -/
theorem named_line_not_refreshed :
    let m := Record.make .text "ann" "hi" 3
    let h := (empty 4).run [.join ⟨10, 0⟩ 0 1 "bob" none 2, .relayText ⟨10, 5⟩ 1 "bob" m]
    let sent := { m with timestamp := 11 }
    let told := ((h.lookup (RecentCache.makeId "ann" (m.timestamp - probeOffset))).2.broadcast
      ⟨11, 6⟩ sent (some 1)).2
    let after := (h.relayText ⟨11, 6⟩ 1 "bob" m).2
    ∃ e, told.cache.peek (RecentCache.makeId "ann" (11 - 1)) = some e ∧ e.count = 1 ∧
      after.cache.peek (RecentCache.makeId "ann" (11 - 1)) = some e := by
  intro m h sent told after
  let e : CacheEntry :=
    { id := "ann_10", content := "hi", sender := "ann", createdAt := 10, lastAccess := 5, seq := 2,
      count := 1, valid := true }
  have htold : told.cache.peek (RecentCache.makeId "ann" (11 - 1)) = some e := by decide +kernel
  have hafter : after.cache.peek (RecentCache.makeId "ann" (11 - 1)) = some e := by decide +kernel
  exact ⟨e, htold, rfl, hafter⟩

end Hub

end ChatHub
