import ChatHub.Proofs.Hub.Relayed
import ChatHub.Proofs.RecentCache.Eviction
/-!
# What one message going round leaves behind

A message is handed out under the registry's lock, which reports who could not take it; these are
then retired one at a time, each time with the lock to be had again; and the cache remembers the
message. The two loops and what comes after them are put together here to one equation for the whole
hub (`broadcast_snd`), and read from it is what becomes of everybody: who gets the message, who is
taken off the round, and that nobody else notices anything (`GoneRound`).

What may be in the registry, in the rotation and in the books does not matter. The cache has to be
one that can come about, since in another the search for a slot may find none.
-/

namespace ChatHub

namespace Client

/-- The client with a message at the end of the queue. -/
def given (c : Client) (m : Record) : Client :=
  { c with
    link := { c.link with
      mailbox := { c.link.mailbox with queue := c.link.mailbox.queue ++ [m] } } }

/-- The client off the round, and the session told to end. -/
def takenOff (c : Client) : Client :=
  { c with active := false, link := { c.link with kill := c.link.kill.fire.2 } }

variable {c : Client} {excluding : Option Nat}

theorem afterRound_of_room (haud : Registry.isAudience excluding c = true)
    (hroom : c.link.mailbox.hasRoom = true) (m : Record) :
    c.afterRound m excluding = c.given m := by
  rw [afterRound, if_pos haud, deliver_fst, if_pos hroom, deliver_eq, if_pos hroom]
  rfl

theorem afterRound_of_full (haud : Registry.isAudience excluding c = true)
    (hfull : c.link.mailbox.hasRoom = false) (m : Record) :
    c.afterRound m excluding = c.takenOff := by
  rw [afterRound, if_pos haud, deliver_fst, hfull, if_neg Bool.false_ne_true]
  rfl

theorem afterRound_of_passed (haud : Registry.isAudience excluding c = false) (m : Record) :
    c.afterRound m excluding = c := by
  rw [afterRound, haud, if_neg Bool.false_ne_true]

end Client

/-! ## Who is reported -/

namespace Registry

/-- Those who could not take a message that goes round. -/
def losers (r : Registry) (m : Record) (excluding : Option Nat) : List Client :=
  (r.clients.filter (isAudience excluding)).filter fun c => !(c.deliver m).1

theorem failed_eq (r : Registry) (m : Record) (excluding : Option Nat) :
    (r.fanOut m excluding).1.failed = (r.losers m excluding).map (·.id) := rfl

theorem failed_ascending (r : Registry) (m : Record) (excluding : Option Nat) :
    (r.fanOut m excluding).1.failed.Pairwise (· < ·) :=
  List.pairwise_map.mpr ((r.ascending.filter _).filter _)

theorem mem_failed_iff {r : Registry} {m : Record} {excluding : Option Nat} {id : Nat} :
    id ∈ (r.fanOut m excluding).1.failed ↔
      ∃ c ∈ r.clients, c.id = id ∧ isAudience excluding c = true ∧
        c.link.mailbox.hasRoom = false := by
  constructor
  · intro h
    obtain ⟨c, hloser, rfl⟩ := List.mem_map.mp h
    have hc : c ∈ r.clients := (List.mem_filter.mp (List.mem_filter.mp hloser).1).1
    have hfailed := (mem_failed hc m excluding).mp h
    rw [Client.deliver_fst] at hfailed
    exact ⟨c, hc, rfl, hfailed⟩
  · rintro ⟨c, hc, rfl, hfailed⟩
    rw [← Client.deliver_fst c m] at hfailed
    exact (mem_failed hc m excluding).mpr hfailed

theorem delivered_add_failed (r : Registry) (m : Record) (excluding : Option Nat) :
    (r.fanOut m excluding).1.delivered + (r.fanOut m excluding).1.failed.length =
      (r.clients.filter (isAudience excluding)).length := by
  rw [failed_eq, List.length_map, losers, ← List.countP_eq_length_filter,
    List.length_eq_countP_add_countP fun c : Client => (c.deliver m).1]
  simp only [Bool.not_eq_true, Bool.decide_eq_false]
  rfl

end Registry

/-! ## The whole hub -/

namespace Hub

/-- The warnings about clients who are lost, one after the other. -/
def warningsAbout (r : Registry) (ids : List Nat) : List Warning :=
  ids.filterMap fun id => (r.find? id).map fun c => .clientLost c.user id

/-- A name is found as before whoever was retired. -/
theorem warningsAbout_retire (r : Registry) (id : Nat) (ids : List Nat) :
    warningsAbout (r.retire id).2 ids = warningsAbout r ids := by
  have hsame : ∀ other,
      ((r.retire id).2.find? other).map (fun c => Warning.clientLost c.user other) =
        (r.find? other).map fun c => .clientLost c.user other := by
    intro other
    show ((r.update id Client.retire Client.retire_id).find? other).map _ = _
    rw [Registry.find?_update, Option.map_map]
    refine congrArg (fun f => (r.find? other).map f) (funext fun c => ?_)
    by_cases hid : c.id = id
    · simp only [Function.comp_apply, if_pos hid]
      rfl
    · simp only [Function.comp_apply, if_neg hid]
  exact congrArg (fun f => ids.filterMap f) (funext hsame)

/-- The hub once some clients were retired whose delivery had failed. -/
def without (h : Hub) (ids : List Nat) : Hub :=
  { h with
    registry := ids.foldl (fun r id => (r.retire id).2) h.registry
    gauges := { h.gauges with failed := h.gauges.failed + ids.length }
    log := h.log ++ warningsAbout h.registry ids }

theorem lose_eq (h : Hub) (id : Nat) : h.lose id = h.without [id] := by
  unfold lose without warningsAbout
  cases hfound : h.registry.find? id with
  | none => simp [Registry.retire, hfound]
  | some c => simp [Registry.retire, hfound, warn]

theorem without_without (h : Hub) (id : Nat) (ids : List Nat) :
    (h.without [id]).without ids = h.without (id :: ids) := by
  have hlog : h.log ++ warningsAbout h.registry [id] ++ warningsAbout (h.registry.retire id).2 ids =
      h.log ++ warningsAbout h.registry (id :: ids) := by
    rw [warningsAbout_retire, List.append_assoc, warningsAbout, warningsAbout, warningsAbout,
      ← List.filterMap_append, List.singleton_append]
  have hgauges : h.gauges.failed + 1 + ids.length = h.gauges.failed + (id :: ids).length := by
    rw [List.length_cons, Nat.add_assoc, Nat.add_comm 1]
  show Hub.mk _ _ _ _ _ _ = Hub.mk _ _ _ _ _ _
  congr 1
  exact congrArg (fun failed => { h.gauges with failed }) hgauges

theorem foldl_lose (h : Hub) (ids : List Nat) : ids.foldl lose h = h.without ids := by
  induction ids generalizing h with
  | nil => simp [without, warningsAbout]
  | cons id ids ih => rw [List.foldl_cons, ih, lose_eq, without_without]

theorem warningsAbout_losers (r : Registry) (m : Record) (excluding : Option Nat) :
    warningsAbout (r.fanOut m excluding).2 (r.fanOut m excluding).1.failed =
      (r.losers m excluding).map fun c => .clientLost c.user c.id := by
  have hfound : ∀ c ∈ r.losers m excluding,
      ((r.fanOut m excluding).2.find? c.id).map (fun d => Warning.clientLost d.user c.id) =
        some (.clientLost c.user c.id) := by
    intro c hc
    have hmem : c ∈ r.clients := (List.mem_filter.mp (List.mem_filter.mp hc).1).1
    rw [Registry.fanOut, Registry.find?_mapClients, Registry.find?_of_mem hmem, Option.map_some,
      Option.map_some]
    split <;> rfl
  rw [Registry.failed_eq, warningsAbout, List.filterMap_map, ← List.filterMap_eq_map]
  exact List.filterMap_congr hfound

/-- One message going round, all in one. -/
theorem broadcast_snd (h : Hub) (t : Clock) (m : Record) (excluding : Option Nat) :
    (h.broadcast t m excluding).2 =
      { registry := h.registry.mapClients (Client.afterRound m excluding)
          (Client.afterRound_id m excluding)
        roster := h.roster
        cache := h.cache.keep t m
        tally := h.tally.addSent (h.registry.fanOut m excluding).1.delivered
        gauges :=
          { h.gauges with
            sent := h.gauges.sent + (h.registry.fanOut m excluding).1.delivered
            failed := h.gauges.failed + (h.registry.losers m excluding).length
            evictions := h.gauges.evictions + if (h.cache.insertion t.ms m.sender m.payload
              m.timestamp).1.evicted.isSome then 1 else 0 }
        log := h.log ++ (h.registry.losers m excluding).map fun c => .clientLost c.user c.id } := by
  unfold broadcast
  dsimp only
  rw [foldl_lose, Registry.failed_eq, ← warningsAbout_losers, ← Registry.fanOut_retire]
  simp only [without, remember, List.length_map]
  rfl

/-! ## What becomes of everybody -/

/-- What one message going round, with what is reported of it, makes of a hub. -/
structure GoneRound (h : Hub) (t : Clock) (m : Record) (excluding : Option Nat) (fan : FanOut)
    (after : Hub) : Prop where
  failed_ascending : fan.failed.Pairwise (· < ·)
  failed_iff : ∀ id, id ∈ fan.failed ↔ ∃ c ∈ h.registry.clients, c.id = id ∧
    c.active = true ∧ excluding ≠ some c.id ∧ c.link.mailbox.hasRoom = false
  everybody : fan.delivered + fan.failed.length =
    (h.registry.clients.filter fun c => c.active && excluding != some c.id).length
  ids : after.registry.ids = h.registry.ids
  reached : ∀ c ∈ h.registry.clients, c.active = true → excluding ≠ some c.id →
    c.link.mailbox.hasRoom = true → after.registry.find? c.id = some (c.given m)
  lost : ∀ c ∈ h.registry.clients, c.id ∈ fan.failed →
    after.registry.find? c.id = some c.takenOff
  passed : ∀ c ∈ h.registry.clients, c.active = false ∨ excluding = some c.id →
    after.registry.find? c.id = some c
  roster : after.roster = h.roster
  sent : after.tally.sent.toNat = (h.tally.sent.toNat + fan.delivered) % 2 ^ 64
  /-- No other total has changed. -/
  tally : after.tally = { h.tally with sent := after.tally.sent }
  /-- The cache has remembered the message, whoever got it. -/
  cache : after.cache = (h.cache.insert t.ms m.sender m.payload m.timestamp).2

theorem goneRound (h : Hub) (t : Clock) (m : Record) (excluding : Option Nat) :
    h.GoneRound t m excluding (h.broadcast t m excluding).1 (h.broadcast t m excluding).2 := by
  have hfind : ∀ c ∈ h.registry.clients,
      (h.broadcast t m excluding).2.registry.find? c.id = some (c.afterRound m excluding) := by
    intro c hc
    rw [registry_broadcast, Registry.find?_mapClients, Registry.find?_of_mem hc, Option.map_some]
  have hfan : (h.broadcast t m excluding).1 = (h.registry.fanOut m excluding).1 := rfl
  rw [hfan]
  constructor
  case failed_ascending => exact h.registry.failed_ascending m excluding
  case failed_iff =>
    intro id
    simp only [Registry.mem_failed_iff, Registry.isAudience_iff, and_assoc]
  case everybody => exact h.registry.delivered_add_failed m excluding
  case ids =>
    rw [registry_broadcast]
    show (h.registry.clients.map _).map _ = h.registry.clients.map _
    simp only [List.map_map, Function.comp_def, Client.afterRound_id]
  case reached =>
    intro c hc hactive hnot hroom
    rw [hfind c hc, Client.afterRound_of_room (Registry.isAudience_iff.mpr ⟨hactive, hnot⟩) hroom]
  case lost =>
    intro c hc hfailed
    obtain ⟨haud, hrefused⟩ := (Registry.mem_failed hc m excluding).mp hfailed
    rw [Client.deliver_fst] at hrefused
    rw [hfind c hc, Client.afterRound_of_full haud hrefused]
  case passed =>
    intro c hc hpassed
    have haud : Registry.isAudience excluding c = false := by
      rw [Bool.eq_false_iff, ne_eq, Registry.isAudience_iff]
      rintro ⟨hactive, hnot⟩
      rcases hpassed with hinactive | hexcluded
      · rw [hactive] at hinactive
        cases hinactive
      · exact hnot hexcluded
    rw [hfind c hc, Client.afterRound_of_passed haud]
  case roster => rw [broadcast_snd]
  case sent =>
    rw [broadcast_snd, Tally.addSent, UInt64.toNat_add, Nat.toUInt64, UInt64.toNat_ofNat']
    exact Nat.add_mod_mod ..
  case tally => rw [broadcast_snd, Tally.addSent]
  case cache => exact h.cache_broadcast t m excluding

end Hub

namespace RecentCache

/-- A cache that was made and used is fit for use. -/
theorem ready_run {capacity : Nat} {new : RecentCache} (hnew : create capacity = .ok new)
    (used : List CacheMove) : (new.run used).Ready := by
  unfold create at hnew
  by_cases hzero : capacity = 0
  · rw [if_pos hzero] at hnew
    cases hnew
  · rw [if_neg hzero] at hnew
    obtain rfl := Except.ok.inj hnew
    have hcap : 0 < (empty capacity).capacity := Nat.pos_of_ne_zero hzero
    obtain ⟨hkept, hcapacity⟩ := run_kept (Kept.empty capacity) hcap used
    exact ⟨hkept, hcapacity ▸ hcap⟩

/-- What was remembered is there. -/
theorem Ready.peek_keep {c : RecentCache} (h : c.Ready) (t : Clock) (m : Record) :
    ∃ e, (c.keep t m).peek (makeId m.sender m.timestamp) = some e ∧
      e.id = makeId m.sender m.timestamp := by
  have hsaid := h.kept.said_keep h.room t m
  obtain ⟨e, he, -⟩ := Option.map_eq_some_iff.mp hsaid
  exact ⟨e, he, ((h.keep t m).kept.peek_eq_some_iff.mp he).2⟩

end RecentCache

/-- **One message going round**, in any hub whose cache can come about: everybody who is active, is
not left out, and has room has it once more at the end of the queue; the ids of the others who are
active and not left out are reported, in order, and these are taken off the round and told to go;
and nobody else is touched. The totals grow by the copies that were made, and whatever failed, the
cache has the message under its key. -/
theorem Hub.broadcast_exact {capacity : Nat} {new : RecentCache}
    (hnew : RecentCache.create capacity = .ok new) (used : List CacheMove) {h : Hub}
    (hcache : h.cache = new.run used) (t : Clock) (m : Record) (excluding : Option Nat) :
    h.GoneRound t m excluding (h.broadcast t m excluding).1 (h.broadcast t m excluding).2 ∧
      ∃ e, (h.broadcast t m excluding).2.cache.peek (RecentCache.makeId m.sender m.timestamp) =
        some e ∧ e.id = RecentCache.makeId m.sender m.timestamp := by
  refine ⟨h.goneRound t m excluding, ?_⟩
  rw [Hub.cache_broadcast, hcache]
  exact (RecentCache.ready_run hnew used).peek_keep t m

/-- Of five clients one has room, one is inactive, one is full, one has hung up, and one is left
out. The cache has room for one message, and there is one in it. -/
theorem Hub.broadcast_exact_in_mixed_company :
    let ann : Client := .arriving 0 1 "ann" none 2
    let bob : Client := { Client.arriving 0 2 "bob" none 2 with active := false }
    let cid : Client := .arriving 0 3 "cid" none 0
    let dan : Client := (Client.arriving 0 4 "dan" none 2).farEnd .hangUp
    let eve : Client := .arriving 0 5 "eve" none 2
    let new := RecentCache.empty 1
    let h : Hub :=
      { empty 1 with
        registry := [ann, bob, cid, dan, eve].foldl Registry.insert .empty
        cache := new.run [.insert 0 "ann" "ho" 6] }
    let m := Record.make .text "eve" "hi" 7
    let fan := (h.broadcast ⟨8, 0⟩ m (some 5)).1
    let after := (h.broadcast ⟨8, 0⟩ m (some 5)).2
    RecentCache.create 1 = .ok new ∧ fan.failed = [3, 4] ∧ fan.delivered + fan.failed.length = 3 ∧
      after.registry.find? 1 = some (ann.given m) ∧ after.registry.find? 2 = some bob ∧
      after.registry.find? 3 = some cid.takenOff ∧ after.registry.find? 4 = some dan.takenOff ∧
      (after.registry.find? 3).map (·.link.kill.fired) = some true ∧
      (after.registry.find? 4).map (·.link.kill.fired) = some true ∧
      after.registry.find? 5 = some eve ∧ after.tally.sent.toNat = 1 ∧
      ∃ e, after.cache.peek "eve_7" = some e ∧ e.id = "eve_7" := by
  intro ann bob cid dan eve new h m fan after
  have hnew : RecentCache.create 1 = .ok new := rfl
  obtain ⟨hround, hcached⟩ :=
    broadcast_exact hnew [.insert 0 "ann" "ho" 6] (h := h) rfl ⟨8, 0⟩ m (some 5)
  have hfailed : fan.failed = [3, 4] := by decide +kernel
  have hdelivered : fan.delivered = 1 := by decide +kernel
  have hsent : after.tally.sent.toNat = (0 + fan.delivered) % 2 ^ 64 := hround.sent
  rw [hdelivered] at hsent
  have hkey : RecentCache.makeId m.sender m.timestamp = "eve_7" := by decide +kernel
  rw [hkey] at hcached
  have heverybody : fan.delivered + fan.failed.length = 3 := by rw [hdelivered, hfailed]; rfl
  have hlost : ∀ c ∈ h.registry.clients, c.id = 3 ∨ c.id = 4 →
      after.registry.find? c.id = some c.takenOff := by
    intro c hc hid
    apply hround.lost c hc
    show c.id ∈ fan.failed
    rw [hfailed]
    simpa using hid
  have hcid : after.registry.find? 3 = some cid.takenOff := hlost cid (by decide) (.inl rfl)
  have hdan : after.registry.find? 4 = some dan.takenOff := hlost dan (by decide) (.inr rfl)
  refine ⟨hnew, hfailed, heverybody, ?_, ?_, hcid, hdan, ?_, ?_, ?_, hsent, hcached⟩
  · exact hround.reached ann (by decide) rfl (by decide) rfl
  · exact hround.passed bob (by decide) (.inl rfl)
  · rw [hcid]
    rfl
  · rw [hdan]
    rfl
  · exact hround.passed eve (by decide) (.inr rfl)

end ChatHub
