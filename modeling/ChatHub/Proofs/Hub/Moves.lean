import ChatHub.Hub.Relay
import ChatHub.Proofs.Registry.Rounds
/-!
# What can happen around a hub

A `HubMove` is anything that can happen around a hub short of putting a record into the registry, or
a member into the rotation, behind the hub's back: somebody joins or leaves, a message goes round, a
record is booked, the totals are looked at, one client is written to, retired, told to end or
touched, a turn is given, the cache is used, and the far end of a link reads, hangs up or stops
listening. Theorems about runs of a hub quantify over lists of these.

Four of the moves send a message round. `HubMove.round?` gives the round of a move, with the hub as
it is at that moment, and `act_of_round` says that the move is this round with something before it
and something after it. All the rest of a move happens to one client or to everybody alike, so
`registry_act` can say for every move at once what becomes of the registry: whoever joins comes into
it, whoever leaves goes out of it, and everybody else undergoes `HubMove.effect`.
-/

namespace ChatHub

/-! ## Moves -/

/-- What the far end of a link can do. -/
inductive FarMove where
  /-- Reads up to `max` records. -/
  | read (max : Nat)
  /-- Stops reading. -/
  | hangUp
  /-- Stops listening for the signal. -/
  | deafen
  /-- Looks whether the signal came. -/
  | look
deriving Repr, DecidableEq

namespace FarMove

/-- What is left of the link. -/
def act (l : Link) : FarMove → Link
  | read max => { l with mailbox := (l.mailbox.take max).2 }
  | hangUp => { l with mailbox := l.mailbox.hangUp }
  | deafen => { l with kill := l.kill.deafen }
  | look => { l with kill := l.kill.look.2 }

/-- The records that are read. -/
def got (l : Link) : FarMove → List Record
  | read max => (l.mailbox.take max).1
  | _ => []

end FarMove

def Client.farEnd (c : Client) (φ : FarMove) : Client := { c with link := φ.act c.link }

/-- Something that can happen around a hub. -/
inductive HubMove where
  | join (t : Clock) (now id : Nat) (user : String) (addr : Option String) (capacity : Nat)
  | leave (t : Clock) (id : Nat) (user : String)
  | broadcast (t : Clock) (m : Record) (excluding : Option Nat)
  | relayText (t : Clock) (id : Nat) (user : String) (m : Record)
  | recordReceived (t : Clock) (id : Nat)
  | refreshTally
  | report
  | replyStatus (t : Clock) (id : Nat)
  | nextTurn (t : Clock)
  | sendTo (id : Nat) (m : Record)
  | retire (id : Nat)
  | retireAll
  | signal (id : Nat)
  | touch (now id : Nat)
  | lookup (id : String)
  | remember (t : Clock) (sender content : String) (timestamp : Int64)
  | refresh (t : Clock) (id : String)
  | forget
  | far (id : Nat) (φ : FarMove)
deriving Repr, DecidableEq

namespace Hub

def act (h : Hub) : HubMove → Hub
  | .join t now id user addr capacity => h.join t (.arriving now id user addr capacity)
  | .leave t id user => (h.leave t id user).2
  | .broadcast t m excluding => (h.broadcast t m excluding).2
  | .relayText t id user m => (h.relayText t id user m).2
  | .recordReceived t id => h.recordReceived t id
  | .refreshTally => h.refreshTally
  | .report => h.report.2
  | .replyStatus t id => (h.replyStatus t id).2
  | .nextTurn t => (h.nextTurn t).2
  | .sendTo id m => { h with registry := (h.registry.sendTo id m).2 }
  | .retire id => { h with registry := (h.registry.retire id).2 }
  | .retireAll => { h with registry := h.registry.retireAll.2 }
  | .signal id => { h with registry := (h.registry.signal id).2 }
  | .touch now id => { h with registry := h.registry.touch now id }
  | .lookup id => (h.lookup id).2
  | .remember t sender content timestamp => (h.remember t sender content timestamp).2
  | .refresh t id => h.refresh t id
  | .forget => h.forget
  | .far id φ => { h with registry := h.registry.update id (·.farEnd φ) fun _ => rfl }

def run (h : Hub) (μs : List HubMove) : Hub := μs.foldl act h

/-- A hub at the beginning: nobody is there and nothing was said. -/
def empty (cacheCapacity : Nat) : Hub :=
  { registry := .empty, roster := .empty, cache := .empty cacheCapacity, tally := .zero,
    gauges := .zero, log := [] }

theorem eq_empty_of_create {capacity quantum : Nat} {h : Hub}
    (hh : create capacity quantum = .ok h) : h = empty capacity := by
  unfold create RecentCache.create Roster.create at hh
  by_cases hc : capacity = 0
  · rw [if_pos hc] at hh
    cases hh
  · by_cases hq : quantum = 0
    · rw [if_neg hc, if_pos hq] at hh
      cases hh
    · rw [if_neg hc, if_neg hq] at hh
      exact (Except.ok.inj hh).symm

theorem create_eq_empty {capacity quantum : Nat} (hcapacity : capacity ≠ 0)
    (hquantum : quantum ≠ 0) : create capacity quantum = .ok (empty capacity) := by
  unfold create RecentCache.create Roster.create
  rw [if_neg hcapacity, if_neg hquantum]
  rfl

/-! ## Rounds -/

/-- Somebody has come, and nobody has been told yet. -/
def welcome (h : Hub) (c : Client) : Hub :=
  (enrol
    { h with
      registry := h.registry.insert c
      tally := h.tally.clientCame
      gauges := { h.gauges with connected := h.gauges.connected + 1 } } c.id c.user).2

/-- Somebody has gone, and nobody has been told yet. -/
def dismiss (h : Hub) (id : Nat) : Hub :=
  let h := (h.strike id).2
  let (gone, registry) := h.registry.remove id
  if gone.isSome then
    { h with
      registry
      tally := h.tally.clientWent
      gauges := { h.gauges with connected := h.gauges.connected - 1 } }
  else h

theorem join_eq (h : Hub) (t : Clock) (c : Client) :
    h.join t c = ((h.welcome c).broadcast t (Record.joinNotice c.user t.unix) (some c.id)).2 := rfl

theorem leave_eq (h : Hub) (t : Clock) (id : Nat) (user : String) :
    (h.leave t id user).2 =
      ((h.dismiss id).broadcast t (Record.leaveNotice user t.unix) none).2 := by
  simp only [leave, dismiss]

end Hub

/-- A message that goes round: where, when, what, and who is left out. -/
structure Round where
  hub : Hub
  clock : Clock
  record : Record
  excluding : Option Nat

def Round.outcome (ρ : Round) : FanOut × Hub := ρ.hub.broadcast ρ.clock ρ.record ρ.excluding

namespace HubMove

/-- The round that a move makes, if it makes one. -/
def round? (h : Hub) : HubMove → Option Round
  | join t now id user addr capacity =>
    some ⟨h.welcome (.arriving now id user addr capacity), t, .joinNotice user t.unix, some id⟩
  | leave t id user => some ⟨h.dismiss id, t, .leaveNotice user t.unix, none⟩
  | broadcast t m excluding => some ⟨h, t, m, excluding⟩
  | relayText t id user m =>
    let m := Hub.signed user m
    some
      ⟨(h.lookup (RecentCache.makeId m.sender (m.timestamp - Hub.probeOffset))).2, t,
        { m with timestamp := t.unix }, some id⟩
  | _ => none

/-- What a move does once its round is made. -/
def afterwards (h : Hub) : HubMove → Hub
  | relayText t _ user _ =>
    Hub.recentWindow.foldl
      (fun h back => h.probeRecent t (RecentCache.makeId user (t.unix - back))) h
  | _ => h

/-- A move with a round is that round and what it does afterwards. -/
theorem act_of_round {h : Hub} {μ : HubMove} {ρ : Round} (hρ : μ.round? h = some ρ) :
    h.act μ = μ.afterwards ρ.outcome.2 := by
  cases μ with
  | join t now id user addr capacity =>
    cases hρ
    exact h.join_eq t _
  | leave t id user =>
    cases hρ
    exact h.leave_eq t id user
  | broadcast t m excluding =>
    cases hρ
    rfl
  | relayText t id user m =>
    cases hρ
    simp only [Hub.act, Hub.relayText_eq, afterwards, Round.outcome]
  | _ => cases hρ

end HubMove

/-! ## The registry after a move -/

namespace Hub

@[simp] theorem registry_enrol (h : Hub) (id : Nat) (user : String) :
    (h.enrol id user).2.registry = h.registry := by
  unfold enrol
  rcases h.roster.add id user with ⟨added, roster⟩
  cases added <;> rfl

@[simp] theorem registry_strike (h : Hub) (id : Nat) : (h.strike id).2.registry = h.registry := by
  unfold strike
  rcases h.roster.remove id with ⟨removed, roster⟩
  cases removed <;> rfl

@[simp] theorem registry_welcome (h : Hub) (c : Client) :
    (h.welcome c).registry = h.registry.insert c :=
  registry_enrol _ c.id c.user

theorem dismiss_of_present {h : Hub} {id : Nat} {c : Client} (hc : h.registry.find? id = some c) :
    h.dismiss id =
      { (h.strike id).2 with
        registry := (h.registry.remove id).2
        tally := (h.strike id).2.tally.clientWent
        gauges := { (h.strike id).2.gauges with
          connected := (h.strike id).2.gauges.connected - 1 } } := by
  have hgone : (h.registry.remove id).1.isSome = true := by
    show (h.registry.find? id).isSome = true
    rw [hc]
    rfl
  simp only [dismiss, registry_strike, hgone, if_true]

theorem dismiss_of_absent {h : Hub} {id : Nat} (hid : h.registry.find? id = none) :
    h.dismiss id = (h.strike id).2 := by
  have hgone : (h.registry.remove id).1.isSome = false := by
    show (h.registry.find? id).isSome = false
    rw [hid]
    rfl
  simp only [dismiss, registry_strike, hgone, Bool.false_eq_true, if_false]

@[simp] theorem registry_dismiss (h : Hub) (id : Nat) :
    (h.dismiss id).registry = (h.registry.remove id).2 := by
  cases hgone : h.registry.find? id with
  | some c => rw [dismiss_of_present hgone]
  | none =>
    rw [dismiss_of_absent hgone, registry_strike, Registry.remove_of_absent hgone]

theorem registry_lose (h : Hub) (id : Nat) : (h.lose id).registry = (h.registry.retire id).2 := by
  unfold lose
  cases hu : (h.registry.find? id).map (·.user) <;> simp only [Registry.retire, hu, warn]

/-- Whatever is not touched when one delivery fails is not touched when several do. -/
theorem foldl_lose_eq {α : Type} {f : Hub → α} (hf : ∀ h id, f (lose h id) = f h) (h : Hub)
    (ids : List Nat) : f (ids.foldl lose h) = f h := by
  induction ids generalizing h with
  | nil => rfl
  | cons id ids ih => exact (ih (lose h id)).trans (hf h id)

theorem registry_foldl_lose (h : Hub) (ids : List Nat) :
    (ids.foldl lose h).registry = ids.foldl (fun r id => (r.retire id).2) h.registry := by
  induction ids generalizing h with
  | nil => rfl
  | cons id ids ih => rw [List.foldl_cons, List.foldl_cons, ih, registry_lose]

@[simp] theorem registry_broadcast (h : Hub) (t : Clock) (m : Record) (excluding : Option Nat) :
    (h.broadcast t m excluding).2.registry =
      h.registry.mapClients (Client.afterRound m excluding) (Client.afterRound_id m excluding) := by
  rw [← Registry.fanOut_retire]
  exact registry_foldl_lose _ _

@[simp] theorem registry_probeRecent (h : Hub) (t : Clock) (id : String) :
    (h.probeRecent t id).registry = h.registry := by
  show (if (h.lookup id).1.isSome then (h.lookup id).2.refresh t id else (h.lookup id).2).registry =
    h.registry
  split <;> rfl

/-- The status reply as it is sent. -/
def statusReply (h : Hub) (t : Clock) : Record :=
  Record.make .text serverName h.report.1 t.unix

end Hub

namespace HubMove

@[simp] theorem registry_afterwards (h : Hub) (μ : HubMove) :
    (μ.afterwards h).registry = h.registry := by
  cases μ with
  | relayText t id user m =>
    show ((((h.probeRecent t _).probeRecent t _).probeRecent t _)).registry = h.registry
    simp only [Hub.registry_probeRecent]
  | _ => rfl

/-- The registry once whoever joins by a move is in it and whoever leaves by it is not. -/
def seated (r : Registry) : HubMove → Registry
  | join _ now id user addr capacity => r.insert (.arriving now id user addr capacity)
  | leave _ id _ => (r.remove id).2
  | _ => r

theorem registry_round {h : Hub} {μ : HubMove} {ρ : Round} (hρ : μ.round? h = some ρ) :
    ρ.hub.registry = μ.seated h.registry := by
  cases μ <;> cases hρ
  · exact h.registry_welcome _
  · exact h.registry_dismiss _
  · rfl
  · rfl

/-- What a move without a round does to a client. -/
def errand (h : Hub) (c : Client) : HubMove → Client
  | recordReceived t id => if c.id = id then { c with lastActive := t.ms } else c
  | replyStatus t id => if c.id = id then (c.deliver (h.statusReply t)).2 else c
  | sendTo id m => if c.id = id then (c.deliver m).2 else c
  | retire id => if c.id = id then c.retire else c
  | retireAll => if c.active then c.retire else c
  | signal id => if c.id = id then c.signal.2 else c
  | touch now id => if c.id = id then { c with lastActive := now } else c
  | far id φ => if c.id = id then c.farEnd φ else c
  | _ => c

/-- What a move does to a client who is there when it is made. -/
def effect (h : Hub) (μ : HubMove) (c : Client) : Client :=
  match μ.round? h with
  | some ρ => c.afterRound ρ.record ρ.excluding
  | none => μ.errand h c

theorem errand_id (h : Hub) (μ : HubMove) (c : Client) : (μ.errand h c).id = c.id := by
  unfold errand
  split <;> first | rfl | (split <;> rfl)

theorem errand_user (h : Hub) (μ : HubMove) (c : Client) : (μ.errand h c).user = c.user := by
  unfold errand
  split <;> first | rfl | (split <;> rfl)

@[simp] theorem effect_id (h : Hub) (μ : HubMove) (c : Client) : (μ.effect h c).id = c.id := by
  unfold effect
  split
  · exact Client.afterRound_id _ _ c
  · exact μ.errand_id h c

@[simp] theorem effect_user (h : Hub) (μ : HubMove) (c : Client) :
    (μ.effect h c).user = c.user := by
  unfold effect
  split
  · exact Client.afterRound_user _ _ c
  · exact μ.errand_user h c

/-- The registry after a move: whoever comes is in it, whoever goes is not, and the move has its
effect on everybody. -/
theorem registry_act (h : Hub) (μ : HubMove) :
    (h.act μ).registry = (μ.seated h.registry).mapClients (μ.effect h) (μ.effect_id h) := by
  cases hρ : μ.round? h with
  | some ρ =>
    -- Nothing after the round comes near the registry, and what was before it has seated everybody.
    rw [act_of_round hρ, registry_afterwards, Round.outcome, Hub.registry_broadcast,
      registry_round hρ]
    refine Registry.ext_clients (List.map_congr_left fun c _ => ?_)
    simp only [effect, hρ]
  | none =>
    cases μ <;> first | (cases hρ; done) | skip
    all_goals first | rfl | exact Registry.ext_clients (List.map_id _).symm

theorem find?_act (h : Hub) (μ : HubMove) (id : Nat) :
    (h.act μ).registry.find? id = ((μ.seated h.registry).find? id).map (μ.effect h) := by
  rw [registry_act, Registry.find?_mapClients]

end HubMove

/-! ## Dealing with a record -/

namespace Hub

/-- The moves that dealing with a record from a session comes to: it is booked, and then it goes
round, or is answered, or that is all. -/
def dealings (t : Clock) (limit id : Nat) (user : String) (m : Record) : List HubMove :=
  .recordReceived t id ::
    match m.kind with
    | .text => [.relayText t id user (limited limit m)]
    | .status => [.replyStatus t id, .report]
    | _ => []

theorem dispatch_eq_run (h : Hub) (t : Clock) (limit id : Nat) (user : String) (m : Record) :
    h.dispatch t limit id user m = h.run (dealings t limit id user m) := by
  unfold dealings
  cases hkind : m.kind with
  | text => exact dispatch_of_text h t limit id user hkind
  | status => exact dispatch_of_status h t limit id user hkind
  | _ => exact dispatch_of_other h t limit id user (hkind ▸ nofun) (hkind ▸ nofun)

end Hub

end ChatHub
