import Mathlib.Data.List.Induction
import ChatHub.Proofs.Hub.Exchange
/-!
# Nobody is retired in silence

Whoever is inactive is passed over by every round, and by `retireAll` too. If such a session had not
been told to end, nothing would ever tell it, and it would keep its worker for good. So the flag and
the signal have to go together, whichever way a client is retired.

They do because there is only one way: `Client.retire` sets both. A move finds an active client and
leaves them active, or retires them (`RawMove.active_or_retired`); a client who comes is active; and
nothing makes an inactive client active again. That the signal was given is not a matter of the
state, since a session takes its signal away when it looks, so it is read off the run: at one of its
moves, with the record in its place ever since, the switch was fired (`SignalledSince`). Whether a
move fires a switch is seen by arming the switch first (`RawMove.Fires`).

The moves are those around a hub and those on the registry behind the hub's back. A round may be
interrupted after the message was handed out and before anybody was retired for it; with `fanOut`
and `retire` as moves of their own, what happens in between is just another run.
-/

namespace ChatHub

/-- Something that can happen around a hub, or to its registry alone. -/
inductive RawMove where
  | around (μ : HubMove)
  /-- Puts a record into the registry. A record is active when it is made. -/
  | insert (c : Client) (fresh : c.active = true)
  | remove (id : Nat)
  /-- Hands a message out, and retires nobody. -/
  | fanOut (m : Record) (excluding : Option Nat)

namespace Hub

def actRaw (h : Hub) : RawMove → Hub
  | .around μ => h.act μ
  | .insert c _ => { h with registry := h.registry.insert c }
  | .remove id => { h with registry := (h.registry.remove id).2 }
  | .fanOut m excluding => { h with registry := (h.registry.fanOut m excluding).2 }

def runRaw (h : Hub) (δs : List RawMove) : Hub := δs.foldl actRaw h

theorem runRaw_snoc (h : Hub) (δs : List RawMove) (δ : RawMove) :
    h.runRaw (δs ++ [δ]) = (h.runRaw δs).actRaw δ := by
  rw [runRaw, List.foldl_append]
  rfl

/-- The hub with a session at the switch of an id that has not been told anything. -/
def rearm (h : Hub) (id : Nat) : Hub :=
  { h with
    registry := h.registry.update id (fun c => { c with link.kill := .armed }) fun _ => rfl }

end Hub

/-! ## One move -/

namespace RawMove

/-- The id whose record a move takes out of the registry, if there is one under it. -/
def vacates : RawMove → Option Nat
  | around μ => μ.vacates
  | insert c _ => some c.id
  | remove id => some id
  | fanOut .. => none

/-- The registry once whoever comes by a move is in it and whoever goes by it is not. -/
def seated (r : Registry) : RawMove → Registry
  | around μ => μ.seated r
  | insert c _ => r.insert c
  | remove id => (r.remove id).2
  | fanOut .. => r

/-- What a move does to a client who is there when it is made. -/
def effect (h : Hub) : RawMove → Client → Client
  | around μ, c => μ.effect h c
  | fanOut m excluding, c => if Registry.isAudience excluding c then (c.deliver m).2 else c
  | _, c => c

/-- A move fires the switch of an id: were it armed, it would be found fired. -/
def Fires (h : Hub) (id : Nat) (δ : RawMove) : Prop :=
  ∃ c, ((h.rearm id).actRaw δ).registry.find? id = some c ∧ c.link.kill.fired = true

variable {h : Hub} {δ : RawMove} {id : Nat} {c : Client}

theorem find?_actRaw (h : Hub) (δ : RawMove) (id : Nat) :
    (h.actRaw δ).registry.find? id = ((δ.seated h.registry).find? id).map (δ.effect h) := by
  cases δ with
  | around μ => exact μ.find?_act h id
  | insert c fresh => exact Option.map_id'.symm
  | remove gone => exact Option.map_id'.symm
  | fanOut m excluding => exact Registry.find?_mapClients _ _ (fun c => by split <;> rfl) id

/-- Whoever neither goes nor is replaced is found again, as the move has left them. -/
theorem find?_actRaw_of_stays (h : Hub) (hid : δ.vacates ≠ some id) :
    (h.actRaw δ).registry.find? id = (h.registry.find? id).map (δ.effect h) := by
  have hseated : (δ.seated h.registry).find? id = h.registry.find? id := by
    cases δ with
    | around μ => exact μ.find?_seated _ hid
    | insert c fresh =>
      show (h.registry.insert c).find? id = _
      rw [Registry.find?_insert, if_neg fun he => hid (congrArg some he)]
    | remove gone =>
      show (h.registry.remove gone).2.find? id = _
      rw [Registry.find?_remove, if_neg fun he => hid (congrArg some he.symm)]
    | fanOut m excluding => rfl
  rw [find?_actRaw, hseated]

/-! ## How a client becomes inactive -/

theorem afterRound_active_or_retired (m : Record) (excluding : Option Nat) (hc : c.active = true) :
    (c.afterRound m excluding).active = true ∨ c.afterRound m excluding = c.retire := by
  rcases c.afterRound_cases m excluding with ⟨-, heq⟩ | ⟨-, -, heq⟩ | ⟨-, -, heq⟩
  · rw [heq]
    exact .inl hc
  · rw [heq]
    exact .inl hc
  · exact .inr heq

theorem errand_active_or_retired (h : Hub) (μ : HubMove) (hc : c.active = true) :
    (μ.errand h c).active = true ∨ μ.errand h c = c.retire := by
  cases μ with
  | retire other =>
    simp only [HubMove.errand]
    split
    · exact .inr rfl
    · exact .inl hc
  | retireAll => exact .inr (if_pos hc)
  | recordReceived | replyStatus | sendTo | signal | touch | far =>
    simp only [HubMove.errand]
    split <;> exact .inl hc
  | _ => exact .inl hc

/-- A move leaves an active client active, or retires them. -/
theorem active_or_retired (h : Hub) (δ : RawMove) (hc : c.active = true) :
    (δ.effect h c).active = true ∨ δ.effect h c = c.retire := by
  cases δ with
  | around μ =>
    show (μ.effect h c).active = true ∨ μ.effect h c = c.retire
    unfold HubMove.effect
    split
    · exact afterRound_active_or_retired _ _ hc
    · exact errand_active_or_retired h μ hc
  | insert d fresh => exact .inl hc
  | remove gone => exact .inl hc
  | fanOut m excluding =>
    refine .inl ?_
    simp only [effect]
    split <;> exact hc

/-- Nothing makes an inactive client active again. -/
theorem inactive_effect (h : Hub) (δ : RawMove) (hc : c.active = false) :
    (δ.effect h c).active = false := by
  have haud : ∀ excluding, Registry.isAudience excluding c = false := fun excluding => by
    simp [Registry.isAudience, hc]
  cases δ with
  | around μ =>
    show (μ.effect h c).active = false
    unfold HubMove.effect
    split
    · rename_i ρ _
      rw [Client.afterRound, haud]
      exact hc
    · cases μ with
      | retireAll =>
        simp only [HubMove.errand, hc, Bool.false_eq_true, if_false]
      | recordReceived | replyStatus | sendTo | retire | signal | touch | far =>
        simp only [HubMove.errand]
        split <;> first | exact hc | rfl
      | _ => exact hc
  | insert d fresh => exact hc
  | remove gone => exact hc
  | fanOut m excluding =>
    simp only [effect, haud]
    exact hc

/-- Whoever comes is active when the move is over. -/
theorem active_of_arrives (hid : δ.vacates = some id)
    (hfound : (h.actRaw δ).registry.find? id = some c) : c.active = true := by
  rw [find?_actRaw, Option.map_eq_some_iff] at hfound
  obtain ⟨d, hd, rfl⟩ := hfound
  cases δ with
  | around μ =>
    cases μ with
    | join t now joining user addr capacity =>
      obtain rfl := Option.some.inj hid
      change (h.registry.insert _).find? joining = some d at hd
      rw [Registry.find?_insert] at hd
      obtain rfl := Option.some.inj ((if_pos rfl).symm.trans hd)
      -- The notice goes to everybody else, so it cannot fail on whoever has just come.
      have haud : Registry.isAudience (some joining)
          (.arriving now joining user addr capacity) = false := by
        simp [Registry.isAudience, Client.arriving]
      show (Client.afterRound _ (some joining) _).active = true
      rw [Client.afterRound, haud]
      rfl
    | leave t leaving user =>
      obtain rfl := Option.some.inj hid
      change (h.registry.remove leaving).2.find? leaving = some d at hd
      rw [Registry.find?_remove, if_pos rfl] at hd
      cases hd
    | _ => cases hid
  | insert e fresh =>
    obtain rfl := Option.some.inj hid
    change (h.registry.insert e).find? e.id = some d at hd
    rw [Registry.find?_insert, if_pos rfl] at hd
    obtain rfl := Option.some.inj hd
    exact fresh
  | remove gone =>
    obtain rfl := Option.some.inj hid
    change (h.registry.remove gone).2.find? gone = some d at hd
    rw [Registry.find?_remove, if_pos rfl] at hd
    cases hd
  | fanOut m excluding => cases hid

/-! ## What the switch has to do with it -/

/-- What a session listens to makes no difference to who is retired. -/
theorem active_effect_rearm (h : Hub) (δ : RawMove) (id : Nat) (c : Client) :
    (δ.effect (h.rearm id) { c with link.kill := .armed }).active = (δ.effect h c).active := by
  have hround : ∀ m excluding,
      (Client.afterRound m excluding { c with link.kill := .armed }).active =
        (c.afterRound m excluding).active := by
    intro m excluding
    show (if Registry.isAudience excluding c then
      if (c.deliver m).1 then (Client.deliver _ m).2 else Client.retire _ else _).active = _
    unfold Client.afterRound
    split
    · split <;> rfl
    · rfl
  cases δ with
  | around μ =>
    cases μ with
    | join | leave | broadcast | relayText => exact hround _ _
    | replyStatus t asking =>
      simp only [effect, HubMove.effect, HubMove.round?, HubMove.errand]
      split
      · rw [Client.deliver_active, Client.deliver_active]
      · rfl
    | recordReceived | sendTo | retire | retireAll | signal | touch | far =>
      simp only [effect, HubMove.effect, HubMove.round?, HubMove.errand]
      split <;> rfl
    | _ => rfl
  | insert d fresh => rfl
  | remove gone => rfl
  | fanOut m excluding =>
    show (if Registry.isAudience excluding c then (Client.deliver _ m).2 else _).active =
      (if Registry.isAudience excluding c then (c.deliver m).2 else c).active
    split <;> rfl

/-- Whoever is retired by a move has their switch fired by it. -/
theorem fires_of_retired (hc : h.registry.find? id = some c) (hid : δ.vacates ≠ some id)
    (hactive : c.active = true) (hretired : (δ.effect h c).active = false) : δ.Fires h id := by
  let armed : Client := { c with link.kill := .armed }
  have hrearmed : (h.rearm id).registry.find? id = some armed := by
    rw [Hub.rearm, Registry.update, Registry.find?_mapClients, hc, Option.map_some,
      if_pos (Registry.find?_some hc).2]
  refine ⟨δ.effect (h.rearm id) armed, ?_, ?_⟩
  · rw [find?_actRaw_of_stays _ hid, hrearmed]
    rfl
  · rcases active_or_retired (h.rearm id) δ (c := armed) hactive with hstill | heq
    · rw [active_effect_rearm, hretired] at hstill
      cases hstill
    · rw [heq]
      rfl

end RawMove

/-! ## All moves -/

namespace Hub

variable {start h : Hub} {δs : List RawMove} {δ : RawMove} {id : Nat} {c : Client}

/-- One of the moves of a run fired the switch of an id, and since then no record came or went under
that id. -/
def SignalledSince (start : Hub) (δs : List RawMove) (id : Nat) : Prop :=
  ∃ before δ after, δs = before ++ δ :: after ∧ δ.Fires (start.runRaw before) id ∧
    ∀ ν ∈ δ :: after, ν.vacates ≠ some id

theorem SignalledSince.snoc (hs : start.SignalledSince δs id) (hid : δ.vacates ≠ some id) :
    start.SignalledSince (δs ++ [δ]) id := by
  obtain ⟨before, fired, after, rfl, hfires, hstays⟩ := hs
  refine ⟨before, fired, after ++ [δ], by rw [List.append_assoc, List.cons_append], hfires, ?_⟩
  intro ν hν
  rw [← List.cons_append, List.mem_append, List.mem_singleton] at hν
  rcases hν with hν | rfl
  · exact hstays ν hν
  · exact hid

theorem signalledSince_of_inactive (hnobody : start.registry = .empty) (δs : List RawMove)
    (hc : (start.runRaw δs).registry.find? id = some c) (hinactive : c.active = false) :
    start.SignalledSince δs id := by
  induction δs using List.reverseRecOn generalizing c with
  | nil =>
    change start.registry.find? id = some c at hc
    rw [hnobody] at hc
    cases hc
  | append_singleton δs δ ih =>
    rw [runRaw_snoc] at hc
    by_cases hid : δ.vacates = some id
    · have hactive := RawMove.active_of_arrives hid hc
      rw [hinactive] at hactive
      cases hactive
    rw [RawMove.find?_actRaw_of_stays _ hid, Option.map_eq_some_iff] at hc
    obtain ⟨d, hd, rfl⟩ := hc
    cases hactive : d.active with
    | false => exact (ih hd hactive).snoc hid
    | true =>
      -- This is the move that retired the client.
      have hfires := RawMove.fires_of_retired hd hid hactive hinactive
      refine ⟨δs, δ, [], rfl, hfires, fun ν hν => ?_⟩
      rw [List.mem_singleton.1 hν]
      exact hid

theorem inactive_runRaw (hc : h.registry.find? id = some c) (hinactive : c.active = false)
    (hstays : ∀ ν ∈ δs, ν.vacates ≠ some id) :
    ∃ d, (h.runRaw δs).registry.find? id = some d ∧ d.active = false := by
  induction δs generalizing h c with
  | nil => exact ⟨c, hc, hinactive⟩
  | cons δ δs ih =>
    have hnext : (h.actRaw δ).registry.find? id = some (δ.effect h c) := by
      rw [RawMove.find?_actRaw_of_stays h (hstays δ List.mem_cons_self), hc]
      rfl
    exact ih hnext (RawMove.inactive_effect h δ hinactive)
      fun ν hν => hstays ν (List.mem_cons_of_mem _ hν)

theorem inactive_of_retireAll (r : Registry) : ∀ c ∈ r.retireAll.2.clients, c.active = false := by
  intro c hc
  obtain ⟨d, -, rfl⟩ := List.mem_map.1 hc
  split
  · rfl
  · rename_i hd
    exact Bool.eq_false_iff.2 hd

/-- **Whoever is inactive has been told to go.** In every state that joins, departures, rounds,
replies and operations on the registry lead to, in any order: the switch of every inactive client
has been fired since their record came, and as long as the record stays, the client stays inactive.
Retiring everybody gives the number of those who were active, and leaves nobody who is active or has
not been told. -/
theorem inactive_signalled {capacity quantum : Nat}
    (hstart : create capacity quantum = .ok start) (δs : List RawMove) :
    let h := start.runRaw δs
    let δs' := δs ++ [.around .retireAll]
    (∀ c ∈ h.registry.clients, c.active = false →
      start.SignalledSince δs c.id ∧
      ∀ later : List RawMove, (∀ ν ∈ later, ν.vacates ≠ some c.id) →
        ∃ d, (h.runRaw later).registry.find? c.id = some d ∧ d.active = false) ∧
      h.registry.retireAll.1 = h.registry.clients.countP (·.active) ∧
      (start.runRaw δs').registry = h.registry.retireAll.2 ∧
      ∀ c ∈ (start.runRaw δs').registry.clients,
        c.active = false ∧ start.SignalledSince δs' c.id := by
  intro h δs'
  have hnobody : start.registry = .empty := by
    rw [eq_empty_of_create hstart]
    rfl
  have hretired : (start.runRaw δs').registry = h.registry.retireAll.2 := by
    rw [runRaw_snoc]
    rfl
  refine ⟨fun c hc hinactive => ⟨?_, fun later hstays => ?_⟩, rfl, hretired, fun c hc => ?_⟩
  · exact signalledSince_of_inactive hnobody δs (Registry.find?_of_mem hc) hinactive
  · exact inactive_runRaw (Registry.find?_of_mem hc) hinactive hstays
  · have hinactive : c.active = false := inactive_of_retireAll h.registry c (hretired ▸ hc)
    exact ⟨hinactive,
      signalledSince_of_inactive hnobody δs' (Registry.find?_of_mem hc) hinactive⟩

/-- A message is handed out and two clients cannot take it. One of them is retired for it and looks;
the other is retired by a later round, and then somebody else comes under the same id. A third does
not listen when everybody is retired. -/
theorem inactive_signalled_amid_replacement :
    let m := Record.make .text "eve" "hi" 7
    let δs : List RawMove :=
      [.around (.join ⟨1, 0⟩ 0 1 "ann" none 1), .insert (.arriving 0 2 "bob" none 1) rfl,
        .insert (.arriving 0 3 "eve" none 4) rfl, .around (.far 3 .deafen), .fanOut m (some 3),
        .fanOut m none, .around (.retire 1), .around (.far 1 .look),
        .around (.broadcast ⟨2, 0⟩ m (some 3)), .insert (.arriving 5 2 "dan" none 2) rfl]
    let later : List RawMove :=
      [.around (.touch 9 1), .around (.sendTo 1 m), .around (.relayText ⟨3, 0⟩ 3 "eve" m),
        .remove 2]
    ∃ start, create 4 100 = .ok start ∧
      (start.runRaw δs).registry.clients.map (fun c => (c.id, c.user, c.active)) =
        [(1, "ann", false), (2, "dan", true), (3, "eve", true)] ∧
      start.SignalledSince δs 1 ∧
      (∃ d, ((start.runRaw δs).runRaw later).registry.find? 1 = some d ∧ d.active = false) ∧
      (start.runRaw δs).registry.retireAll.1 = 2 ∧
      ∀ id ∈ [1, 2, 3], start.SignalledSince (δs ++ [.around .retireAll]) id := by
  intro m δs later
  obtain ⟨start, hstart⟩ : ∃ start, create 4 100 = .ok start := ⟨_, rfl⟩
  obtain ⟨hinactive, hcount, hretired, hall⟩ := inactive_signalled hstart δs
  obtain rfl := eq_empty_of_create hstart
  have hclients : ((empty 4).runRaw δs).registry.clients.map (fun c => (c.id, c.user, c.active)) =
      [(1, "ann", false), (2, "dan", true), (3, "eve", true)] := by decide +kernel
  have hann : ∃ c ∈ ((empty 4).runRaw δs).registry.clients, c.id = 1 ∧ c.active = false := by
    decide +kernel
  have hids : ((empty 4).runRaw δs).registry.retireAll.2.ids = [1, 2, 3] := by decide +kernel
  obtain ⟨ann, hann, hid, hoff⟩ := hann
  obtain ⟨htold, hstays⟩ := hinactive ann hann hoff
  rw [hid] at htold hstays
  refine ⟨_, hstart, hclients, htold, hstays later (by decide), ?_, fun id hid => ?_⟩
  · rw [hcount]
    decide +kernel
  · rw [← hids, ← hretired] at hid
    obtain ⟨c, hc, rfl⟩ := List.mem_map.1 hid
    exact (hall c hc).2

end Hub

end ChatHub
