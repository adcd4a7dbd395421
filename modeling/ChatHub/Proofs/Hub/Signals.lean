import ChatHub.Proofs.Hub.Exchange
/-!
# A signal that was given is there until it is looked for

There are four ways for the signal of a session to be given: a delivery failed, somebody told the
session to end, everybody was retired, or its writer failed. `HubMove.Fires` says which moves of a
hub these are. The signal has room for one only, and it is lost on somebody who does not listen; but
as long as every session listens (`Hub.Attended`), giving it a second time changes nothing, and
nobody but its own session takes it away. So it stays (`Hub.signalled_act`) until the client has
gone.

The last part is about the books. What has been received is counted by one move only, and no move
counts busy workers.
-/

namespace ChatHub

namespace HubMove

/-- Whether a move takes a signal away from whoever it was for. -/
def hushes : HubMove → Bool
  | far _ .deafen | far _ .look => true
  | _ => false

end HubMove

namespace Hub

/-- Every client has a session that listens. -/
def Attended (h : Hub) : Prop := ∀ c ∈ h.registry.clients, c.link.kill.heard = true

/-- Whether an id is connected and has been given its signal. -/
def signalled (h : Hub) (id : Nat) : Bool :=
  ((h.registry.find? id).map (·.link.kill.fired)).getD false

theorem signalled_iff {h : Hub} {id : Nat} :
    h.signalled id = true ↔ ∃ c, h.registry.find? id = some c ∧ c.link.kill.fired = true := by
  unfold signalled
  cases h.registry.find? id with
  | none => simp
  | some c => simp

theorem contains_of_signalled {h : Hub} {id : Nat} (hid : h.signalled id = true) :
    h.registry.contains id = true := by
  obtain ⟨c, hc, -⟩ := signalled_iff.1 hid
  rw [Registry.contains, hc]
  rfl

end Hub

namespace HubMove

variable {h : Hub} {μ : HubMove} {id : Nat} {c : Client}

/-- The signal of an id is given: by name, with everybody's, or because a message that goes round
could not be delivered. -/
def Fires (h : Hub) (id : Nat) : HubMove → Prop
  | retire other | signal other => other = id ∧ h.registry.contains id = true
  | retireAll => h.registry.isActive id = true
  | μ => ∃ ρ, μ.round? h = some ρ ∧ id ∈ ρ.outcome.1.failed

/-! ## One move -/

theorem heard_seated (ha : h.Attended) (μ : HubMove) :
    ∀ c ∈ (μ.seated h.registry).clients, c.link.kill.heard = true := by
  cases μ with
  | join t now id user addr capacity =>
    intro c hc
    rcases Registry.mem_insertInto hc with rfl | hc
    · rfl
    · exact ha c hc
  | leave t id user => exact fun c hc => ha c (List.mem_filter.1 hc).1
  | _ => exact ha

theorem kill_errand (hμ : μ.hushes = false) (h : Hub) (c : Client) :
    (μ.errand h c).link.kill = c.link.kill ∨ (μ.errand h c).link.kill = c.link.kill.fire.2 := by
  cases μ with
  | retire | retireAll | signal =>
    simp only [errand]
    split
    · exact .inr rfl
    · exact .inl rfl
  | far other φ =>
    cases φ with
    | deafen | look => cases hμ
    | read | hangUp =>
      simp only [errand]
      split <;> exact .inl rfl
  | recordReceived | replyStatus | sendTo | touch =>
    simp only [errand]
    split <;> exact .inl rfl
  | _ => exact .inl rfl

/-- A move leaves a client's signal alone or gives it, unless it is one of the session's own. -/
theorem kill_effect (hμ : μ.hushes = false) (h : Hub) (c : Client) :
    (μ.effect h c).link.kill = c.link.kill ∨ (μ.effect h c).link.kill = c.link.kill.fire.2 := by
  unfold effect
  cases hρ : μ.round? h with
  | some ρ =>
    rcases c.afterRound_cases ρ.record ρ.excluding with ⟨-, heq⟩ | ⟨-, -, heq⟩ | ⟨-, -, heq⟩
    · exact .inl (congrArg (·.link.kill) heq)
    · exact .inl (congrArg (·.link.kill) heq)
    · exact .inr (congrArg (·.link.kill) heq)
  | none => exact kill_errand hμ h c

end HubMove

namespace Hub

open HubMove

variable {h : Hub} {μ : HubMove} {id : Nat} {c : Client}

theorem Attended.empty (capacity : Nat) : (empty capacity).Attended := List.forall_mem_nil _

theorem Attended.act (ha : h.Attended) (hμ : μ.hushes = false) : (h.act μ).Attended := by
  intro d hd
  rw [registry_act] at hd
  obtain ⟨c, hc, rfl⟩ := List.mem_map.1 hd
  have hheard := heard_seated ha μ c hc
  rcases kill_effect hμ h c with heq | heq
  · rw [heq]
    exact hheard
  · rw [heq]
    exact hheard

theorem Attended.run (ha : h.Attended) {μs : List HubMove} (hμs : ∀ μ ∈ μs, μ.hushes = false) :
    (h.run μs).Attended := by
  induction μs generalizing h with
  | nil => exact ha
  | cons μ μs ih =>
    exact ih (ha.act (hμs μ List.mem_cons_self)) fun ν hν => hμs ν (List.mem_cons_of_mem _ hν)

/-- A signal that was given is still there after a move that does not part the client. -/
theorem signalled_act (ha : h.Attended) (hμ : μ.hushes = false) (hid : μ.vacates ≠ some id)
    (hsignalled : h.signalled id = true) : (h.act μ).signalled id = true := by
  obtain ⟨c, hc, hfired⟩ := signalled_iff.1 hsignalled
  refine signalled_iff.2 ⟨μ.effect h c, ?_, ?_⟩
  · rw [find?_act_of_stays h hid, hc]
    rfl
  · rcases kill_effect hμ h c with heq | heq
    · rw [heq]
      exact hfired
    · rw [heq]
      exact ha c (Registry.find?_some hc).1

/-- Whoever is given the signal has it. -/
theorem signalled_of_fires (ha : h.Attended) (hμ : μ.Fires h id) :
    (h.act μ).signalled id = true := by
  -- It is enough that the move is a firing of the switch for the one client that has the id.
  have hgiven : ∀ c, (μ.seated h.registry).find? id = some c →
      (μ.effect h c).link.kill = c.link.kill.fire.2 → (h.act μ).signalled id = true := by
    intro c hc heq
    refine signalled_iff.2 ⟨μ.effect h c, ?_, ?_⟩
    · rw [find?_act, hc]
      rfl
    · rw [heq]
      exact heard_seated ha μ c (Registry.find?_some hc).1
  have hround : (∃ ρ, μ.round? h = some ρ ∧ id ∈ ρ.outcome.1.failed) →
      (h.act μ).signalled id = true := by
    rintro ⟨ρ, hρ, hid⟩
    obtain ⟨c, hc, rfl⟩ := List.mem_map.1 hid
    obtain ⟨hc, hrefused⟩ := List.mem_filter.1 hc
    obtain ⟨hc, haudience⟩ := List.mem_filter.1 hc
    rw [registry_round hρ] at hc
    refine hgiven c (Registry.find?_of_mem hc) ?_
    have hretired : c.afterRound ρ.record ρ.excluding = c.retire := by
      unfold Client.afterRound
      rw [if_pos haudience, if_neg (by simpa using hrefused)]
    simp only [effect, hρ, hretired]
    rfl
  cases μ with
  | retire other | signal other =>
    obtain ⟨rfl, hcontains⟩ := hμ
    obtain ⟨c, hc⟩ := Option.isSome_iff_exists.1 hcontains
    refine hgiven c hc ?_
    simp only [effect, round?, errand, if_pos (Registry.find?_some hc).2]
    rfl
  | retireAll =>
    have hactive : ((h.registry.find? id).map (·.active)).getD false = true := hμ
    cases hc : h.registry.find? id with
    | none =>
      rw [hc] at hactive
      cases hactive
    | some c =>
      rw [hc] at hactive
      have hactive : c.active = true := hactive
      refine hgiven c hc ?_
      simp only [effect, round?, errand, if_pos hactive]
      rfl
  | _ => exact hround hμ

end Hub

/-! ## The books on work -/

/-- What is written down about the work that is done. -/
structure Effort where
  /-- How many workers are busy. -/
  workers : UInt64
  /-- How many records have come in, by the totals and by the monitoring counters. -/
  received : UInt64
  noted : Nat

def Hub.effort (h : Hub) : Effort :=
  { workers := h.tally.workers, received := h.tally.received, noted := h.gauges.received }

namespace HubMove

/-- Whether a move books a record that came in. -/
def isReceipt : HubMove → Bool
  | recordReceived .. => true
  | _ => false

/-- Whether a move is part of dealing with a record that came in. -/
def isDealing : HubMove → Bool
  | recordReceived .. | relayText .. | replyStatus .. | report => true
  | _ => false

theorem isReceipt_of_not_isDealing {μ : HubMove} (hμ : μ.isDealing = false) :
    μ.isReceipt = false := by
  cases μ with
  | recordReceived => cases hμ
  | _ => rfl

end HubMove

namespace Hub

theorem effort_enrol (h : Hub) (id : Nat) (user : String) :
    (h.enrol id user).2.effort = h.effort := by
  unfold enrol
  rcases h.roster.add id user with ⟨added, roster⟩
  cases added <;> rfl

theorem effort_dismiss (h : Hub) (id : Nat) : (h.dismiss id).effort = h.effort := by
  have hstrike : (h.strike id).2.effort = h.effort := by
    unfold strike
    rcases h.roster.remove id with ⟨removed, roster⟩
    cases removed <;> rfl
  unfold dismiss
  dsimp only
  split <;> exact hstrike

theorem effort_lose (h : Hub) (id : Nat) : (lose h id).effort = h.effort := by
  unfold lose
  rcases h.registry.retire id with ⟨_ | user, registry⟩ <;> rfl

theorem effort_broadcast (h : Hub) (t : Clock) (m : Record) (excluding : Option Nat) :
    (h.broadcast t m excluding).2.effort = h.effort := foldl_lose_eq effort_lose _ _

theorem effort_lookup (h : Hub) (id : String) : (h.lookup id).2.effort = h.effort := by
  unfold lookup
  rcases h.cache.lookup id with ⟨_ | found, cache⟩ <;> rfl

theorem effort_probeRecent (h : Hub) (t : Clock) (id : String) :
    (h.probeRecent t id).effort = h.effort := by
  show (if (h.lookup id).1.isSome then (h.lookup id).2.refresh t id
    else (h.lookup id).2).effort = h.effort
  split <;> exact h.effort_lookup id

end Hub

namespace HubMove

variable {μ : HubMove}

theorem effort_afterwards (h : Hub) (μ : HubMove) : (μ.afterwards h).effort = h.effort := by
  cases μ with
  | relayText t id user m =>
    show ((((h.probeRecent t _).probeRecent t _).probeRecent t _)).effort = h.effort
    simp only [Hub.effort_probeRecent]
  | _ => rfl

theorem effort_round {h : Hub} {ρ : Round} (hρ : μ.round? h = some ρ) :
    ρ.hub.effort = h.effort := by
  cases μ <;> cases hρ
  · exact Hub.effort_enrol _ _ _
  · exact h.effort_dismiss _
  · rfl
  · exact h.effort_lookup _

theorem effort_act (hμ : μ.isReceipt = false) (h : Hub) : (h.act μ).effort = h.effort := by
  cases hρ : μ.round? h with
  | some ρ =>
    rw [act_of_round hρ, effort_afterwards, Round.outcome, Hub.effort_broadcast, effort_round hρ]
  | none =>
    cases μ with
    | recordReceived => cases hμ
    | join | leave | broadcast | relayText => cases hρ
    | nextTurn t =>
      show (h.nextTurn t).2.effort = h.effort
      unfold Hub.nextTurn
      rcases h.roster.next t.ms with ⟨m, roster⟩
      rfl
    | lookup id => exact h.effort_lookup id
    | _ => rfl

theorem workers_act (h : Hub) (μ : HubMove) : (h.act μ).tally.workers = h.tally.workers := by
  cases hμ : μ.isReceipt with
  | false => exact congrArg Effort.workers (effort_act hμ h)
  | true =>
    cases μ with
    | recordReceived => rfl
    | _ => cases hμ

end HubMove

namespace Hub

theorem workers_run (h : Hub) (μs : List HubMove) : (h.run μs).tally.workers = h.tally.workers := by
  induction μs generalizing h with
  | nil => rfl
  | cons μ μs ih => exact (ih (h.act μ)).trans (HubMove.workers_act h μ)

theorem effort_run {μs : List HubMove} (hμs : ∀ μ ∈ μs, μ.isReceipt = false) (h : Hub) :
    (h.run μs).effort = h.effort := by
  induction μs generalizing h with
  | nil => rfl
  | cons μ μs ih =>
    have hμ := hμs μ List.mem_cons_self
    have hrest : ∀ ν ∈ μs, ν.isReceipt = false := fun ν hν => hμs ν (List.mem_cons_of_mem _ hν)
    exact (ih hrest (h.act μ)).trans (HubMove.effort_act hμ h)

end Hub

end ChatHub
