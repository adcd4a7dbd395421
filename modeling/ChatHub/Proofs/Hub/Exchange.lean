import ChatHub.Proofs.Hub.Moves
/-!
# A hub and everybody who ever left it

The registry forgets a record when its client leaves, or when somebody joins under the same id; but
whoever held the far end of its link still holds it, and can still read what was waiting. An
`Exchange` is a hub that forgets nobody: a record that goes out of the registry is put at the end of
`departed` and stays there.

This gives every registration a place for good. It begins in the registry, and if it ever goes, it
goes to the place in `departed` that is the next free one at that moment. So one registration can
be told from a later one under the same id, and `Exchange.record` finds it at any time.
-/

namespace ChatHub

namespace HubMove

/-- The id whose record a move takes out of the registry, if there is one under it: that of whoever
leaves, and that of whoever joins. -/
def vacates : HubMove → Option Nat
  | join _ _ id _ _ _ => some id
  | leave _ id _ => some id
  | _ => none

theorem find?_seated (r : Registry) {μ : HubMove} {id : Nat} (hid : μ.vacates ≠ some id) :
    (μ.seated r).find? id = r.find? id := by
  cases μ with
  | join t now joining user addr capacity =>
    have hne : joining ≠ id := fun he => hid (congrArg some he)
    show (r.insert _).find? id = _
    rw [Registry.find?_insert]
    exact if_neg hne
  | leave t leaving user =>
    have hne : id ≠ leaving := fun he => hid (congrArg some he.symm)
    show (r.remove leaving).2.find? id = _
    rw [Registry.find?_remove, if_neg hne]
  | _ => rfl

/-- Whoever neither goes nor is replaced is found again, as the move has left them. -/
theorem find?_act_of_stays (h : Hub) {μ : HubMove} {id : Nat} (hid : μ.vacates ≠ some id) :
    (h.act μ).registry.find? id = (h.registry.find? id).map (μ.effect h) := by
  rw [find?_act, find?_seated _ hid]

end HubMove

/-- A hub, and the records that have gone out of its registry, the latest last. -/
structure Exchange where
  hub : Hub
  departed : List Client

/-- Something that can happen around an exchange. -/
inductive ExchangeMove where
  /-- Something that happens around the hub. -/
  | inside (μ : HubMove)
  /-- A move at the far end of a link whose near end has gone. -/
  | outside (place : Nat) (φ : FarMove)
deriving Repr, DecidableEq

namespace Exchange

def act (v : Exchange) : ExchangeMove → Exchange
  | .inside μ =>
    { hub := v.hub.act μ
      departed := v.departed ++ (μ.vacates.bind v.hub.registry.find?).toList }
  | .outside place φ => { v with departed := v.departed.modify place (·.farEnd φ) }

/-- The record of a registration under `id`: in the registry when it has no other place, and
otherwise at its place among the departed. -/
def record (v : Exchange) (id : Nat) : Option Nat → Option Client
  | none => v.hub.registry.find? id
  | some place => v.departed[place]?

end Exchange

namespace ExchangeMove

/-- The place that a registration under `id` has after a move. -/
def placeAfter (v : Exchange) (id : Nat) : Option Nat → ExchangeMove → Option Nat
  | none, inside μ => if μ.vacates = some id then some v.departed.length else none
  | place, _ => place

def round? (v : Exchange) : ExchangeMove → Option Round
  | inside μ => μ.round? v.hub
  | outside _ _ => none

/-- The move that it is at the far end of a registration, if it is one. -/
def atFarEnd (id : Nat) : Option Nat → ExchangeMove → Option FarMove
  | none, inside (.far i φ) => if i = id then some φ else none
  | some place, outside i φ => if i = place then some φ else none
  | _, _ => none

end ExchangeMove

/-! ## Where a registration is after a move -/

namespace Exchange

variable {v : Exchange} {id : Nat} {c : Client}

/-- A registration that goes is found among the departed, as it was. -/
theorem record_of_vacated {μ : HubMove} (hc : v.record id none = some c)
    (hid : μ.vacates = some id) :
    (v.act (.inside μ)).record id (some v.departed.length) = some c := by
  have hfind : v.hub.registry.find? id = some c := hc
  show (v.departed ++ (μ.vacates.bind v.hub.registry.find?).toList)[v.departed.length]? = some c
  rw [hid, Option.bind_some, hfind, List.getElem?_append_right (Nat.le_refl _), Nat.sub_self]
  rfl

/-- A registration that stays is found in the registry, as the move has left it. -/
theorem record_of_stays {μ : HubMove} (hc : v.record id none = some c)
    (hid : μ.vacates ≠ some id) :
    (v.act (.inside μ)).record id none = some (μ.effect v.hub c) := by
  have hfind : v.hub.registry.find? id = some c := hc
  show (v.hub.act μ).registry.find? id = _
  rw [HubMove.find?_act_of_stays _ hid, hfind]
  rfl

theorem record_of_departed {place : Nat} (hc : v.record id (some place) = some c) (μ : HubMove) :
    (v.act (.inside μ)).record id (some place) = some c := by
  have hat : v.departed[place]? = some c := hc
  obtain ⟨hlt, -⟩ := List.getElem?_eq_some_iff.1 hat
  show (v.departed ++ _)[place]? = some c
  rw [List.getElem?_append_left hlt, hat]

theorem record_outside {place : Nat} (hc : v.record id (some place) = some c) (i : Nat)
    (φ : FarMove) :
    (v.act (.outside i φ)).record id (some place) =
      some (if i = place then c.farEnd φ else c) := by
  have hat : v.departed[place]? = some c := hc
  show (v.departed.modify i (·.farEnd φ))[place]? = _
  rw [List.getElem?_modify, hat]
  rfl

end Exchange

end ChatHub
