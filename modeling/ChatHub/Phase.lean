/-!
# The phases of a session

A session is queued when its connection is accepted, admitted when a worker takes it, registered
when it has said who it is, active until something ends it, and then leaves in two steps. It may
also be closed before it registers, straight from the queue or from its handshake. Nothing leaves
the last phase.
-/

namespace ChatHub

/-- A phase of a session. -/
inductive Phase where
  | queued
  | admitted
  | registered
  | active
  | disconnecting
  | deregistered
deriving Repr, DecidableEq

namespace Phase

/-- The name of a phase. -/
def name : Phase → String
  | queued => "Queued"
  | admitted => "Admitted"
  | registered => "Registered"
  | active => "Active"
  | disconnecting => "Disconnecting"
  | deregistered => "Deregistered"

/-- Whether the second phase may follow the first. -/
def canAdvance : Phase → Phase → Bool
  | queued, admitted => true
  | admitted, registered => true
  | registered, active => true
  | active, disconnecting => true
  | registered, disconnecting => true
  | disconnecting, deregistered => true
  | queued, deregistered => true
  | admitted, deregistered => true
  | _, _ => false

/-- Whether a session in this phase is known to the others. -/
def isRegistered : Phase → Bool
  | registered | active | disconnecting => true
  | _ => false

end Phase

/-- A step between phases that a session may not take. -/
structure BadTransition where
  source : Phase
  target : Phase
deriving Repr, DecidableEq

namespace BadTransition

/-- The text of a refused step. -/
def message (b : BadTransition) : String :=
  "invalid session transition " ++ b.source.name ++ " -> " ++ b.target.name

end BadTransition

/-- The part of a session that outlives its steps. -/
structure SessionCard where
  id : Nat
  /-- Known once the peer has said it. -/
  user : Option String
  phase : Phase
deriving Repr, DecidableEq

namespace SessionCard

/-- A session that waits for a worker. -/
def queued (id : Nat) : SessionCard := { id, user := none, phase := .queued }

/-- Moves to the next phase, if that is allowed. -/
def advance (c : SessionCard) (next : Phase) : Except BadTransition SessionCard :=
  if c.phase.canAdvance next then .ok { c with phase := next }
  else .error { source := c.phase, target := next }

end SessionCard

end ChatHub
