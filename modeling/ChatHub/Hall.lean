import ChatHub.Hub.Relay
import ChatHub.Settings.Basic
/-!
# The hall

The hub serves whoever is inside. The hall around it knows the settings, who waits at the door, and
whether it is closing. A connection that is accepted waits until a worker takes it; until then it is
pending and not in the hub.

Closing begins once. Whoever calls for it first begins it, every later call is told that it had
begun already.
-/

namespace ChatHub

/-- What one running relay consists of, the network apart. -/
structure Hall where
  settings : Settings
  hub : Hub
  /-- The connections that were accepted and that no worker has taken yet. -/
  pending : List Nat
  closing : Bool
deriving Repr, DecidableEq

namespace Hall

/-- An empty hall. The settings are taken as they are, apart from the two limits without which there
can be no hub. -/
def create (settings : Settings) : Except Fault Hall := do
  let hub ← Hub.create settings.cacheCapacity settings.timeQuantumMs
  return { settings, hub, pending := [], closing := false }

/-- A connection waits for a worker. -/
def await (h : Hall) (id : Nat) : Hall :=
  if h.pending.contains id then h else { h with pending := h.pending ++ [id] }

/-- A connection waits no longer; says whether it did. -/
def unawait (h : Hall) (id : Nat) : Bool × Hall :=
  (h.pending.contains id, { h with pending := h.pending.filter (· != id) })

/-- Begins to close; `false` when that had begun already. -/
def beginShutdown (h : Hall) : Bool × Hall :=
  if h.closing then (false, h) else (true, { h with closing := true })

end Hall

end ChatHub
