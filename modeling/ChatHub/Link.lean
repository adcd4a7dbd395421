import ChatHub.Record.Basic
/-!
# The line to one client

Between the relay and a client's session stand two things. A `Mailbox` holds the records that are to
be written to the client; it is bounded, and a record that finds it full, or finds nobody at the
other end, is not delivered. A `KillSwitch` tells the session to end; it can be fired by anybody who
holds the record of the client, and the session finds out when it next looks.

Both have a far end, held by the session. `hangUp` and `deafen` say what happens when the session
lets go of it.
-/

namespace ChatHub

/-- The records that wait to be written to one client. -/
structure Mailbox where
  capacity : Nat
  queue : List Record
  /-- Whether somebody still reads. -/
  isOpen : Bool
deriving Repr, DecidableEq

namespace Mailbox

/-- A new mailbox with room for `capacity` records. -/
def empty (capacity : Nat) : Mailbox := { capacity, queue := [], isOpen := true }

/-- Whether the mailbox takes another record. -/
def hasRoom (m : Mailbox) : Bool := m.isOpen && m.queue.length < m.capacity

/-- Puts a record at the end, if there is room. -/
def offer (m : Mailbox) (r : Record) : Bool × Mailbox :=
  if m.hasRoom then (true, { m with queue := m.queue ++ [r] }) else (false, m)

/-- Takes up to `max` records from the front. -/
def take (m : Mailbox) (max : Nat) : List Record × Mailbox :=
  (m.queue.take max, { m with queue := m.queue.drop max })

/-- Nobody reads any more, and what was waiting is lost. -/
def hangUp (m : Mailbox) : Mailbox := { m with queue := [], isOpen := false }

end Mailbox

/-- The signal that ends a session. -/
structure KillSwitch where
  /-- Whether a session listens. -/
  heard : Bool
  /-- Whether the switch was fired and the session has not looked yet. -/
  fired : Bool
deriving Repr, DecidableEq

namespace KillSwitch

/-- A switch that a session listens to. -/
def armed : KillSwitch := { heard := true, fired := false }

/-- Fires the switch; says whether anybody listens. -/
def fire (k : KillSwitch) : Bool × KillSwitch := (k.heard, { k with fired := k.heard })

/-- Looks whether the switch was fired since the last look. -/
def look (k : KillSwitch) : Bool × KillSwitch := (k.fired, { k with fired := false })

/-- Nobody listens any more. -/
def deafen (_ : KillSwitch) : KillSwitch := { heard := false, fired := false }

end KillSwitch

/-- Both lines to a client. -/
structure Link where
  mailbox : Mailbox
  kill : KillSwitch
deriving Repr, DecidableEq

namespace Link

/-- A new link with room for `capacity` records. -/
def fresh (capacity : Nat) : Link := { mailbox := .empty capacity, kill := .armed }

end Link

end ChatHub
