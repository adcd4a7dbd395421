import ChatHub.Clock
import ChatHub.Gauges
import ChatHub.RecentCache
import ChatHub.Registry
import ChatHub.Roster
import ChatHub.Tally
/-!
# The hub

The hub is where everybody who is connected meets. It holds who is connected, whose turn it is, what
was said last, and two sets of books about all of it, and it is the only place where these change
together:

* somebody joins: a record, a turn, one client more, and a notice to everybody else;
* somebody leaves: the same in reverse, and a notice to everybody;
* a message goes round: a copy for everybody but its sender; whoever cannot take it is retired; and
  the cache remembers it, however many copies arrived.

A departure is announced also when nobody had the id, so that it is safe to leave twice.
-/

namespace ChatHub

/-- What the hub warns the operator about. -/
inductive Warning where
  | memberExists (id : Nat)
  | memberUnknown (id : Nat)
  | clientLost (user : String) (id : Nat)
deriving Repr, DecidableEq

namespace Warning

/-- The text of a warning. -/
def text : Warning → String
  | memberExists id => "Roster: client " ++ toString id ++ " already exists"
  | memberUnknown id => "Roster: client with conn " ++ toString id ++ " not found"
  | clientLost user id => "Client connection lost: " ++ user ++ " (conn: " ++ toString id ++ ")"

end Warning

/-- Everything the sessions share. -/
structure Hub where
  registry : Registry
  roster : Roster
  cache : RecentCache
  tally : Tally
  gauges : Gauges
  /-- The warnings so far, the latest last. -/
  log : List Warning
deriving Repr, DecidableEq

namespace Hub

/-- A hub with nobody in it. -/
def create (cacheCapacity timeQuantum : Nat) : Except Fault Hub := do
  let cache ← RecentCache.create cacheCapacity
  let roster ← Roster.create timeQuantum
  return { registry := .empty, roster, cache, tally := .zero, gauges := .zero, log := [] }

/-- Warns the operator. -/
def warn (h : Hub) (w : Warning) : Hub := { h with log := h.log ++ [w] }

/-! ## The cache -/

/-- Looks an id up, and books a hit or a miss. -/
def lookup (h : Hub) (id : String) : Option String × Hub :=
  let (found, cache) := h.cache.lookup id
  let gauges :=
    if found.isSome then { h.gauges with hits := h.gauges.hits + 1 }
    else { h.gauges with misses := h.gauges.misses + 1 }
  (found, { h with cache, gauges })

/-- Remembers a message, and books the eviction if one is reported. -/
def remember (h : Hub) (t : Clock) (sender content : String) (timestamp : Int64) : Bool × Hub :=
  let (report, cache) := h.cache.insertion t.ms sender content timestamp
  let gauges :=
    { h.gauges with
      evictions := h.gauges.evictions + if report.evicted.isSome then 1 else 0 }
  (report.added, { h with cache, gauges })

/-- Marks a message as just used. -/
def refresh (h : Hub) (t : Clock) (id : String) : Hub :=
  { h with cache := h.cache.refresh t.ms id }

/-- Forgets all messages. -/
def forget (h : Hub) : Hub := { h with cache := h.cache.clear }

/-! ## The rotation -/

/-- Adds a member to the rotation. -/
def enrol (h : Hub) (id : Nat) (user : String) : Bool × Hub :=
  let (added, roster) := h.roster.add id user
  let h := { h with roster }
  (added, if added then h else h.warn (.memberExists id))

/-- Takes a member out of the rotation. -/
def strike (h : Hub) (id : Nat) : Bool × Hub :=
  let (removed, roster) := h.roster.remove id
  let h := { h with roster }
  (removed, if removed then h else h.warn (.memberUnknown id))

/-- Gives the next turn. -/
def nextTurn (h : Hub) (t : Clock) : Option Member × Hub :=
  let (m, roster) := h.roster.next t.ms
  (m, { h with roster })

/-! ## Sending -/

/-- Retires one client whose delivery failed. -/
def lose (h : Hub) (id : Nat) : Hub :=
  let gauges := { h.gauges with failed := h.gauges.failed + 1 }
  match h.registry.retire id with
  | (some user, registry) => { h with registry, gauges }.warn (.clientLost user id)
  | (none, registry) => { h with registry, gauges }

/-- Sends a message to everybody but `excluding`, retires whoever could not take it, and remembers
it. -/
def broadcast (h : Hub) (t : Clock) (m : Record) (excluding : Option Nat) : FanOut × Hub :=
  let (fan, registry) := h.registry.fanOut m excluding
  let tally := h.tally.addSent fan.delivered
  let gauges := { h.gauges with sent := h.gauges.sent + fan.delivered }
  let h := fan.failed.foldl lose { h with registry, tally, gauges }
  (fan, (h.remember t m.sender m.payload m.timestamp).2)

/-! ## Coming and going -/

/-- Somebody joins. -/
def join (h : Hub) (t : Clock) (c : Client) : Hub :=
  let h :=
    { h with
      registry := h.registry.insert c
      tally := h.tally.clientCame
      gauges := { h.gauges with connected := h.gauges.connected + 1 } }
  let h := (h.enrol c.id c.user).2
  (h.broadcast t (Record.joinNotice c.user t.unix) (some c.id)).2

/-- Somebody leaves; gives the record, if there was one. -/
def leave (h : Hub) (t : Clock) (id : Nat) (user : String) : Option Client × Hub :=
  let h := (h.strike id).2
  let (gone, registry) := h.registry.remove id
  let h :=
    if gone.isSome then
      { h with
        registry
        tally := h.tally.clientWent
        gauges := { h.gauges with connected := h.gauges.connected - 1 } }
    else h
  (gone, (h.broadcast t (Record.leaveNotice user t.unix) none).2)

end Hub

end ChatHub
