/-!
# The running totals

Six words that count what the relay has done and what it is doing. They are words: adding past the
largest one starts again at 0, while taking one away from 0 leaves 0.

The two totals of cache lookups are copied in from the cache from time to time and never go back,
even when the cache has started to count afresh.
-/

namespace ChatHub

/-- The totals. -/
structure Tally where
  sent : UInt64
  received : UInt64
  cacheHits : UInt64
  cacheMisses : UInt64
  clients : UInt64
  workers : UInt64
deriving Repr, DecidableEq

namespace Tally

/-- Nothing has happened. -/
def zero : Tally :=
  { sent := 0, received := 0, cacheHits := 0, cacheMisses := 0, clients := 0, workers := 0 }

/-- One less, but not less than 0. -/
def decrement (n : UInt64) : UInt64 := if n = 0 then 0 else n - 1

/-- Counts `n` records sent. -/
def addSent (t : Tally) (n : Nat) : Tally := { t with sent := t.sent + n.toUInt64 }

/-- Counts one record received. -/
def addReceived (t : Tally) : Tally := { t with received := t.received + 1 }

/-- One client more. -/
def clientCame (t : Tally) : Tally := { t with clients := t.clients + 1 }

/-- One client less. -/
def clientWent (t : Tally) : Tally := { t with clients := decrement t.clients }

/-- Sets the number of clients. -/
def setClients (t : Tally) (n : Nat) : Tally := { t with clients := n.toUInt64 }

/-- One worker more is busy. -/
def workerBusy (t : Tally) : Tally := { t with workers := t.workers + 1 }

/-- One worker less is busy. -/
def workerFree (t : Tally) : Tally := { t with workers := decrement t.workers }

/-- Copies the cache's counts of lookups, as far as they have grown. -/
def syncCache (t : Tally) (hits misses : Nat) : Tally :=
  { t with
    cacheHits := max t.cacheHits hits.toUInt64
    cacheMisses := max t.cacheMisses misses.toUInt64 }

end Tally

end ChatHub
