/-!
# The monitoring counters

A second set of books, kept for a monitoring system that reads it as text: ten named numbers, one to
a line, in the order of their names. Three of them go up and down, the others only up.

The connected clients are counted as they come and go and are not derived from anything, so a
departure that was never an arrival takes them below zero.
-/

namespace ChatHub

/-- The ten numbers. -/
structure Gauges where
  connected : Int
  busyWorkers : Int
  queued : Nat
  accepted : Nat
  sent : Nat
  received : Nat
  failed : Nat
  hits : Nat
  misses : Nat
  evictions : Nat
deriving Repr, DecidableEq

namespace Gauges

/-- Nothing has been counted. -/
def zero : Gauges :=
  { connected := 0, busyWorkers := 0, queued := 0, accepted := 0, sent := 0, received := 0,
    failed := 0, hits := 0, misses := 0, evictions := 0 }

/-- One number as it is shown: its name, what it means, whether it can go down, its value. -/
structure Series where
  name : String
  help : String
  goesDown : Bool
  value : Int

/-- The numbers in the order of their names. -/
def series (g : Gauges) : List Series :=
  [ ⟨"chatrelay_active_workers", "Number of workers currently running a session.", true,
      g.busyWorkers⟩,
    ⟨"chatrelay_cache_evictions_total", "Total number of message cache evictions.", false,
      g.evictions⟩,
    ⟨"chatrelay_cache_hits_total", "Total number of message cache hits.", false, g.hits⟩,
    ⟨"chatrelay_cache_misses_total", "Total number of message cache misses.", false, g.misses⟩,
    ⟨"chatrelay_connected_clients", "Number of currently registered clients.", true, g.connected⟩,
    ⟨"chatrelay_connections_received_total", "Total number of connections received.", false,
      g.accepted⟩,
    ⟨"chatrelay_delivery_failures_total", "Total number of failed deliveries.", false, g.failed⟩,
    ⟨"chatrelay_messages_received_total", "Total number of messages received from clients.", false,
      g.received⟩,
    ⟨"chatrelay_messages_sent_total", "Total number of messages delivered to clients.", false,
      g.sent⟩,
    ⟨"chatrelay_queued_sessions", "Number of sessions waiting for a worker.", true, g.queued⟩ ]

/-- The line with the value. -/
def Series.line (s : Series) : String := s.name ++ " " ++ toString s.value

/-- The lines that say what the number is. -/
def Series.preamble (s : Series) : List String :=
  [ "# HELP " ++ s.name ++ " " ++ s.help,
    "# TYPE " ++ s.name ++ " " ++ (if s.goesDown then "gauge" else "counter") ]

/-- The text of all numbers; `full` adds what each one is. -/
def lines (g : Gauges) (full : Bool) : List String :=
  g.series.flatMap fun s => (if full then s.preamble else []) ++ [s.line]

end Gauges

end ChatHub
