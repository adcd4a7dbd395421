import ChatHub.Server.Basic
/-!
# The monitoring counters over HTTP

One page shows the counters. Before it does, the totals are brought up to date, and two of the
counters are set to what is the case: how many clients are registered, and how many connections
wait for a worker.
-/

namespace ChatHub

/-- An answer over HTTP. -/
structure HttpAnswer where
  status : String
  contentType : Option String
  lines : List String
deriving Repr, DecidableEq

namespace Server

/-- The path of the page. -/
def monitorPath : String := "/metrics"

/-- Asks for a page; `full` keeps the lines that say what the counters are. -/
def monitor (s : Server) (path : String) (full : Bool) : HttpAnswer × Server :=
  if path = monitorPath then
    let hub := s.hub.refreshTally
    let gauges :=
      { hub.gauges with connected := hub.registry.size, queued := s.hall.pending.length }
    ({ status := "HTTP/1.1 200 OK", contentType := some "text/plain; version=0.0.4",
       lines := gauges.lines full },
      s.withHub { hub with gauges })
  else ({ status := "HTTP/1.1 404 Not Found", contentType := none, lines := [] }, s)

end Server

end ChatHub
