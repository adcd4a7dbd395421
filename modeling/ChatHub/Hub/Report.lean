import ChatHub.Text.Numeral
import ChatHub.Hub.Basic
/-!
# The statistics banner

Before the totals are shown they are brought up to date: the number of clients is that of the
registry, and the cache's counts of lookups are copied in as far as they have grown. The rate and
the size are read from the cache itself. So after the cache has been cleared, the counts and the
rate of one banner can tell two stories.

For the rate the hits and the misses are added up. In a build that checks its sums there is no rate,
and no banner, once no word holds them together; what was brought up to date before stays so.
-/

namespace ChatHub.Hub

/-- Brings the totals up to date. -/
def refreshTally (h : Hub) : Hub :=
  { h with tally :=
      (h.tally.setClients h.registry.size).syncCache h.cache.hits h.cache.misses }

/-- The lines of the banner, from totals that are up to date and a hit rate. -/
def bannerLinesAt (h : Hub) (rate : Float) : List String :=
  [ "=== SERVER STATISTICS ===",
    "Messages Sent:     " ++ toString h.tally.sent.toNat,
    "Messages Received: " ++ toString h.tally.received.toNat,
    "Active Clients:    " ++ toString h.tally.clients.toNat,
    "Active Workers:    " ++ toString h.tally.workers.toNat,
    "Cache Hits:        " ++ toString h.tally.cacheHits.toNat,
    "Cache Misses:      " ++ toString h.tally.cacheMisses.toNat,
    "Cache Hit Rate:    " ++ Numeral.twoPlaces rate ++ "%",
    "Cache Size:        " ++ toString h.cache.length ++ "/" ++ toString h.cache.capacity,
    "=========================" ]

/-- The lines of the banner, from totals that are up to date. -/
def bannerLines (h : Hub) : List String := h.bannerLinesAt h.cache.hitRate

/-- A banner is its lines, with an empty line before them. -/
def bannerOf (lines : List String) : String := "\n".intercalate ("" :: lines)

/-- The name under which the relay itself writes. -/
def serverName : String := "SERVER"

/-! ## In any build -/

/-- Brings the totals up to date and gives the lines of the banner for the operator's log. -/
def logReportUnder (a : Arithmetic) (h : Hub) : Option (List String) × Hub :=
  let h := h.refreshTally
  ((h.cache.hitRateUnder a).map h.bannerLinesAt, h)

/-- Brings the totals up to date and gives the banner. -/
def reportUnder (a : Arithmetic) (h : Hub) : Option String × Hub :=
  let (lines, h) := h.logReportUnder a
  (lines.map bannerOf, h)

/-- Sends the banner to one client, and says whether it was taken; without a banner nothing is
sent. -/
def replyStatusUnder (a : Arithmetic) (h : Hub) (t : Clock) (id : Nat) : Option Bool × Hub :=
  let (text, h) := h.reportUnder a
  match text with
  | none => (none, h)
  | some text =>
    let (taken, registry) := h.registry.sendTo id (Record.make .text serverName text t.unix)
    (some taken, { h with registry })

/-! ## In a build for use, where there is always a banner -/

/-- Brings the totals up to date and gives the lines of the banner for the operator's log. -/
def logReport (h : Hub) : List String × Hub :=
  let (lines, h) := h.logReportUnder .wrapping
  (lines.getD [], h)

/-- Brings the totals up to date and gives the banner. -/
def report (h : Hub) : String × Hub :=
  let (text, h) := h.reportUnder .wrapping
  (text.getD "", h)

/-- Sends the banner to one client; says whether it was taken. -/
def replyStatus (h : Hub) (t : Clock) (id : Nat) : Bool × Hub :=
  let (taken, h) := h.replyStatusUnder .wrapping t id
  (taken.getD false, h)

/-- What is told and sent is the same in every build, if it is told and sent at all. -/
theorem replyStatusUnder_eq (a : Arithmetic) (h : Hub) (t : Clock) (id : Nat) :
    h.replyStatusUnder a t id =
      if (h.cache.hitRateUnder a).isSome then
        (some (h.replyStatus t id).1, (h.replyStatus t id).2)
      else (none, h.refreshTally) := by
  unfold replyStatus replyStatusUnder reportUnder logReportUnder
  dsimp only
  have hrate : h.refreshTally.cache = h.cache := rfl
  rw [hrate, RecentCache.hitRateUnder_eq, RecentCache.hitRateUnder_eq]
  cases a.add? h.cache.hits.toUInt64 h.cache.misses.toUInt64 <;> rfl

end ChatHub.Hub
