import ChatHub.Hub.Report
/-!
# What becomes of a record that came in

A line of text goes round to everybody else under the relay's own time, signed with the name in the
record or, if there is none, with the sender's user id. Around the sending, the cache is probed:
once before it, five seconds before the time the *record* claims, and three times after it, one,
two and three seconds before now. A hit after the sending refreshes what it hit.

The probes after the sending use the user id of the session. A record that carries another name was
remembered under that name, so its own traces are not what these probes find.

A difference of timestamps may not be a timestamp. A build for use looks for the one it wraps around
to. A build that checks deals with the line no further: nothing is taken back, and nothing more is
done.
-/

namespace ChatHub.Hub

/-- How far before its own time a record is probed for, in seconds. -/
def probeOffset : Int64 := 5

/-- How many seconds before now are probed for after a record was sent. -/
def recentWindow : List Int64 := [1, 2, 3]

/-- The record as it is sent: signed, and stamped with the relay's time. -/
def signed (user : String) (m : Record) : Record :=
  if m.sender.isEmpty then m.withSender user else m

/-- Probes for an id and refreshes what it finds. -/
def probeRecent (h : Hub) (t : Clock) (id : String) : Hub :=
  let (found, h) := h.lookup id
  if found.isSome then h.refresh t id else h

/-- Probes for what a user said so many seconds before now, one after the other; `false` if a second
was not to be had. -/
def probeBackUnder (a : Arithmetic) (h : Hub) (t : Clock) (user : String) :
    List Int64 → Bool × Hub
  | [] => (true, h)
  | back :: rest =>
    match a.sub? t.unix back with
    | none => (false, h)
    | some second => (h.probeRecent t (RecentCache.makeId user second)).probeBackUnder a t user rest

/-- Sends one line of text round; nothing is told of it if it was not dealt with to the end. -/
def relayTextUnder (a : Arithmetic) (h : Hub) (t : Clock) (id : Nat) (user : String) (m : Record) :
    Option FanOut × Hub :=
  let m := signed user m
  match a.sub? m.timestamp probeOffset with
  | none => (none, h)
  | some second =>
    let h := (h.lookup (RecentCache.makeId m.sender second)).2
    let m := { m with timestamp := t.unix }
    let (fan, h) := h.broadcast t m (some id)
    let (through, h) := h.probeBackUnder a t user recentWindow
    (if through then some fan else none, h)

/-- Sends one line of text round, in a build for use. -/
def relayText (h : Hub) (t : Clock) (id : Nat) (user : String) (m : Record) : FanOut × Hub :=
  let (fan, h) := h.relayTextUnder .wrapping t id user m
  (fan.getD { delivered := 0, failed := [] }, h)

theorem probeBackUnder_wrapping (h : Hub) (t : Clock) (user : String) (window : List Int64) :
    h.probeBackUnder .wrapping t user window =
      (true, window.foldl
        (fun h back => h.probeRecent t (RecentCache.makeId user (t.unix - back))) h) := by
  induction window generalizing h with
  | nil => rfl
  | cons back rest ih => exact ih _

/-- A line goes round between one lookup and a few probes. -/
theorem relayText_eq (h : Hub) (t : Clock) (id : Nat) (user : String) (m : Record) :
    let s := signed user m
    let probed := (h.lookup (RecentCache.makeId s.sender (s.timestamp - probeOffset))).2
    let round := probed.broadcast t { s with timestamp := t.unix } (some id)
    h.relayText t id user m =
      (round.1, recentWindow.foldl
        (fun h back => h.probeRecent t (RecentCache.makeId user (t.unix - back))) round.2) := by
  simp only [relayText, relayTextUnder, Arithmetic.sub?, probeBackUnder_wrapping, if_true,
    Option.getD_some]

/-- Books a record that came in. -/
def recordReceived (h : Hub) (t : Clock) (id : Nat) : Hub :=
  { h with
    tally := h.tally.addReceived
    gauges := { h.gauges with received := h.gauges.received + 1 }
    registry := h.registry.touch t.ms id }

/-- The record with its payload cut to `limit` bytes, if it has more. -/
def limited (limit : Nat) (m : Record) : Record :=
  if limit < m.payload.utf8ByteSize then m.withPayload (Text.truncate m.payload limit) else m

/-- Deals with one record from a registered session: text goes round, a request for statistics is
answered and logged, and everything else is only booked. Says whether it was dealt with to the
end. -/
def dispatchUnder (a : Arithmetic) (h : Hub) (t : Clock) (limit id : Nat) (user : String)
    (m : Record) : Bool × Hub :=
  let h := h.recordReceived t id
  match m.kind with
  | .text =>
    let (fan, h) := h.relayTextUnder a t id user (limited limit m)
    (fan.isSome, h)
  | .status =>
    let (taken, h) := h.replyStatusUnder a t id
    match taken with
    | none => (false, h)
    | some _ =>
      let (lines, h) := h.logReportUnder a
      (lines.isSome, h)
  | _ => (true, h)

/-- Deals with one record from a registered session, in a build for use. -/
def dispatch (h : Hub) (t : Clock) (limit id : Nat) (user : String) (m : Record) : Hub :=
  (h.dispatchUnder .wrapping t limit id user m).2

section

variable {m : Record} (h : Hub) (t : Clock) (limit id : Nat) (user : String)

theorem dispatch_of_text (hkind : m.kind = .text) :
    h.dispatch t limit id user m =
      ((h.recordReceived t id).relayText t id user (limited limit m)).2 := by
  simp only [dispatch, dispatchUnder, hkind, relayText]

theorem dispatch_of_status (hkind : m.kind = .status) :
    h.dispatch t limit id user m =
      ((h.recordReceived t id).replyStatus t id).2.logReport.2 := by
  simp only [dispatch, dispatchUnder, hkind]
  rfl

theorem dispatch_of_other (htext : m.kind ≠ .text) (hstatus : m.kind ≠ .status) :
    h.dispatch t limit id user m = h.recordReceived t id := by
  cases hkind : m.kind with
  | text => exact absurd hkind htext
  | status => exact absurd hkind hstatus
  | _ => simp only [dispatch, dispatchUnder, hkind]

end

end ChatHub.Hub
