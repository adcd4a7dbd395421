import ChatHub.Proofs.Hub.Recency
import ChatHub.Proofs.Record.Framing
/-!
# How far back a line is looked for

Four lookups are made for a line of text, each under the key of a second that lies a little back:
once, before it goes round, five seconds before the second that the record names, and then one, two
and three seconds before now. A second is a word, and so is a difference of seconds.

The relay's own time is its own, and unless it reads one of the first three seconds that there are,
all is well with the three lookups. The second in the record is whatever its sender wrote, and all
of them can come in. Of the first five it cannot be said which second is five seconds back: no word
holds it. A build for use takes the difference all the same, and what is looked for is a line from
the farthest future. A build that checks breaks off: the record has been booked by then, and does
not go round (`Hub.line_probes`).
-/

namespace ChatHub.Hub

/-! ## Seconds in words -/

theorem toInt_sub_of_le {a b : Int64} (hb : 0 ≤ b.toInt) (h : -2 ^ 63 ≤ a.toInt - b.toInt) :
    (a - b).toInt = a.toInt - b.toInt := by
  have hupper := a.toInt_lt
  rw [Int64.toInt_sub]
  exact Int.bmod_eq_of_le (by omega) (by omega)

/-- A second before the first one that there is comes out at the other end. -/
theorem toInt_sub_of_lt {a b : Int64} (h : a.toInt - b.toInt < -2 ^ 63) :
    (a - b).toInt = a.toInt - b.toInt + 2 ^ 64 := by
  have hlower := a.le_toInt
  have hback := b.toInt_lt
  rw [Int64.toInt_sub, ← Int.add_bmod_right]
  exact Int.bmod_eq_of_le (by omega) (by omega)

/-- In every build there are seconds before all but the first ones. -/
theorem sub?_of_le (a : Arithmetic) {x y : Int64} (hy : 0 ≤ y.toInt)
    (h : -2 ^ 63 ≤ x.toInt - y.toInt) : a.sub? x y = some (x - y) := by
  have hupper : x.toInt ≤ Int64.maxValue.toInt := x.toInt_le
  exact a.sub?_of_fits h (by omega)

/-! ## The lookups around a round -/

/-- A message goes round to everybody but one. Before that one key is looked up, and after it some
more, and what is found by these is used again. -/
def roundBetween (h : Hub) (t : Clock) (id : Nat) (m : Record) (before : String)
    (after : List String) : Hub :=
  after.foldl (fun h key => h.probeRecent t key) ((h.lookup before).2.broadcast t m (some id)).2

theorem timestamp_signed_limited (user : String) (limit : Nat) (m : Record) :
    (signed user (limited limit m)).timestamp = m.timestamp := by
  have hlimited : (limited limit m).timestamp = m.timestamp := by
    unfold limited
    split <;> rfl
  unfold signed
  split <;> exact hlimited

theorem probeBack_eq (h : Hub) (t : Clock) (user : String) :
    h.probeBack t user recentWindow =
      (recentKeys t user).foldl (fun h key => h.probeRecent t key) h := by
  rw [recentKeys, List.foldl_map]
  rfl

/-- Three seconds back there is a second, and so no build stops at the probes. -/
theorem probeBackUnder_eq {t : Clock} (htime : -2 ^ 63 + 3 ≤ t.unix.toInt) (a : Arithmetic)
    (h : Hub) (user : String) :
    h.probeBackUnder a t user recentWindow = (true, h.probeBack t user recentWindow) := by
  have hwindow : ∀ back ∈ recentWindow, 0 ≤ back.toInt ∧ back.toInt ≤ 3 := by
    rw [recentWindow]
    simp only [List.forall_mem_cons]
    exact ⟨⟨by decide, by decide⟩, ⟨by decide, by decide⟩, ⟨by decide, by decide⟩,
      List.forall_mem_nil _⟩
  unfold probeBack
  revert hwindow
  induction recentWindow generalizing h with
  | nil => exact fun _ => rfl
  | cons back rest ih =>
    intro hwindow
    obtain ⟨⟨hpos, hle⟩, hrest⟩ := List.forall_mem_cons.1 hwindow
    rw [probeBackUnder, sub?_of_le a hpos (by omega)]
    exact ih _ hrest

/-- A line goes round in every build that finds a second five seconds back. -/
theorem dispatchUnder_text {a : Arithmetic} {m : Record} {second : Int64} (hkind : m.kind = .text)
    (hsecond : a.sub? m.timestamp probeOffset = some second) {t : Clock}
    (htime : -2 ^ 63 + 3 ≤ t.unix.toInt) (h : Hub) (limit id : Nat) (user : String) :
    h.dispatchUnder a t limit id user m =
      (true, (h.recordReceived t id).roundBetween t id (relayed t limit user m)
        (RecentCache.makeId (relayed t limit user m).sender second) (recentKeys t user)) := by
  rw [← timestamp_signed_limited user limit m] at hsecond
  simp only [dispatchUnder, hkind, relayTextUnder, hsecond, probeBackUnder_eq htime, probeBack_eq,
    if_true, Option.isSome_some]
  rfl

/-- A build that finds none has booked the line, and that is all. -/
theorem dispatchUnder_text_of_none {a : Arithmetic} {m : Record} (hkind : m.kind = .text)
    (hnone : a.sub? m.timestamp probeOffset = none) (h : Hub) (t : Clock) (limit id : Nat)
    (user : String) :
    h.dispatchUnder a t limit id user m = (false, h.recordReceived t id) := by
  rw [← timestamp_signed_limited user limit m] at hnone
  simp only [dispatchUnder, hkind, relayTextUnder, hnone, Option.isSome_none]

/-- The seconds just before now, if there are any. -/
theorem recentKeys_eq {t : Clock} (htime : -2 ^ 63 + 3 ≤ t.unix.toInt) (user : String) :
    recentKeys t user = [1, 2, 3].map fun back => RecentCache.keyAt user (t.unix.toInt - back) := by
  have hkey : ∀ back : Int64, 0 ≤ back.toInt → back.toInt ≤ 3 →
      keyBack t user back = RecentCache.keyAt user (t.unix.toInt - back.toInt) := by
    intro back hpos hle
    rw [keyBack, RecentCache.makeId_eq_keyAt, toInt_sub_of_le hpos (by omega)]
  show [keyBack t user 1, keyBack t user 2, keyBack t user 3] = _
  rw [hkey 1 (by decide) (by decide), hkey 2 (by decide) (by decide),
    hkey 3 (by decide) (by decide)]
  rfl

/-- **A line is looked for five seconds back, if there is such a second.** Whatever comes in as a
whole record is one, with any second that there is. If it is a line of text, whoever sent it, and
unless the relay's time is one of the first three seconds: if a word holds the second five seconds
before that in the record, then in every build the line goes round between one lookup and three, the
one for what the sender said in that second, and the three for what the session's user said one, two
and three seconds before now. If not, a build that checks has booked the record and does nothing
more with it; and in a build for use the one lookup is for what the sender will say at the other end
of time, which is another key. -/
theorem line_probes {bytes : List UInt8} (hbytes : bytes.length = Record.size) :
    ∃ m, Record.decode bytes = .ok m ∧ (m.kind = .text →
      ∀ (h : Hub) (t : Clock) (limit id : Nat) (user : String), -2 ^ 63 + 3 ≤ t.unix.toInt →
        let sent := relayed t limit user m
        let back := m.timestamp.toInt - 5
        let rounded := fun second : Int =>
          (h.recordReceived t id).roundBetween t id sent (RecentCache.keyAt sent.sender second)
            ([1, 2, 3].map fun back => RecentCache.keyAt user (t.unix.toInt - back))
        (-2 ^ 63 ≤ back → ∀ a, h.dispatchUnder a t limit id user m = (true, rounded back)) ∧
          (back < -2 ^ 63 →
            h.dispatchUnder .checked t limit id user m = (false, h.recordReceived t id) ∧
              h.dispatchUnder .wrapping t limit id user m = (true, rounded (back + 2 ^ 64)) ∧
              RecentCache.keyAt sent.sender (back + 2 ^ 64) ≠
                RecentCache.keyAt sent.sender back)) := by
  obtain ⟨m, hm⟩ := Record.decode_of_length hbytes
  refine ⟨m, hm, fun hkind h t limit id user htime => ?_⟩
  intro sent back rounded
  have hoffset : probeOffset.toInt = 5 := by decide
  have hpos : 0 ≤ probeOffset.toInt := by decide
  -- Whatever second is found in place of the one five seconds back, the rest is the same.
  have hdispatch : ∀ (a : Arithmetic) (second : Int),
      a.sub? m.timestamp probeOffset = some (m.timestamp - probeOffset) →
      (m.timestamp - probeOffset).toInt = second →
      h.dispatchUnder a t limit id user m = (true, rounded second) := by
    intro a second hsecond hvalue
    rw [dispatchUnder_text hkind hsecond htime, recentKeys_eq htime, RecentCache.makeId_eq_keyAt,
      hvalue]
  constructor
  · intro hfits a
    have hback : -2 ^ 63 ≤ m.timestamp.toInt - probeOffset.toInt := hoffset ▸ hfits
    have hvalue : (m.timestamp - probeOffset).toInt = back := by
      rw [toInt_sub_of_le hpos hback, hoffset]
    exact hdispatch a back (sub?_of_le a hpos hback) hvalue
  · intro hpast
    have hback : m.timestamp.toInt - probeOffset.toInt < -2 ^ 63 := hoffset ▸ hpast
    refine ⟨?_, ?_, fun hsame => ?_⟩
    · exact dispatchUnder_text_of_none hkind (Arithmetic.checked_sub?_of_lt hback) h t limit id user
    · have hvalue : (m.timestamp - probeOffset).toInt = back + 2 ^ 64 := by
        rw [toInt_sub_of_lt hback, hoffset]
      exact hdispatch .wrapping (back + 2 ^ 64) rfl hvalue
    · have hvalues := (RecentCache.keyAt_eq_iff.1 hsame).2
      omega

/-- The first record with five seconds before it, and the last one without. -/
theorem line_probes_of_the_first_seconds :
    let t : Clock := ⟨-9223372036854775805, 5⟩
    let early := Record.make .text "ann" "hi" (-9223372036854775803)
    let tooEarly := Record.make .text "ann" "hi" (-9223372036854775804)
    let recent := ["bob_-9223372036854775806", "bob_-9223372036854775807",
      "bob_-9223372036854775808"]
    early.encode.length = Record.size ∧ tooEarly.encode.length = Record.size ∧
      -2 ^ 63 + 3 ≤ t.unix.toInt ∧ ∀ h : Hub,
        (∀ a, h.dispatchUnder a t 4095 1 "bob" early =
            (true, (h.recordReceived t 1).roundBetween t 1 (relayed t 4095 "bob" early)
              "ann_-9223372036854775808" recent)) ∧
          h.dispatchUnder .checked t 4095 1 "bob" tooEarly = (false, h.recordReceived t 1) ∧
          h.dispatchUnder .wrapping t 4095 1 "bob" tooEarly =
            (true, (h.recordReceived t 1).roundBetween t 1 (relayed t 4095 "bob" tooEarly)
              "ann_9223372036854775807" recent) := by
  intro t early tooEarly recent
  have hearly : Record.decode early.encode = .ok early :=
    Record.decode_encode_fitting rfl (by decide) (by decide) (by decide) (by decide)
  have htooEarly : Record.decode tooEarly.encode = .ok tooEarly :=
    Record.decode_encode_fitting rfl (by decide) (by decide) (by decide) (by decide)
  have htime : -2 ^ 63 + 3 ≤ t.unix.toInt := by decide
  refine ⟨early.length_encode, tooEarly.length_encode, htime, fun h => ⟨fun a => ?_, ?_, ?_⟩⟩
  · obtain ⟨m, hm, hline⟩ := line_probes early.length_encode
    obtain rfl := Except.ok.inj (hearly.symm.trans hm)
    exact (hline rfl h t 4095 1 "bob" htime).1 (by decide) a
  · obtain ⟨m, hm, hline⟩ := line_probes tooEarly.length_encode
    obtain rfl := Except.ok.inj (htooEarly.symm.trans hm)
    exact ((hline rfl h t 4095 1 "bob" htime).2 (by decide)).1
  · obtain ⟨m, hm, hline⟩ := line_probes tooEarly.length_encode
    obtain rfl := Except.ok.inj (htooEarly.symm.trans hm)
    exact ((hline rfl h t 4095 1 "bob" htime).2 (by decide)).2.1

/-- The cache knows of something that is to be said at the other end of time. A line with the first
second in it finds that in a build for use, although nothing was said five seconds before. In a
build that checks it is booked, and then neither looked for nor remembered. -/
theorem line_probes_the_far_future :
    let t : Clock := ⟨1700000000, 0⟩
    let h := (empty 4).run [.join t 0 1 "bob" none 16, .remember t "bob" "x" 9223372036854775803]
    let m := Record.make .text "" "hi" (-9223372036854775808)
    let meant := (h.recordReceived t 1).roundBetween t 1 (relayed t 4095 "bob" m)
      (RecentCache.keyAt "bob" (m.timestamp.toInt - 5))
      ([1, 2, 3].map fun back => RecentCache.keyAt "bob" (t.unix.toInt - back))
    let wrapped := h.dispatchUnder .wrapping t 4095 1 "bob" m
    let stopped := h.dispatchUnder .checked t 4095 1 "bob" m
    create 4 100 = .ok (empty 4) ∧ m.encode.length = Record.size ∧
      Record.decode m.encode = .ok m ∧ -2 ^ 63 + 3 ≤ t.unix.toInt ∧ t.unix.toInt + 3 < 2 ^ 63 ∧
      RecentCache.makeId "bob" (m.timestamp - probeOffset) = "bob_9223372036854775803" ∧
      RecentCache.keyAt "bob" (m.timestamp.toInt - 5) = "bob_-9223372036854775813" ∧
      meant.cache.hits = 0 ∧ meant.cache.misses = 4 ∧
      wrapped.1 = true ∧ wrapped.2.cache.hits = 1 ∧ wrapped.2.cache.misses = 3 ∧
      stopped.1 = false ∧ stopped.2.tally.received = 1 ∧ stopped.2.cache = h.cache ∧
      h.cache.hits = 0 ∧ h.cache.misses = 0 := by
  intro t h m meant wrapped stopped
  have hdecode : Record.decode m.encode = .ok m :=
    Record.decode_encode_fitting rfl (by decide) (by decide) (by decide) (by decide)
  exact ⟨rfl, m.length_encode, hdecode, by decide, by decide, by decide +kernel, by decide +kernel,
    by decide +kernel, by decide +kernel, by decide +kernel, by decide +kernel, by decide +kernel,
    by decide +kernel, by decide +kernel, by decide +kernel, by decide +kernel, by decide +kernel⟩

end ChatHub.Hub
