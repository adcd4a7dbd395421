import ChatHub.Proofs.Hub.Moves
import ChatHub.Proofs.Identity.Handover
/-!
# A line from one terminal to the others

Between the fingers of one person and the screen of another, a line is cut up to three times and
crosses the wire twice. The terminal cuts it to what a record can hold and sends it; the relay reads
the record, cuts it to its own limit, stamps it and hands it out; and each copy is written and read
again.

All of this is one fact about records, kept up from station to station: the record stands for the
line (`Record.StandsFor`), so its payload is the longest beginning of the line within a limit.
Cutting lowers the limit, stamping replaces the time, signing changes nothing because the record is
signed already, and the wire changes nothing because a line as it is typed has no NUL in it.
`Hub.line_arrives` puts the stations together.
-/

namespace ChatHub

/-- What is said is the line that was typed. -/
theorem Command.eq_of_parse_eq_say {line text : String} (h : parse line = .say text) :
    text = line := by
  unfold parse at h
  split_ifs at h
  split at h
  · unfold ofCount at h
    split at h
    · split at h <;> cases h
    · cases h
  · cases h
    rfl

theorem Terminal.step_typed {t : Terminal} (hopen : t.ended = none) (now : Int64) (line : String) :
    t.step now (.typed line) = t.obey now (Command.parse line) := by
  unfold step
  rw [hopen]
  rfl

theorem Terminal.sent_obey_say (t : Terminal) (now : Int64) (text : String) :
    (t.obey now (.say text)).sent = t.sent ++ [Terminal.textRecord t.user text now] := by
  dsimp only [obey]
  split
  · rfl
  · rfl

theorem BadUser.nul_notMem {user : String} (h : find? user = none) : '\x00' ∉ user.toList := by
  obtain ⟨-, -, hcontrol⟩ := find?_eq_none_iff.mp h
  intro hmem
  exact ne_of_not_control (hcontrol _ hmem) (by decide) rfl

/-! ## The record on its way -/

namespace Record

/-- The record is this line of that user, as much of it as a limit allows, sent at this time. -/
structure StandsFor (r : Record) (user line : String) (limit : Nat) (time : Int64) : Prop where
  kind : r.kind = .text
  sender : r.sender = user
  payload : Text.LongestWithin line limit r.payload
  payloadSize : r.payloadSize.toNat = r.payload.utf8ByteSize
  timestamp : r.timestamp = time

theorem payloadSize_withPayload (r : Record) (content : String) :
    (r.withPayload content).payloadSize.toNat = (r.withPayload content).payload.utf8ByteSize := by
  have hle : (Text.truncate content maxPayloadBytes).utf8ByteSize ≤ maxPayloadBytes :=
    Text.utf8ByteSize_truncate_le ..
  apply Nat.mod_eq_of_lt
  exact Nat.lt_of_le_of_lt hle (by decide)

namespace StandsFor

variable {r : Record} {user line : String} {limit : Nat} {time : Int64}

theorem textRecord (huser : user.utf8ByteSize ≤ maxSenderBytes) (line : String) (time : Int64) :
    (Terminal.textRecord user line time).StandsFor user line maxPayloadBytes time where
  kind := rfl
  sender := Text.truncate_of_le huser
  payload := Text.longestWithin_truncate line maxPayloadBytes
  payloadSize := payloadSize_withPayload _ line
  timestamp := rfl

/-- What fits in the limit of the relay also fits the field, so the field cuts nothing off. -/
theorem limited (h : r.StandsFor user line maxPayloadBytes time) (limit : Nat) :
    (Hub.limited limit r).StandsFor user line (min maxPayloadBytes limit) time := by
  unfold Hub.limited
  split
  · have hfield : Text.truncate (Text.truncate r.payload limit) maxPayloadBytes =
        Text.truncate r.payload limit := by
      apply Text.truncate_of_le
      rw [← Text.truncate_of_le h.payload.fits, Text.truncate_truncate]
      exact Nat.le_trans (Text.utf8ByteSize_truncate_le ..) (Nat.min_le_left ..)
    refine ⟨h.kind, h.sender, ?_, payloadSize_withPayload r _, h.timestamp⟩
    show Text.LongestWithin line _ (Text.truncate (Text.truncate r.payload limit) maxPayloadBytes)
    rw [hfield]
    exact h.payload.within (Text.longestWithin_truncate r.payload limit)
  · rename_i hfits
    have hself : Text.LongestWithin r.payload limit r.payload :=
      ⟨List.prefix_rfl, Nat.not_lt.mp hfits, fun _ hq _ => hq⟩
    exact ⟨h.kind, h.sender, h.payload.within hself, h.payloadSize, h.timestamp⟩

theorem signed (h : r.StandsFor user line limit time) (huser : user.isEmpty = false)
    (other : String) : Hub.signed other r = r := by
  unfold Hub.signed
  rw [h.sender, huser]
  rfl

theorem stamped (h : r.StandsFor user line limit time) (now : Int64) :
    ({ r with timestamp := now } : Record).StandsFor user line limit now :=
  { h with timestamp := rfl }

theorem decode_encode (h : r.StandsFor user line limit time) (hlimit : limit ≤ maxPayloadBytes)
    (huser : BadUser.find? user = none) (hline : '\x00' ∉ line.toList) :
    Record.decode r.encode = .ok r := by
  obtain ⟨-, hlong, -⟩ := BadUser.find?_eq_none_iff.mp huser
  have hsender : r.sender.utf8ByteSize < senderField := Nat.lt_succ_of_le (h.sender ▸ hlong)
  have hpayload : r.payload.utf8ByteSize < payloadField :=
    Nat.lt_succ_of_le (Nat.le_trans h.payload.fits hlimit)
  have hsender' : '\x00' ∉ r.sender.toList := h.sender ▸ BadUser.nul_notMem huser
  have hpayload' : '\x00' ∉ r.payload.toList := by
    intro hmem
    exact hline (h.payload.begins.subset hmem)
  have hkind : Kind.ofByte r.kind.toByte = r.kind := by
    rw [h.kind]
    rfl
  rw [Record.decode_encode, decodeText_encodeText hsender, decodeText_encodeText hpayload,
    Text.beforeNul_eq_self_iff.mpr hsender', Text.beforeNul_eq_self_iff.mpr hpayload', hkind]

end StandsFor

end Record

/-! ## What dealing with a line does to a client -/

namespace Hub

variable {h : Hub} {id : Nat} {m : Record}

/-- Everybody who is there when a line is dealt with undergoes two things. -/
theorem find?_dispatch_text (hkind : m.kind = .text) (h : Hub) (t : Clock) (limit id : Nat)
    (user : String) (other : Nat) :
    (h.dispatch t limit id user m).registry.find? other =
      ((h.registry.find? other).map ((HubMove.recordReceived t id).effect h)).map
        (Client.afterRound { signed user (limited limit m) with timestamp := t.unix }
          (some id)) := by
  rw [dispatch_eq_run, dealings, hkind]
  simp only [run, List.foldl_cons, List.foldl_nil, HubMove.find?_act, HubMove.seated]
  rfl

theorem dispatch_text_of_hasRoom (hkind : m.kind = .text) {d : Client}
    (hd : d ∈ h.registry.clients) (hid : d.id ≠ id) (hactive : d.active = true)
    (hroom : d.link.mailbox.hasRoom = true) (t : Clock) (limit : Nat) (user : String) :
    ∃ d', (h.dispatch t limit id user m).registry.find? d.id = some d' ∧
      d'.link.mailbox.queue =
        d.link.mailbox.queue ++ [{ signed user (limited limit m) with timestamp := t.unix }] := by
  rw [find?_dispatch_text hkind, Registry.find?_of_mem hd]
  generalize ({ signed user (limited limit m) with timestamp := t.unix } : Record) = sent
  have hbooked : (HubMove.recordReceived t id).effect h d = d := if_neg hid
  have haud : Registry.isAudience (some id) d = true := by
    apply Registry.isAudience_iff.mpr
    exact ⟨hactive, fun he => hid (Option.some.inj he).symm⟩
  have htaken : (d.deliver sent).1 = true := by
    simp [Client.deliver, Mailbox.offer, hroom]
  refine ⟨(d.deliver sent).2, ?_, ?_⟩
  · simp [hbooked, Client.afterRound, haud, htaken]
  · rw [Client.deliver_queue, htaken]
    rfl

theorem dispatch_text_of_self (hkind : m.kind = .text) (t : Clock) (limit : Nat) (user : String) :
    ((h.dispatch t limit id user m).registry.find? id).map (·.link.mailbox) =
      (h.registry.find? id).map (·.link.mailbox) := by
  rw [find?_dispatch_text hkind]
  cases hc : h.registry.find? id with
  | none => rfl
  | some c =>
    obtain ⟨-, rfl⟩ := Registry.find?_some hc
    have hbooked : (HubMove.recordReceived t c.id).effect h c = { c with lastActive := t.ms } :=
      if_pos rfl
    have haud : Registry.isAudience (some c.id) { c with lastActive := t.ms } = false := by
      simp [Registry.isAudience]
    rw [Option.map_some, Option.map_some, hbooked]
    simp [Client.afterRound, haud]

/-- **A line arrives as it was typed.** Whoever may call types a line without NUL that is no
command, and the relay deals with the record of it, whatever the state of the hub, the time and the
limit. Then everybody else who is active and has room gets one record more. It can be written and
read like the first, and it stands for as much of the line as the field and the limit both allow.
The one who typed gets nothing. -/
theorem line_arrives {terminal : Terminal} (hopen : terminal.ended = none)
    (huser : BadUser.find? terminal.user = none) {line text : String}
    (hsay : Command.parse line = .say text) (hline : '\x00' ∉ line.toList) (now : Int64)
    (h : Hub) (t : Clock) (limit id : Nat) (user : String) :
    ∃ m r, (terminal.step now (.typed line)).sent = terminal.sent ++ [m] ∧
      Record.decode m.encode = .ok r ∧
      let after := h.dispatch t limit id user r
      (∀ d ∈ h.registry.clients, d.id ≠ id → d.active = true → d.link.mailbox.hasRoom = true →
        ∃ d' sent got, after.registry.find? d.id = some d' ∧
          d'.link.mailbox.queue = d.link.mailbox.queue ++ [sent] ∧
          Record.decode sent.encode = .ok got ∧
          got.StandsFor terminal.user line (min maxPayloadBytes limit) t.unix) ∧
      (after.registry.find? id).map (·.link.mailbox) =
        (h.registry.find? id).map (·.link.mailbox) := by
  obtain ⟨hempty, hlong, -⟩ := BadUser.find?_eq_none_iff.mp huser
  obtain rfl := Command.eq_of_parse_eq_say hsay
  -- The record as it is sent, which is also the record as it is read.
  have hm := Record.StandsFor.textRecord hlong text now
  have hsent : (terminal.step now (.typed text)).sent =
      terminal.sent ++ [Terminal.textRecord terminal.user text now] := by
    rw [Terminal.step_typed hopen, hsay, Terminal.sent_obey_say]
  refine ⟨_, _, hsent, hm.decode_encode (Nat.le_refl _) huser hline, ?_, ?_⟩
  · intro d hd hid hactive hroom
    obtain ⟨d', hd', hqueue⟩ :=
      dispatch_text_of_hasRoom hm.kind hd hid hactive hroom t limit user
    have hcut := hm.limited limit
    rw [hcut.signed hempty] at hqueue
    have hstamped := hcut.stamped t.unix
    have hread := hstamped.decode_encode (Nat.min_le_left ..) huser hline
    exact ⟨d', _, _, hd', hqueue, hread, hstamped⟩
  · exact dispatch_text_of_self hm.kind t limit user

/-- The limit of three bytes falls inside the third character. The second client has one notice
waiting and room for another record; the one who typed has no room, and needs none. -/
theorem line_arrives_cut_inside_a_character :
    let terminal := Terminal.connected "zoë" ""
    let line := "smørrebrød"
    let t : Clock := ⟨9, 0⟩
    let h := (Hub.empty 2).run
      [.join t 0 1 "zoë" none 2, .join t 0 2 "bob" none 2, .join t 0 3 "eve" none 1]
    terminal.ended = none ∧ BadUser.find? terminal.user = none ∧
      Command.parse line = .say line ∧ '\x00' ∉ line.toList ∧
      ∃ m r, (terminal.step 5 (.typed line)).sent = terminal.sent ++ [m] ∧
        Record.decode m.encode = .ok r ∧
        ∃ d ∈ h.registry.clients, d.id = 2 ∧
          ∃ d' sent got, (h.dispatch t 3 1 "zoë" r).registry.find? d.id = some d' ∧
            d'.link.mailbox.queue = d.link.mailbox.queue ++ [sent] ∧
            Record.decode sent.encode = .ok got ∧ got.sender = "zoë" ∧ got.payload = "sm" ∧
            got.payloadSize.toNat = 2 ∧ got.timestamp = 9 := by
  intro terminal line t h
  have hopen : terminal.ended = none := rfl
  have huser : BadUser.find? terminal.user = none := by decide +kernel
  have hsay : Command.parse line = .say line := by decide +kernel
  have hline : '\x00' ∉ line.toList := by decide +kernel
  have hcut : Text.truncate line (min maxPayloadBytes 3) = "sm" := by decide +kernel
  have hbob : ∃ d ∈ h.registry.clients, d.id = 2 ∧ d.active = true ∧
      d.link.mailbox.hasRoom = true := by decide +kernel
  obtain ⟨m, r, hsent, hread, hothers, -⟩ := line_arrives hopen huser hsay hline 5 h t 3 1 "zoë"
  obtain ⟨d, hd, hid, hactive, hroom⟩ := hbob
  have hne : d.id ≠ 1 := by
    rw [hid]
    decide
  obtain ⟨d', sent, got, hd', hqueue, hgot, hstands⟩ := hothers d hd hne hactive hroom
  have hpayload : got.payload = "sm" :=
    (hstands.payload.unique (Text.longestWithin_truncate line _)).trans hcut
  have hsize : got.payloadSize.toNat = 2 := by
    rw [hstands.payloadSize, hpayload]
    rfl
  exact ⟨hopen, huser, hsay, hline, m, r, hsent, hread, d, hd, hid, d', sent, got, hd', hqueue,
    hgot, hstands.sender, hpayload, hsize, hstands.timestamp⟩

end Hub

end ChatHub
