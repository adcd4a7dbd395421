import ChatHub.Proofs.Hub.Relayed
import ChatHub.Proofs.Record.Framing
/-!
# What a client can make the hub do

The first byte of a record says what it is, and a client writes what it likes there. But only the
relay makes notices: of what a client sends nothing but lines of text ever comes to anybody else,
and they come as lines of text (`Hub.only_lines_reach_others`). A request for statistics is answered
to whoever asked, and any other record is booked and thrown away.

Each of the last two is said of the whole hub, by an equation (`dispatch_status`, `dispatch_other`).
-/

namespace ChatHub

/-- The client once a record came from it and these came for it. -/
def Client.heard (c : Client) (t : Clock) (rs : List Record) : Client :=
  { c with
    lastActive := t.ms
    link := { c.link with
      mailbox := { c.link.mailbox with queue := c.link.mailbox.queue ++ rs } } }

/-- What was copied in once need not be copied in again. -/
theorem Tally.syncCache_syncCache (tally : Tally) (hits misses : Nat) :
    (tally.syncCache hits misses).syncCache hits misses = tally.syncCache hits misses := by
  have hmax : ∀ a b : UInt64, max (max a b) b = max a b := by
    intro a b
    show (if (if a ≤ b then b else a) ≤ b then b else if a ≤ b then b else a) =
      if a ≤ b then b else a
    by_cases hab : a ≤ b
    · simp [hab]
    · simp [hab]
  simp only [syncCache, hmax]

namespace Hub

/-- A record that came in is booked, and whoever it came from is told `reply`; the totals become
`tally`. -/
def booked (h : Hub) (t : Clock) (id : Nat) (tally : Tally) (reply : Client → List Record) : Hub :=
  { h with
    registry := h.registry.update id (fun c => c.heard t (reply c)) fun _ => rfl
    tally
    gauges := { h.gauges with received := h.gauges.received + 1 } }

variable {h : Hub} {m : Record}

theorem dispatch_other (htext : m.kind ≠ .text) (hstatus : m.kind ≠ .status) (h : Hub) (t : Clock)
    (limit id : Nat) (user : String) :
    h.dispatch t limit id user m = h.booked t id h.tally.addReceived fun _ => [] := by
  have hheard : ∀ c : Client, c.heard t [] = { c with lastActive := t.ms } := by
    intro c
    simp [Client.heard]
  rw [dispatch_of_other h t limit id user htext hstatus]
  simp only [booked, hheard]
  rfl

/-- Totals that are up to date stay so, as long as nobody comes or goes. -/
theorem refreshTally_again (h : Hub) {r : Registry} (hr : r.size = h.registry.size) :
    refreshTally { h.refreshTally with registry := r } = { h.refreshTally with registry := r } := by
  have htally : (h.refreshTally.tally.setClients r.size).syncCache h.cache.hits h.cache.misses =
      h.refreshTally.tally := by
    rw [hr]
    exact Tally.syncCache_syncCache (h.tally.setClients h.registry.size) _ _
  exact congrArg (fun tally => { h with registry := r, tally }) htally

/-- The totals are brought up to date twice, but the second time they are. -/
theorem dispatch_status (hkind : m.kind = .status) (h : Hub) (t : Clock) (limit id : Nat)
    (user : String) :
    h.dispatch t limit id user m =
      h.booked t id (h.recordReceived t id).refreshTally.tally fun c =>
        if c.link.mailbox.hasRoom = true then [(h.recordReceived t id).statusReply t] else [] := by
  let received := h.recordReceived t id
  let reply := received.statusReply t
  let told := received.registry.update id (fun c => (c.deliver reply).2) fun c =>
    Client.deliver_id c reply
  have hdispatch : h.dispatch t limit id user m =
      { received.refreshTally with registry := told }.refreshTally :=
    dispatch_of_status h t limit id user hkind
  have hsize : told.size = received.registry.size := List.length_map _
  have htold : told = h.registry.update id
      (fun c => c.heard t (if c.link.mailbox.hasRoom = true then [reply] else []))
      fun _ => rfl := by
    have hboth : ∀ c : Client, (Client.deliver { c with lastActive := t.ms } reply).2 =
        c.heard t (if c.link.mailbox.hasRoom = true then [reply] else []) := fun c =>
      Client.deliver_eq _ _
    have htwice := Registry.update_update h.registry id (fun c => { c with lastActive := t.ms })
      (fun c => (c.deliver reply).2) (fun _ => rfl) fun c => Client.deliver_id c reply
    simp only [hboth] at htwice
    exact htwice
  rw [hdispatch, received.refreshTally_again hsize, htold]
  rfl

/-! ## One block after the other -/

/-- The hub once a session has dealt with what the blocks spell, each at its time. -/
def deal (h : Hub) (limit id : Nat) (user : String) : List (Clock × List UInt8) → Hub
  | [] => h
  | (t, block) :: blocks =>
    match Record.decode block with
    | .ok m => (h.dispatch t limit id user m).deal limit id user blocks
    | .error _ => h.deal limit id user blocks

/-- The line of text that a block spells, as it goes round. -/
def line? (limit : Nat) (user : String) (x : Clock × List UInt8) : Option Record :=
  match Record.decode x.2 with
  | .ok m => if m.kind = .text then some (relayed x.1 limit user m) else none
  | .error _ => none

theorem kind_of_line? {limit : Nat} {user : String} {x : Clock × List UInt8} {r : Record}
    (hr : line? limit user x = some r) : r.kind = .text := by
  unfold line? at hr
  split at hr
  · split at hr
    · rename_i htext
      cases hr
      exact (kind_relayed x.1 user).trans htext
    · cases hr
  · cases hr

theorem find?_booked (h : Hub) (t : Clock) (id : Nat) (tally : Tally)
    (reply : Client → List Record) {d : Client} (hd : d ∈ h.registry.clients) (hid : d.id ≠ id) :
    (h.booked t id tally reply).registry.find? d.id = some d := by
  have hfind := Registry.find?_update h.registry id (f := fun c => c.heard t (reply c))
    (fun _ => rfl) d.id
  rw [Registry.find?_of_mem hd, Option.map_some, if_neg hid] at hfind
  exact hfind

/-- Whatever it is that a session deals with, nobody else gets more than one line for it. -/
theorem queue_dispatch_of_ne (h : Hub) (t : Clock) (limit id : Nat) (user : String) (m : Record)
    {d : Client} (hd : d ∈ h.registry.clients) (hid : d.id ≠ id) :
    ∃ d' rs, (h.dispatch t limit id user m).registry.find? d.id = some d' ∧
      d'.link.mailbox.queue = d.link.mailbox.queue ++ rs ∧
      rs.Sublist (if m.kind = .text then [relayed t limit user m] else []) := by
  by_cases htext : m.kind = .text
  · obtain ⟨d', hd', hqueue⟩ := queue_dispatch_text htext t limit id user hd
    refine ⟨d', _, hd', hqueue, ?_⟩
    rw [if_pos htext]
    split
    · exact List.Sublist.refl _
    · exact List.nil_sublist _
  · have hfound : (h.dispatch t limit id user m).registry.find? d.id = some d := by
      by_cases hstatus : m.kind = .status
      · rw [dispatch_status hstatus]
        exact find?_booked h t id _ _ hd hid
      · rw [dispatch_other htext hstatus]
        exact find?_booked h t id _ _ hd hid
    exact ⟨d, [], hfound, (List.append_nil _).symm, List.nil_sublist _⟩

theorem queue_deal_of_ne (h : Hub) (limit id : Nat) (user : String)
    (blocks : List (Clock × List UInt8)) {d : Client} (hd : d ∈ h.registry.clients)
    (hid : d.id ≠ id) :
    ∃ d' rs, (h.deal limit id user blocks).registry.find? d.id = some d' ∧
      d'.link.mailbox.queue = d.link.mailbox.queue ++ rs ∧
      rs.Sublist (blocks.filterMap (line? limit user)) := by
  induction blocks generalizing h d with
  | nil =>
    exact ⟨d, [], Registry.find?_of_mem hd, (List.append_nil _).symm, List.nil_sublist _⟩
  | cons x blocks ih =>
    obtain ⟨t, block⟩ := x
    unfold deal
    rw [List.filterMap_cons]
    cases hm : Record.decode block with
    | error e =>
      have hline : line? limit user (t, block) = none := by
        simp only [line?, hm]
      rw [hline]
      exact ih h hd hid
    | ok m =>
      obtain ⟨d₁, first, hd₁, hfirst, hsub⟩ := queue_dispatch_of_ne h t limit id user m hd hid
      obtain ⟨hmem, hid₁⟩ := Registry.find?_some hd₁
      obtain ⟨d₂, rest, hd₂, hrest, hsub'⟩ :=
        ih (h.dispatch t limit id user m) hmem (hid₁ ▸ hid)
      rw [hid₁] at hd₂
      refine ⟨d₂, first ++ rest, hd₂, ?_, ?_⟩
      · rw [hrest, hfirst, List.append_assoc]
      · by_cases htext : m.kind = .text
        · have hline : line? limit user (t, block) = some (relayed t limit user m) := by
            simp only [line?, hm, if_pos htext]
          rw [if_pos htext] at hsub
          rw [hline]
          exact hsub.append hsub'
        · have hline : line? limit user (t, block) = none := by
            simp only [line?, hm, if_neg htext]
          rw [if_neg htext] at hsub
          rw [hline]
          exact hsub.append hsub'

theorem deal_block {block : List UInt8} (hblock : block.length = Record.size) (h : Hub)
    (limit id : Nat) (user : String) (t : Clock) :
    ∃ m, m.kind = Kind.ofByte (block.headD 0) ∧
      h.deal limit id user [(t, block)] = h.dispatch t limit id user m := by
  obtain ⟨m, hm⟩ := Record.decode_of_length hblock
  refine ⟨m, ?_, ?_⟩
  · rw [Record.decode, if_pos hblock] at hm
    exact (congrArg Record.kind (Except.ok.inj hm)).symm
  · unfold deal
    rw [hm]
    rfl

/-- **Clients cannot forge what the relay writes.** Whatever the state of the hub, a session deals
with any blocks of bytes. Everybody else is still there, and has got nothing but lines of text: some
of those that the blocks spell, in their order. If one block has the first byte of a request for
statistics, it is booked, and whoever sent it gets the statistics if there is room. If it is neither
that nor a line, it is booked. That is all that becomes of the hub, and neither of them can reach
anybody else, the cache, the rotation, or a switch or an active flag. -/
theorem only_lines_reach_others (h : Hub) (limit id : Nat) (user : String) :
    (∀ (blocks : List (Clock × List UInt8)), ∀ d ∈ h.registry.clients, d.id ≠ id →
      ∃ d' rs, (h.deal limit id user blocks).registry.find? d.id = some d' ∧
        d'.link.mailbox.queue = d.link.mailbox.queue ++ rs ∧
        rs.Sublist (blocks.filterMap (line? limit user)) ∧ ∀ r ∈ rs, r.kind = .text) ∧
    ∀ (t : Clock) (block : List UInt8), block.length = Record.size →
      (block.headD 0 = 6 →
        h.deal limit id user [(t, block)] =
          h.booked t id (h.recordReceived t id).refreshTally.tally fun c =>
            if c.link.mailbox.hasRoom = true then [(h.recordReceived t id).statusReply t]
            else []) ∧
      (block.headD 0 ≠ 1 → block.headD 0 ≠ 6 →
        h.deal limit id user [(t, block)] =
          h.booked t id h.tally.addReceived fun _ => []) := by
  refine ⟨fun blocks d hd hid => ?_, fun t block hblock => ?_⟩
  · obtain ⟨d', rs, hd', hqueue, hsub⟩ := queue_deal_of_ne h limit id user blocks hd hid
    refine ⟨d', rs, hd', hqueue, hsub, fun r hr => ?_⟩
    obtain ⟨x, -, hline⟩ := List.mem_filterMap.1 (hsub.subset hr)
    exact kind_of_line? hline
  · obtain ⟨m, hkind, hdeal⟩ := deal_block hblock h limit id user t
    have hbyte : m.kind.toByte = block.headD 0 := hkind ▸ Kind.toByte_ofByte _
    rw [hdeal]
    refine ⟨fun hsix => ?_, fun hone hsix => ?_⟩
    · refine dispatch_status ?_ h t limit id user
      rw [hkind, hsix]
      rfl
    · refine dispatch_other (fun htext => hone ?_) (fun hstatus => hsix ?_) h t limit id user
      · rw [← hbyte, htext]
        rfl
      · rw [← hbyte, hstatus]
        rfl

/-- Bob says that Ann has left, and then asks for the statistics. -/
theorem only_lines_reach_others_of_a_forged_notice :
    let h := (empty 4).run
      [.join ⟨9, 0⟩ 0 1 "ann" none 4, .join ⟨9, 0⟩ 0 2 "bob" none 4]
    let t : Clock := ⟨9, 0⟩
    let notice := (Record.leaveNotice "ann" 7).encode
    let question := (Record.make .status "bob" "" 7).encode
    ∃ d ∈ h.registry.clients, d.id = 1 ∧ d.id ≠ 2 ∧
      (∃ d' rs, (h.deal 100 2 "bob" [(t, notice), (t, question)]).registry.find? d.id = some d' ∧
        d'.link.mailbox.queue = d.link.mailbox.queue ++ rs ∧ ∀ r ∈ rs, r.kind = .text) ∧
      (notice.length = Record.size ∧ notice.headD 0 ≠ 1 ∧ notice.headD 0 ≠ 6 ∧
        h.deal 100 2 "bob" [(t, notice)] = h.booked t 2 h.tally.addReceived fun _ => []) ∧
      question.length = Record.size ∧ question.headD 0 = 6 ∧
        h.deal 100 2 "bob" [(t, question)] =
          h.booked t 2 (h.recordReceived t 2).refreshTally.tally fun c =>
            if c.link.mailbox.hasRoom = true then [(h.recordReceived t 2).statusReply t]
            else [] := by
  intro h t notice question
  obtain ⟨hlines, hblock⟩ := only_lines_reach_others h 100 2 "bob"
  obtain ⟨d, hd, hid⟩ : ∃ d ∈ h.registry.clients, d.id = 1 := by decide
  have hother : d.id ≠ 2 := hid ▸ by decide
  obtain ⟨d', rs, hfind, hqueue, -, hkinds⟩ := hlines [(t, notice), (t, question)] d hd hother
  have hnotice : notice.length = Record.size := Record.length_encode _
  have hquestion : question.length = Record.size := Record.length_encode _
  have hfirst : notice.headD 0 = 3 := rfl
  have hone : notice.headD 0 ≠ 1 := hfirst ▸ by decide
  have hsix : notice.headD 0 ≠ 6 := hfirst ▸ by decide
  exact ⟨d, hd, hid, hother, ⟨d', rs, hfind, hqueue, hkinds⟩,
    ⟨hnotice, hone, hsix, (hblock t notice hnotice).2 hone hsix⟩,
    hquestion, rfl, (hblock t question hquestion).1 rfl⟩

end Hub

end ChatHub
