import ChatHub.Settings.Basic
import ChatHub.Proofs.Hub.ChatLine
import ChatHub.Proofs.Hub.Isolation
import ChatHub.Proofs.RecentCache.Slots
import ChatHub.Proofs.Text.Received
/-!
# A line as the others read it

A record may come from anybody who can write to a socket, so its texts are whatever the bytes spell:
a field without a zero is a byte longer than a record made here can fill, and bytes that are no
characters become three bytes each. The relay sends the record on as it understood it. Whether the
others then read what was sent is a matter of what fits in its field.

The payload does. Settings that make sense keep it to what its field can hold, at the latest when
the relay cuts it to its own limit. The user id does too, so a line that came without a sender is
read as it was sent. But a sender that the record brought with it is sent on uncut, and is cut by
the byte on its way out, so the others read the beginning of it that fits its field, and perhaps a
U+FFFD for the character in the middle of which the field ended. The cache keeps the sender that was
sent (`Hub.relayed_reads_back_but_for_sender`).
-/

namespace ChatHub

/-! ## The limits -/

theorem Settings.bounds_of_valid {s : Settings} (h : s.validate = .ok ()) :
    s.cacheCapacity ≠ 0 ∧ s.timeQuantumMs ≠ 0 ∧ s.maxUserBytes ≤ maxSenderBytes ∧
      s.maxPayloadBytes ≤ ChatHub.maxPayloadBytes := by
  have hnone : s.checks.find? (·.2) = none := by
    unfold validate at h
    split at h
    · cases h
    · assumption
  have hall := List.find?_eq_none.1 hnone
  simp only [checks, List.forall_mem_cons, beq_iff_eq, Bool.or_eq_true, decide_eq_true_eq,
    not_or, Nat.not_lt] at hall
  obtain ⟨-, -, -, -, hcache, hquantum, -, -, huser, hpayload, -⟩ := hall
  exact ⟨hcache, hquantum, huser.2, hpayload.2⟩

theorem Settings.valid_standard : Settings.standard.validate = .ok () := by
  have hnone : Settings.standard.checks.find? (·.2) = none := by decide +kernel
  rw [validate, hnone]

/-- A user id that was accepted is within the limit and holds no NUL. -/
theorem Identity.user_of_parse {bytes : List UInt8} {max : Nat} {caller : Identity}
    (h : parse bytes max = .ok caller) :
    '\x00' ∉ caller.user.toList ∧ caller.user.utf8ByteSize ≤ max := by
  have hraw : 0 ∉ (splitAtZero bytes).1 := by
    intro hmem
    exact absurd (List.mem_takeWhile_imp hmem) (by decide)
  have hnul : '\x00' ∉ (userOf (splitAtZero bytes).1).toList := by
    rw [userOf, String.toList_ofList, Text.dropEndWhile, List.mem_reverse]
    intro hmem
    have hread := List.mem_reverse.1 ((List.dropWhile_sublist _).subset hmem)
    exact Utf8.nul_notMem_decodeChars hraw hread
  obtain ⟨rfl, -, hfits⟩ := parse_eq_ok_iff.1 h
  exact ⟨hnul, hfits⟩

/-! ## Records that are read -/

namespace Record

theorem nul_notMem_decodeText (field : List UInt8) : '\x00' ∉ (decodeText field).toList := by
  rw [decodeText, Utf8.decode, String.toList_ofList]
  apply Utf8.nul_notMem_decodeChars
  intro hmem
  exact absurd (List.mem_takeWhile_imp hmem) (by decide)

/-- No text of a record that was read holds a NUL. -/
theorem nul_notMem_of_decode {bytes : List UInt8} {m : Record} (h : decode bytes = .ok m) :
    '\x00' ∉ m.sender.toList ∧ '\x00' ∉ m.payload.toList := by
  unfold decode at h
  split at h
  · obtain rfl := Except.ok.inj h
    exact ⟨nul_notMem_decodeText _, nul_notMem_decodeText _⟩
  · cases h

/-- A text without NUL is read back as far as its field goes. -/
theorem decodeText_encodeText_cut {s : String} (h : '\x00' ∉ s.toList) (limit : Nat) :
    decodeText (encodeText (limit + 1) s) = Text.received limit s := by
  have hkeep : ((Utf8.encode s).take limit).takeWhile (· != 0) = (Utf8.encode s).take limit :=
    takeWhile_of_zero_notMem fun hmem =>
      Utf8.zero_notMem_encodeChars h (List.mem_of_mem_take hmem)
  rw [decodeText, encodeText, Nat.add_sub_cancel, takeWhile_append_zeros, hkeep,
    Text.decode_take_encode]

/-- A record whose texts hold no NUL, and whose payload fits, loses nothing but what its sender has
too much. -/
theorem decode_encode_of_fits {r : Record} (hkind : Kind.ofByte r.kind.toByte = r.kind)
    (hsender : '\x00' ∉ r.sender.toList) (hpayload : '\x00' ∉ r.payload.toList)
    (hfits : r.payload.utf8ByteSize ≤ maxPayloadBytes) :
    decode r.encode = .ok { r with sender := Text.received maxSenderBytes r.sender } := by
  rw [decode_encode, hkind, senderField, decodeText_encodeText_cut hsender, payloadField,
    decodeText_encodeText_cut hpayload, Text.received_of_le hfits]

/-- Such a record is read back as it is if its sender fits the field, or looks like one that broke
off there. -/
theorem decode_encode_eq_self_iff {r : Record} (hkind : Kind.ofByte r.kind.toByte = r.kind)
    (hsender : '\x00' ∉ r.sender.toList) (hpayload : '\x00' ∉ r.payload.toList)
    (hfits : r.payload.utf8ByteSize ≤ maxPayloadBytes) :
    decode r.encode = .ok r ↔ r.sender.utf8ByteSize ≤ maxSenderBytes ∨
      ∃ kept : String, kept.utf8ByteSize < maxSenderBytes ∧ r.sender = kept ++ "\uFFFD" := by
  rw [decode_encode_of_fits hkind hsender hpayload hfits, ← Text.received_eq_self_iff]
  constructor
  · intro h
    exact congrArg sender (Except.ok.inj h)
  · intro h
    rw [h]

theorem decode_encode_fitting {r : Record} (hkind : Kind.ofByte r.kind.toByte = r.kind)
    (hsender : '\x00' ∉ r.sender.toList) (hpayload : '\x00' ∉ r.payload.toList)
    (hsenderFits : r.sender.utf8ByteSize ≤ maxSenderBytes)
    (hpayloadFits : r.payload.utf8ByteSize ≤ maxPayloadBytes) : decode r.encode = .ok r := by
  rw [decode_encode_of_fits hkind hsender hpayload hpayloadFits, Text.received_of_le hsenderFits]

end Record

/-! ## What the cache says was sent -/

namespace RecentCache

variable {c : RecentCache}

/-- Who said what, according to the entry of an id. -/
def said (c : RecentCache) (id : String) : Option (String × String) :=
  (c.peek id).map fun e => (e.sender, e.content)

theorem said_lookup (c : RecentCache) (id other : String) :
    (c.lookup id).2.said other = c.said other := by
  unfold lookup
  split <;> rfl

theorem said_refresh (c : RecentCache) (now : Nat) (id other : String) :
    (c.refresh now id).said other = c.said other := by
  unfold refresh
  split
  · rfl
  · rename_i slot _
    unfold said peek slotOf?
    cases c.index.lookup other with
    | none => rfl
    | some place =>
      simp only [Option.bind_some, List.getElem?_modify]
      cases c.slots[place]? with
      | none => simp
      | some e => cases hvalid : e.valid <;> by_cases heq : slot = place <;>
        simp [hvalid, heq, Option.filter_some]

theorem said_probe (c : RecentCache) (now : Nat) (id other : String) :
    (c.probe now id).said other = c.said other := by
  unfold probe
  split
  · rw [said_refresh, said_lookup]
  · exact c.said_lookup id other

/-- A message that is remembered is found under its id, unless the id was taken. -/
theorem Kept.said_keep (h : c.Kept) (hcap : 0 < c.capacity) (t : Clock) (m : Record) :
    (c.keep t m).said (makeId m.sender m.timestamp) =
      some ((c.said (makeId m.sender m.timestamp)).getD (m.sender, m.payload)) := by
  have h' : (c.keep t m).Kept := h.insert hcap t.ms m.sender m.payload m.timestamp
  have hnothing (hnew : makeId m.sender m.timestamp ∉ c.live.map (·.id)) :
      c.said (makeId m.sender m.timestamp) = none := by
    rw [said, Option.map_eq_none_iff, Option.eq_none_iff_forall_ne_some]
    intro e he
    obtain ⟨hmem, hid⟩ := h.peek_eq_some_iff.1 he
    exact hnew (List.mem_map.2 ⟨e, hmem, hid⟩)
  have hfresh (e : CacheEntry) (hmem : e ∈ (c.keep t m).live)
      (hid : e.id = makeId m.sender m.timestamp)
      (hsaid : (e.sender, e.content) = (m.sender, m.payload)) :
      (c.keep t m).said (makeId m.sender m.timestamp) = some (m.sender, m.payload) := by
    rw [said, h'.peek_eq_some_iff.2 ⟨hmem, hid⟩, Option.map_some, hsaid]
  rcases h.insert_cases hcap t.ms m.sender m.payload m.timestamp with
    ⟨hold, heq⟩ | ⟨hnew, -, heq⟩ | ⟨hnew, -, victim, hvictim, -, heq⟩
  · obtain ⟨e, hmem, hid⟩ := List.mem_map.1 hold
    rw [keep, heq, said, h.peek_eq_some_iff.2 ⟨hmem, hid⟩]
    rfl
  · rw [hnothing hnew]
    refine hfresh (c.fresh t.ms m.sender m.payload m.timestamp) ?_ rfl rfl
    rw [keep, heq, h.live_filled]
    exact List.mem_concat_self
  · rw [hnothing hnew]
    refine hfresh (c.fresh t.ms m.sender m.payload m.timestamp) ?_ rfl rfl
    rw [keep, heq]
    exact (draws_evicting hvictim rfl).live.mem_iff.2 List.mem_cons_self

/-- What every move needs of a cache, and keeps. -/
structure Ready (c : RecentCache) : Prop where
  kept : c.Kept
  room : 0 < c.capacity

namespace Ready

theorem after (h : c.Ready) (μ : CacheMove) : (c.after μ).Ready where
  kept := h.kept.after h.room μ
  room := (c.capacity_after μ).symm ▸ h.room

theorem keep (h : c.Ready) (t : Clock) (m : Record) : (c.keep t m).Ready :=
  h.after (.insert t.ms m.sender m.payload m.timestamp)

theorem probe (h : c.Ready) (now : Nat) (id : String) : (c.probe now id).Ready := by
  unfold RecentCache.probe
  split
  · exact (h.after (.lookup id)).after (.refresh now id)
  · exact h.after (.lookup id)

theorem cacheAfter (h : c.Ready) (μ : HubMove) : (μ.cacheAfter c).Ready := by
  cases μ with
  | join t now id user addr capacity => exact h.keep t _
  | leave t id user => exact h.keep t _
  | broadcast t m excluding => exact h.keep t m
  | relayText t id user m =>
    exact ((((h.after (.lookup _)).keep t _).probe t.ms _).probe t.ms _).probe t.ms _
  | lookup id => exact h.after (.lookup id)
  | remember t sender content timestamp => exact h.after (.insert t.ms sender content timestamp)
  | refresh t id => exact h.after (.refresh t.ms id)
  | forget => exact h.after .clear
  | _ => exact h

end Ready

end RecentCache

namespace Hub

theorem ready_run {h : Hub} (hready : h.cache.Ready) (μs : List HubMove) :
    (h.run μs).cache.Ready := by
  induction μs generalizing h with
  | nil => exact hready
  | cons μ μs ih => exact ih (HubMove.cache_act h μ ▸ hready.cacheAfter μ)

theorem ready_empty {capacity : Nat} (h : capacity ≠ 0) : (empty capacity).cache.Ready where
  kept := .empty capacity
  room := Nat.pos_of_ne_zero h

/-! ## What goes round -/

/-- The record that goes round for a line of text. -/
def relayed (t : Clock) (limit : Nat) (user : String) (m : Record) : Record :=
  { signed user (limited limit m) with timestamp := t.unix }

section Relayed

variable {m : Record} (t : Clock) {limit : Nat} (user : String)

theorem kind_relayed : (relayed t limit user m).kind = m.kind := by
  have hlimited : (limited limit m).kind = m.kind := by
    unfold limited
    split <;> rfl
  show (signed user (limited limit m)).kind = m.kind
  unfold signed
  split <;> exact hlimited

theorem sender_relayed {user : String} (huser : user.utf8ByteSize ≤ maxSenderBytes) :
    (relayed t limit user m).sender = if m.sender.isEmpty then user else m.sender := by
  have hlimited : (limited limit m).sender = m.sender := by
    unfold limited
    split <;> rfl
  show (signed user (limited limit m)).sender = _
  unfold signed
  rw [hlimited]
  split
  · exact Text.truncate_of_le huser
  · exact hlimited

theorem payload_relayed (hlimit : limit ≤ maxPayloadBytes) :
    (relayed t limit user m).payload = Text.truncate m.payload limit := by
  have hsigned : (relayed t limit user m).payload = (limited limit m).payload := by
    show (signed user (limited limit m)).payload = _
    unfold signed
    split <;> rfl
  rw [hsigned, limited]
  split
  · show Text.truncate (Text.truncate m.payload limit) maxPayloadBytes = _
    rw [Text.truncate_truncate, Nat.min_eq_left hlimit]
  · rename_i hfits
    exact (Text.truncate_of_le (Nat.not_lt.1 hfits)).symm

end Relayed

theorem queue_dispatch_text {h : Hub} {m : Record} (hkind : m.kind = .text) (t : Clock)
    (limit id : Nat) (user : String) {d : Client} (hd : d ∈ h.registry.clients) :
    ∃ d', (h.dispatch t limit id user m).registry.find? d.id = some d' ∧
      d'.link.mailbox.queue = d.link.mailbox.queue ++
        if d.id ≠ id ∧ d.active = true ∧ d.link.mailbox.hasRoom = true then
          [relayed t limit user m]
        else [] := by
  rw [find?_dispatch_text hkind, Registry.find?_of_mem hd]
  -- That a record came is booked before it goes round. Neither the link nor the audience changes.
  obtain ⟨c, hbooked, hid, hactive, hlink⟩ : ∃ c,
      (HubMove.recordReceived t id).effect h d = c ∧ c.id = d.id ∧ c.active = d.active ∧
        c.link = d.link := by
    show ∃ c, (if d.id = id then { d with lastActive := t.ms } else d) = c ∧ _
    split <;> exact ⟨_, rfl, rfl, rfl, rfl⟩
  have haud : Registry.isAudience (some id) c = true ↔ d.id ≠ id ∧ d.active = true := by
    rw [Registry.isAudience_iff, hid, hactive, and_comm, ne_eq, Option.some_inj, eq_comm]
  refine ⟨_, rfl, ?_⟩
  rw [hbooked]
  show (c.afterRound (relayed t limit user m) (some id)).link.mailbox.queue = _
  rw [Client.queue_afterRound, hlink]
  simp only [haud, and_assoc]

theorem said_dispatch_text {h : Hub} (hready : h.cache.Ready) {m : Record} (hkind : m.kind = .text)
    (t : Clock) (limit id : Nat) (user : String) :
    let sent := relayed t limit user m
    let key := RecentCache.makeId sent.sender sent.timestamp
    (h.dispatch t limit id user m).cache.said key =
      some ((h.cache.said key).getD (sent.sender, sent.payload)) := by
  intro sent key
  let before := RecentCache.makeId (signed user (limited limit m)).sender
    ((signed user (limited limit m)).timestamp - probeOffset)
  have hlooked := hready.after (.lookup before)
  have hcache : (h.dispatch t limit id user m).cache =
      recentWindow.foldl (fun c back => c.probe t.ms (RecentCache.makeId user (t.unix - back)))
        ((h.cache.lookup before).2.keep t sent) := by
    rw [dispatch_eq_run, dealings, hkind]
    simp only [run, List.foldl_cons, List.foldl_nil, HubMove.cache_act]
    rfl
  rw [hcache]
  simp only [recentWindow, List.foldl_cons, List.foldl_nil, RecentCache.said_probe]
  show ((h.cache.after (.lookup before)).keep t sent).said key = _
  rw [hlooked.kept.said_keep hlooked.room]
  show some (((h.cache.lookup before).2.said key).getD _) = _
  rw [RecentCache.said_lookup]

/-- **Of a line, only its sender can be read otherwise than it was sent.** Under settings that make
sense, for a caller whose user id was accepted, and for any record of a line that can come in: in
every state that a hub can get into, dealing with the record puts one and the same record at the end
of the queue of everybody else who is active and has room, and under its key the cache has its
sender and payload, unless the key was taken. The payload is what the limit leaves of the one that
came. The record is read back with that payload, and with as much of the sender as its field holds.
So it is read back as it was sent exactly if the sender that came fits the field, or looks like one
that broke off there. -/
theorem relayed_reads_back_but_for_sender {s : Settings} (valid : s.validate = .ok ())
    {greeting : List UInt8} {caller : Identity}
    (named : Identity.parse greeting s.maxUserBytes = .ok caller) {bytes : List UInt8} {m : Record}
    (came : Record.decode bytes = .ok m) (hkind : m.kind = .text) :
    ∃ start, create s.cacheCapacity s.timeQuantumMs = .ok start ∧
      ∀ (μs : List HubMove) (t : Clock) (id : Nat),
        let h := start.run μs
        let after := h.dispatch t s.maxPayloadBytes id caller.user m
        let sent := relayed t s.maxPayloadBytes caller.user m
        let key := RecentCache.makeId sent.sender sent.timestamp
        (∀ d ∈ h.registry.clients, ∃ d', after.registry.find? d.id = some d' ∧
          d'.link.mailbox.queue = d.link.mailbox.queue ++
            if d.id ≠ id ∧ d.active = true ∧ d.link.mailbox.hasRoom = true then [sent] else []) ∧
        after.cache.said key = some ((h.cache.said key).getD (sent.sender, sent.payload)) ∧
        sent.sender = (if m.sender.isEmpty then caller.user else m.sender) ∧
        sent.payload = Text.truncate m.payload s.maxPayloadBytes ∧
        Record.decode sent.encode =
          .ok { sent with sender := Text.received maxSenderBytes sent.sender } ∧
        (Record.decode sent.encode = .ok sent ↔ m.sender.utf8ByteSize ≤ maxSenderBytes ∨
          ∃ kept : String, kept.utf8ByteSize < maxSenderBytes ∧ m.sender = kept ++ "\uFFFD") := by
  obtain ⟨hcache, hquantum, huserLimit, hpayloadLimit⟩ := Settings.bounds_of_valid valid
  obtain ⟨huserNul, huserFits⟩ := Identity.user_of_parse named
  obtain ⟨hsenderNul, hpayloadNul⟩ := Record.nul_notMem_of_decode came
  refine ⟨_, create_eq_empty hcache hquantum, fun μs t id => ?_⟩
  intro h after sent key
  have huser : caller.user.utf8ByteSize ≤ maxSenderBytes := Nat.le_trans huserFits huserLimit
  have hsender : sent.sender = if m.sender.isEmpty then caller.user else m.sender :=
    sender_relayed t huser
  have hpayload : sent.payload = Text.truncate m.payload s.maxPayloadBytes :=
    payload_relayed t caller.user hpayloadLimit
  -- What the record has to have for the others to read its payload, and its kind.
  have hsentKind : Kind.ofByte sent.kind.toByte = sent.kind := by
    have hsame : sent.kind = m.kind := kind_relayed t caller.user
    rw [hsame, hkind]
    rfl
  have hsentNul : '\x00' ∉ sent.sender.toList := by
    rw [hsender]
    split
    · exact huserNul
    · exact hsenderNul
  have hcut := Text.longestWithin_truncate m.payload s.maxPayloadBytes
  rw [← hpayload] at hcut
  have hpayloadNul' : '\x00' ∉ sent.payload.toList :=
    fun hmem => hpayloadNul (hcut.begins.subset hmem)
  have hpayloadFits : sent.payload.utf8ByteSize ≤ ChatHub.maxPayloadBytes :=
    Nat.le_trans hcut.fits hpayloadLimit
  refine ⟨fun d hd => queue_dispatch_text hkind t _ id caller.user hd,
    said_dispatch_text (ready_run (ready_empty hcache) μs) hkind t _ id caller.user,
    hsender, hpayload, Record.decode_encode_of_fits hsentKind hsentNul hpayloadNul' hpayloadFits,
    ?_⟩
  rw [Record.decode_encode_eq_self_iff hsentKind hsentNul hpayloadNul' hpayloadFits, hsender]
  split
  · rename_i hempty
    -- The user id fits, and a sender that did not come has no bytes.
    refine iff_of_true (.inl huser) (.inl ?_)
    rw [String.isEmpty_iff.1 hempty]
    exact Nat.zero_le _
  · exact Iff.rfl

/-- A sender that fills its field, with no zero behind it. The last of its bytes is the second byte
of a character, and does not fit when the record is written. -/
theorem relayed_reads_back_but_for_sender_of_a_whole_field :
    let s := Settings.standard
    let name := String.ofList (List.replicate 62 'a' ++ ['\u00e9'])
    let plain := Record.make .text "" "hi" 7
    let bytes := plain.encode.take 12 ++ Utf8.encode name ++ plain.encode.drop 76
    let joins : List HubMove := [.join ⟨9, 0⟩ 0 1 "bob" none 4, .join ⟨9, 0⟩ 0 2 "ann" none 4]
    s.validate = .ok () ∧
      Identity.parse (Terminal.greeting "bob" ++ [1]) s.maxUserBytes = .ok ⟨"bob", [1]⟩ ∧
      Record.decode bytes = .ok { plain with sender := name } ∧
      ∃ start, create s.cacheCapacity s.timeQuantumMs = .ok start ∧
        let after := (start.run joins).dispatch ⟨9, 0⟩ s.maxPayloadBytes 1 "bob"
          { plain with sender := name }
        ∃ d sent got, after.registry.find? 2 = some d ∧ d.link.mailbox.queue = [sent] ∧
          sent.sender = name ∧ sent.payload = "hi" ∧
          after.cache.said (RecentCache.makeId name 9) = some (name, "hi") ∧
          Record.decode sent.encode = .ok got ∧ got.payload = "hi" ∧
          got.sender = String.ofList (List.replicate 62 'a' ++ ['\ufffd']) := by
  intro s name plain bytes joins
  have valid : s.validate = .ok () := by
    have hnone : s.checks.find? (·.2) = none := by decide +kernel
    rw [Settings.validate, hnone]
  have named : Identity.parse (Terminal.greeting "bob" ++ [1]) s.maxUserBytes = .ok ⟨"bob", [1]⟩ :=
    Identity.parse_greeting (by decide) (by decide) [1]
  have hplain : Record.decode plain.encode = .ok plain :=
    Record.decode_encode_fitting rfl (by decide) (by decide) (by decide) (by decide)
  have came : Record.decode bytes = .ok { plain with sender := name } :=
    Record.decode_whole_sender hplain (by decide +kernel) (by decide +kernel)
  obtain ⟨start, hstart, hall⟩ := relayed_reads_back_but_for_sender valid named came rfl
  refine ⟨valid, named, came, start, hstart, ?_⟩
  obtain ⟨hqueues, hsaid, hsender, hpayload, hread, -⟩ := hall joins ⟨9, 0⟩ 1
  obtain rfl := eq_empty_of_create hstart
  obtain ⟨d, hd, hid, hactive, hroom, hempty⟩ :
      ∃ d ∈ ((empty s.cacheCapacity).run joins).registry.clients,
        d.id = 2 ∧ d.active = true ∧ d.link.mailbox.hasRoom = true ∧ d.link.mailbox.queue = [] := by
    decide +kernel
  obtain ⟨d', hd', hqueue⟩ := hqueues d hd
  rw [hid] at hd' hqueue
  rw [hempty, if_pos ⟨by decide, hactive, hroom⟩] at hqueue
  -- What the theorem says about this name and this payload.
  replace hsender := hsender.trans (show _ = name by decide +kernel)
  replace hpayload := hpayload.trans (show _ = "hi" by decide +kernel)
  have hcut : Text.received maxSenderBytes name =
      String.ofList (List.replicate 62 'a' ++ ['\ufffd']) := by decide +kernel
  have hnew : ((empty s.cacheCapacity).run joins).cache.said (RecentCache.makeId name 9) = none :=
    by decide +kernel
  rw [hsender] at hread hsaid
  rw [hcut] at hread
  rw [hpayload] at hsaid
  refine ⟨d', _, _, hd', hqueue, hsender, hpayload, ?_, hread, hpayload, rfl⟩
  refine hsaid.trans ?_
  show some
    ((((empty s.cacheCapacity).run joins).cache.said (RecentCache.makeId name 9)).getD _) = _
  rw [hnew]
  rfl

/-- A sender of 64 letters is sent on with all of them, and read back with one less. -/
theorem relayed_sender_loses_a_letter :
    let name := String.ofList (List.replicate 64 'a')
    let plain := Record.make .text "" "hi" 7
    let bytes := plain.encode.take 12 ++ Utf8.encode name ++ plain.encode.drop 76
    ∃ m got, Record.decode bytes = .ok m ∧ m.kind = .text ∧
      let sent := relayed ⟨9, 0⟩ maxPayloadBytes "bob" m
      sent.sender = name ∧ Record.decode sent.encode = .ok got ∧
      got.sender = String.ofList (List.replicate 63 'a') := by
  intro name plain bytes
  have hplain : Record.decode plain.encode = .ok plain :=
    Record.decode_encode_fitting rfl (by decide) (by decide) (by decide) (by decide)
  have came : Record.decode bytes = .ok { plain with sender := name } :=
    Record.decode_whole_sender hplain (by decide +kernel) (by decide +kernel)
  refine ⟨_, _, came, rfl, ?_, Record.decode_encode _, ?_⟩
  · decide +kernel
  · decide +kernel

end Hub

end ChatHub
