import ChatHub.Proofs.Hub.Relayed
import ChatHub.Proofs.Record.Canonical
/-!
# What the relay says itself

Three records are written by the relay and not by a peer: the notice that somebody came, the notice
that somebody went, and the reply to a request for statistics. Their texts are made up here, so
nobody but the relay is to blame if one of them does not fit its field.

They all fit. A user id that was accepted leaves room for the words of a notice, and holds no NUL.
The banner is made of numbers, and a number of 64 bits has twenty digits at most; so it is short
whatever was counted, and only how the hit rate is written has to be asked about. So the others read
exactly what was written (`Hub.announcements_read_back`).

For the rate hits and misses are added up, and no word may hold them together. A build for use goes
on with the sum that it wraps around to, and a build that checks has no banner then and replies
nothing.

That a newcomer is known by the same name in the registry, in the rotation and in the notice needs
one thing more, that registry and rotation know the same ids (`Hub.SameIds`). It is kept by every
move, also when somebody joins under an id that is taken, which is when names can differ.
-/

namespace ChatHub

/-! ## Short texts -/

namespace Text

/-- No character takes more than four bytes. -/
theorem utf8ByteSize_le_length (s : String) : s.utf8ByteSize ≤ 4 * s.length := by
  rw [← Utf8.length_encode, Utf8.encode, ← String.length_toList]
  induction s.toList with
  | nil => exact Nat.zero_le _
  | cons c cs ih =>
    have hc : (Utf8.encodeChar c).length ≤ 4 := Utf8.length_encodeChar c ▸ c.utf8Size_le_four
    rw [Utf8.encodeChars_cons, List.length_append, List.length_cons]
    omega

theorem nul_notMem_numeral (n : Nat) : '\x00' ∉ (toString n).toList := by
  rw [Nat.toString_eq_ofList_toDigits, String.toList_ofList]
  intro hmem
  exact absurd (Nat.isDigit_of_mem_toDigits (by decide) (by decide) hmem) (by decide)

/-- A text of at most `n` characters, none of them NUL. -/
structure Brief (n : Nat) (s : String) : Prop where
  nul : '\x00' ∉ s.toList
  length : s.length ≤ n

instance Brief.decidable (n : Nat) (s : String) : Decidable (Brief n s) :=
  decidable_of_iff ('\x00' ∉ s.toList ∧ s.length ≤ n) ⟨fun h => ⟨h.1, h.2⟩, fun h => ⟨h.1, h.2⟩⟩

namespace Brief

variable {m n : Nat} {s t : String}

theorem mono (h : Brief m s) (hmn : m ≤ n) : Brief n s := ⟨h.nul, Nat.le_trans h.length hmn⟩

theorem append (hs : Brief m s) (ht : Brief n t) : Brief (m + n) (s ++ t) where
  nul := by
    rw [String.toList_append, List.mem_append]
    exact fun h => h.elim hs.nul ht.nul
  length := by
    rw [String.length_append]
    exact Nat.add_le_add hs.length ht.length

/-- A number has no more digits than the bound it is below. -/
theorem numeral {number : Nat} (hn : 0 < n) (h : number < 10 ^ n) : Brief n (toString number) where
  nul := nul_notMem_numeral number
  length := (Nat.length_repr_le_iff hn).mpr h

/-- Lines, each with its line break. -/
theorem intercalate {lines : List String} (h : ∀ line ∈ lines, Brief n line) :
    Brief (lines.length * (n + 1)) ("\n".intercalate lines) := by
  induction lines with
  | nil => exact ⟨by simp, by simp⟩
  | cons line lines ih =>
    obtain ⟨hline, hlines⟩ := List.forall_mem_cons.mp h
    cases lines with
    | nil =>
      rw [String.intercalate_singleton]
      exact hline.mono (by simp)
    | cons next lines =>
      have hbreak : Brief 1 "\n" := by decide
      rw [String.intercalate_cons_cons]
      exact ((hline.append hbreak).append (ih hlines)).mono
        (Nat.le_of_eq ((Nat.add_comm ..).trans (Nat.succ_mul ..).symm))

theorem fits (h : Brief n s) {len : Nat} (hlen : 4 * n < len) : Record.Fits len s := by
  have hsize := utf8ByteSize_le_length s
  have hlength := h.length
  exact ⟨h.nul, by omega⟩

end Brief

end Text

/-- However a percentage is written, there is no NUL in it. -/
theorem Numeral.nul_notMem_twoPlaces (x : Float) : '\x00' ∉ (twoPlaces x).toList := by
  have hzero : ∀ small : Prop, ∀ [Decidable small],
      '\x00' ∉ (if small then "0" else "").toList := by
    intro small _
    split <;> decide
  simp only [twoPlaces, withPoint, String.toList_append, List.mem_append, Text.nul_notMem_numeral,
    hzero, or_false, false_or]
  decide

/-! ## Records made whole -/

namespace Record

/-- A record that has all of these texts, and that is read back as it is. -/
structure Whole (r : Record) (sender payload : String) : Prop where
  sender : r.sender = sender
  payload : r.payload = payload
  back : decode r.encode = .ok r

theorem whole_make {kind : Kind} (hkind : Kind.ofByte kind.toByte = kind) {sender payload : String}
    (hsender : Fits senderField sender) (hpayload : Fits payloadField payload) (timestamp : Int64) :
    (make kind sender payload timestamp).Whole sender payload := by
  have hsenderFits : sender.utf8ByteSize ≤ maxSenderBytes := Nat.le_of_lt_succ hsender.2
  have hpayloadFits : payload.utf8ByteSize ≤ maxPayloadBytes := Nat.le_of_lt_succ hpayload.2
  have hmadeSender : (make kind sender payload timestamp).sender = sender :=
    Text.truncate_of_le hsenderFits
  have hmadePayload : (make kind sender payload timestamp).payload = payload :=
    Text.truncate_of_le hpayloadFits
  refine ⟨hmadeSender, hmadePayload, decode_encode_fitting hkind ?_ ?_ ?_ ?_⟩
  · rw [hmadeSender]
    exact hsender.1
  · rw [hmadePayload]
    exact hpayload.1
  · rw [hmadeSender]
    exact hsenderFits
  · rw [hmadePayload]
    exact hpayloadFits

/-- A notice about somebody whose name fits is made whole: there is room for a few words more. -/
theorem whole_notice {kind : Kind} (hkind : Kind.ofByte kind.toByte = kind) {user words : String}
    (huser : Fits senderField user) (hwords : Text.Brief 100 words) (timestamp : Int64) :
    (make kind user (user ++ words) timestamp).Whole user (user ++ words) := by
  refine whole_make hkind huser ⟨?_, ?_⟩ timestamp
  · rw [String.toList_append, List.mem_append]
    exact fun h => h.elim huser.1 hwords.nul
  · have hsize : words.utf8ByteSize < 401 := (hwords.fits (by decide)).2
    have huserSize : user.utf8ByteSize < 64 := huser.2
    show (user ++ words).utf8ByteSize < 4096
    rw [String.utf8ByteSize_append]
    omega

end Record

/-! ## The banner -/

namespace RecentCache

theorem capacity_probe (c : RecentCache) (now : Nat) (id : String) :
    (c.probe now id).capacity = c.capacity := by
  have hlooked : (c.lookup id).2.capacity = c.capacity := c.capacity_after (.lookup id)
  unfold probe
  split
  · exact ((c.lookup id).2.capacity_after (.refresh now id)).trans hlooked
  · exact hlooked

theorem capacity_keep (c : RecentCache) (t : Clock) (m : Record) :
    (c.keep t m).capacity = c.capacity :=
  c.capacity_after (.insert t.ms m.sender m.payload m.timestamp)

theorem Kept.length_le {c : RecentCache} (h : c.Kept) : c.length ≤ c.capacity :=
  h.length_eq ▸ Nat.le_trans h.size_le h.slots_le

end RecentCache

theorem HubMove.capacity_cacheAfter (c : RecentCache) (μ : HubMove) :
    (μ.cacheAfter c).capacity = c.capacity := by
  cases μ with
  | join t now id user addr capacity => exact c.capacity_keep t _
  | leave t id user => exact c.capacity_keep t _
  | broadcast t m excluding => exact c.capacity_keep t m
  | relayText t id user m =>
    simp only [cacheAfter, Hub.recentWindow, List.foldl_cons, List.foldl_nil,
      RecentCache.capacity_probe, RecentCache.capacity_keep]
    exact c.capacity_after (.lookup _)
  | lookup id => exact c.capacity_after (.lookup id)
  | remember t sender content timestamp =>
    exact c.capacity_after (.insert t.ms sender content timestamp)
  | refresh t id => exact c.capacity_after (.refresh t.ms id)
  | forget => exact c.capacity_after .clear
  | _ => rfl

namespace Hub

theorem capacity_run (h : Hub) (μs : List HubMove) :
    (h.run μs).cache.capacity = h.cache.capacity := by
  induction μs generalizing h with
  | nil => rfl
  | cons μ μs ih =>
    refine (ih (h.act μ)).trans ?_
    rw [HubMove.cache_act, HubMove.capacity_cacheAfter]

/-- Each line of the banner is a few words and a number or two. -/
theorem brief_bannerLines {h : Hub} (hrate : (Numeral.twoPlaces h.cache.hitRate).length ≤ 32)
    (hlength : h.cache.length < 2 ^ 64) (hcapacity : h.cache.capacity < 2 ^ 64) :
    ∀ line ∈ h.bannerLines, Text.Brief 60 line := by
  have hnumber : ∀ {n : Nat}, n < 2 ^ 64 → Text.Brief 20 (toString n) := fun hn =>
    .numeral (by decide) (Nat.lt_trans hn (by decide))
  have hcount : ∀ {label : String}, Text.Brief 19 label → ∀ n : UInt64,
      Text.Brief 60 (label ++ toString n.toNat) := fun hlabel n =>
    (hlabel.append (hnumber n.toNat_lt)).mono (by decide)
  have hpercent : Text.Brief 60
      ("Cache Hit Rate:    " ++ Numeral.twoPlaces h.cache.hitRate ++ "%") := by
    have hlabel : Text.Brief 19 "Cache Hit Rate:    " := by decide
    have hsign : Text.Brief 1 "%" := by decide
    have hwritten : Text.Brief 32 (Numeral.twoPlaces h.cache.hitRate) :=
      ⟨Numeral.nul_notMem_twoPlaces _, hrate⟩
    exact ((hlabel.append hwritten).append hsign).mono (by decide)
  have hfill : Text.Brief 60 ("Cache Size:        " ++ toString h.cache.length ++ "/"
      ++ toString h.cache.capacity) := by
    have hlabel : Text.Brief 19 "Cache Size:        " := by decide
    have hslash : Text.Brief 1 "/" := by decide
    exact ((hlabel.append (hnumber hlength)).append hslash).append (hnumber hcapacity)
  simp only [bannerLines, bannerLinesAt, List.forall_mem_cons]
  exact ⟨by decide, hcount (by decide) _, hcount (by decide) _, hcount (by decide) _,
    hcount (by decide) _, hcount (by decide) _, hcount (by decide) _, hpercent, hfill, by decide,
    nofun⟩

theorem whole_statusReply {h : Hub} (hrate : (Numeral.twoPlaces h.cache.hitRate).length ≤ 32)
    (hlength : h.cache.length < 2 ^ 64) (hcapacity : h.cache.capacity < 2 ^ 64) (t : Clock) :
    (h.statusReply t).Whole serverName h.report.1 := by
  have hlines : ∀ line ∈ "" :: h.refreshTally.bannerLines, Text.Brief 60 line :=
    List.forall_mem_cons.mpr
      ⟨by decide, brief_bannerLines (h := h.refreshTally) hrate hlength hcapacity⟩
  have hbanner : Text.Brief (11 * 61) h.report.1 := .intercalate hlines
  exact Record.whole_make rfl ⟨by decide, by decide⟩ (hbanner.fits (by decide)) t.unix

/-! ## One name everywhere -/

/-- Whoever is registered takes turns, and nobody else does. -/
structure SameIds (h : Hub) : Prop where
  sound : h.roster.Sound
  mem_iff : ∀ id, id ∈ h.roster.ids ↔ (h.registry.find? id).isSome = true

end Hub

namespace Roster

theorem mem_ids_add {r : Roster} {id other : Nat} (user : String) :
    other ∈ (r.add id user).2.ids ↔ other = id ∨ other ∈ r.ids := by
  by_cases hid : id ∈ r.ids
  · rw [add_of_present hid]
    exact ⟨.inr, fun h => h.elim (fun he => he ▸ hid) fun h => h⟩
  · rw [mem_ids_iff, names_add hid, List.map_append, List.mem_append, ← mem_ids_iff, or_comm]
    exact or_congr_left List.mem_singleton

theorem mem_ids_remove {r : Roster} (h : r.Sound) {id other : Nat} :
    other ∈ (r.remove id).2.ids ↔ other ≠ id ∧ other ∈ r.ids := by
  simp only [mem_ids_iff, names_remove h, List.mem_map, List.mem_filter, bne_iff_ne]
  constructor
  · rintro ⟨p, ⟨hp, hne⟩, rfl⟩
    exact ⟨hne, p, hp, rfl⟩
  · rintro ⟨hne, p, hp, rfl⟩
    exact ⟨p, ⟨hp, hne⟩, rfl⟩

end Roster

namespace Hub

theorem SameIds.empty (capacity : Nat) : (empty capacity).SameIds where
  sound := .empty
  mem_iff := fun _ => iff_of_false List.not_mem_nil nofun

theorem SameIds.act {h : Hub} (hs : h.SameIds) (μ : HubMove) : (h.act μ).SameIds := by
  refine ⟨?_, fun other => ?_⟩
  · rw [HubMove.roster_act]
    cases μ with
    | join t now id user addr capacity => exact hs.sound.add id user
    | leave t id user => exact hs.sound.remove id
    | nextTurn t => exact hs.sound.next t.ms
    | _ => exact hs.sound
  · rw [HubMove.roster_act, HubMove.find?_act, Option.isSome_map]
    cases μ with
    | join t now id user addr capacity =>
      show other ∈ (h.roster.add id user).2.ids ↔ ((h.registry.insert _).find? other).isSome = true
      rw [Roster.mem_ids_add, hs.mem_iff, Registry.find?_insert]
      -- Under an id that is taken only the record is new, and both sides know the id already.
      split
      · rename_i heq
        exact iff_of_true (.inl heq.symm) rfl
      · rename_i hne
        exact or_iff_right fun he => hne he.symm
    | leave t id user =>
      show other ∈ (h.roster.remove id).2.ids ↔ ((h.registry.remove id).2.find? other).isSome = true
      rw [Roster.mem_ids_remove hs.sound, hs.mem_iff, Registry.find?_remove]
      split
      · rename_i heq
        exact iff_of_false (fun h => h.1 heq) nofun
      · rename_i hne
        exact and_iff_right hne
    | nextTurn t =>
      show other ∈ (h.roster.next t.ms).2.ids ↔ _
      rw [Roster.ids_next hs.sound]
      exact hs.mem_iff other
    | _ => exact hs.mem_iff other

theorem SameIds.run {h : Hub} (hs : h.SameIds) (μs : List HubMove) : (h.run μs).SameIds := by
  induction μs generalizing h with
  | nil => exact hs
  | cons μ μs ih => exact ih (hs.act μ)

theorem roster_join (h : Hub) (t : Clock) (c : Client) :
    (h.join t c).roster = (h.roster.add c.id c.user).2 := by
  show (h.join t c).books.roster = _
  rw [join_eq, books_broadcast, books_welcome]

/-- A newcomer takes turns under the name in the record. -/
theorem SameIds.lookup_names_join {h : Hub} (hs : h.SameIds) {c : Client}
    (hnew : h.registry.find? c.id = none) (t : Clock) :
    (h.join t c).roster.names.lookup c.id = some c.user := by
  have habsent : c.id ∉ h.roster.ids := by
    rw [hs.mem_iff, hnew]
    exact nofun
  have hnobody : h.roster.names.lookup c.id = none := by
    refine List.lookup_eq_none_iff.mpr fun p hp => bne_iff_ne.mpr ?_
    rintro heq
    exact habsent (Roster.mem_ids_iff.mpr (heq ▸ List.mem_map_of_mem hp))
  rw [roster_join, Roster.names_add habsent, List.lookup_append, hnobody, Option.none_or,
    List.lookup_cons_self]

/-! ## What the others get -/

/-- What is waiting for a client. -/
def queueOf? (h : Hub) (id : Nat) : Option (List Record) :=
  (h.registry.find? id).map (·.link.mailbox.queue)

theorem queueOf?_broadcast (h : Hub) (t : Clock) (m : Record) (excluding : Option Nat) (id : Nat) :
    (h.broadcast t m excluding).2.queueOf? id = (h.registry.find? id).map fun d =>
      d.link.mailbox.queue ++
        if Registry.isAudience excluding d = true ∧ d.link.mailbox.hasRoom = true then [m]
        else [] := by
  rw [queueOf?, registry_broadcast, Registry.find?_mapClients, Option.map_map]
  exact congrArg (fun f => (h.registry.find? id).map f)
    (funext fun d => d.queue_afterRound m excluding)

theorem find?_join_self (h : Hub) (t : Clock) (c : Client) :
    (h.join t c).registry.find? c.id = some c := by
  have haud : Registry.isAudience (some c.id) c = false := by
    rw [Bool.eq_false_iff, ne_eq, Registry.isAudience_iff]
    exact fun h => h.2 rfl
  rw [join_eq, registry_broadcast, registry_welcome, Registry.find?_mapClients,
    Registry.find?_insert, if_pos rfl, Option.map_some, Client.afterRound, haud]
  rfl

theorem queueOf?_join (h : Hub) (t : Clock) (c : Client) {d : Client} (hd : d ∈ h.registry.clients)
    (hne : d.id ≠ c.id) :
    (h.join t c).queueOf? d.id = some (d.link.mailbox.queue ++
      if d.active = true ∧ d.link.mailbox.hasRoom = true then [Record.joinNotice c.user t.unix]
      else []) := by
  have haud : Registry.isAudience (some c.id) d = true ↔ d.active = true := by
    rw [Registry.isAudience_iff, ne_eq, Option.some_inj]
    exact and_iff_left hne.symm
  rw [join_eq, queueOf?_broadcast, registry_welcome, Registry.find?_insert, if_neg hne.symm,
    Registry.find?_of_mem hd, Option.map_some]
  simp only [haud]

theorem queueOf?_leave (h : Hub) (t : Clock) (id : Nat) (user : String) {d : Client}
    (hd : d ∈ h.registry.clients) (hne : d.id ≠ id) :
    (h.leave t id user).2.queueOf? d.id = some (d.link.mailbox.queue ++
      if d.active = true ∧ d.link.mailbox.hasRoom = true then [Record.leaveNotice user t.unix]
      else []) := by
  have haud : Registry.isAudience none d = true ↔ d.active = true := by
    rw [Registry.isAudience_iff]
    exact and_iff_left nofun
  rw [leave_eq, queueOf?_broadcast, registry_dismiss, Registry.find?_remove, if_neg hne,
    Registry.find?_of_mem hd, Option.map_some]
  simp only [haud]

theorem queueOf?_replyStatus (h : Hub) (t : Clock) (id : Nat) {d : Client}
    (hd : d ∈ h.registry.clients) :
    (h.replyStatus t id).2.queueOf? d.id = some (d.link.mailbox.queue ++
      if d.id = id ∧ d.link.mailbox.hasRoom = true then [h.statusReply t] else []) := by
  have hafter := HubMove.find?_act h (.replyStatus t id) d.id
  have hsame : (HubMove.replyStatus t id).seated h.registry = h.registry := rfl
  rw [hsame, Registry.find?_of_mem hd, Option.map_some] at hafter
  rw [queueOf?]
  refine (congrArg (Option.map _) hafter).trans ?_
  -- The reply is written to one client, active or not, and nobody is retired over it.
  show some (if d.id = id then (d.deliver (h.statusReply t)).2 else d).link.mailbox.queue = _
  by_cases hid : d.id = id
  · rw [if_pos hid, Client.deliver_queue, Client.deliver_fst]
    simp only [hid, true_and]
  · simp only [hid, false_and, if_false, List.append_nil]

/-- The reply in any build: it is sent if there is a rate, and else nobody gets anything. -/
theorem queueOf?_replyStatusUnder (a : Arithmetic) (h : Hub) (t : Clock) (id : Nat) {d : Client}
    (hd : d ∈ h.registry.clients) :
    (h.replyStatusUnder a t id).2.queueOf? d.id = some (d.link.mailbox.queue ++
      if (h.cache.hitRateUnder a).isSome = true ∧ d.id = id ∧ d.link.mailbox.hasRoom = true then
        [h.statusReply t]
      else []) := by
  rw [replyStatusUnder_eq]
  cases hrate : (h.cache.hitRateUnder a).isSome with
  | true =>
    simp only [true_and]
    exact h.queueOf?_replyStatus t id hd
  | false =>
    have hsame : h.refreshTally.queueOf? d.id = some d.link.mailbox.queue :=
      congrArg (Option.map _) (Registry.find?_of_mem hd)
    simp only [Bool.false_eq_true, false_and, if_false, List.append_nil]
    exact hsame

/-- A build that checks has a rate as long as a word holds all lookups; a build for use always has
one. -/
theorem hitRateUnder_isSome_iff {h : Hub} (hhits : h.cache.hits < 2 ^ 64)
    (hmisses : h.cache.misses < 2 ^ 64) (a : Arithmetic) :
    (h.cache.hitRateUnder a).isSome = true ↔
      (a = .checked → h.cache.hits + h.cache.misses < 2 ^ 64) := by
  have htoNat : h.cache.hits.toUInt64.toNat + h.cache.misses.toUInt64.toNat =
      h.cache.hits + h.cache.misses :=
    congrArg₂ (· + ·) (UInt64.toNat_ofNat_of_lt hhits) (UInt64.toNat_ofNat_of_lt hmisses)
  rw [RecentCache.hitRateUnder, Option.isSome_map]
  cases a with
  | wrapping => exact iff_of_true rfl nofun
  | checked =>
    by_cases hfits : h.cache.hits + h.cache.misses < 2 ^ 64
    · rw [Arithmetic.add?_of_fits _ (htoNat ▸ hfits)]
      exact iff_of_true rfl fun _ => hfits
    · rw [Arithmetic.checked_add?_of_le (htoNat ▸ Nat.not_lt.1 hfits)]
      exact iff_of_false nofun fun hmust => hfits (hmust rfl)

/-- What a hub says itself about a user, in this state and at this time: who gets it, and that all
of it is read. -/
structure Announces (h : Hub) (user : String) (t : Clock) : Prop where
  /-- That somebody came is told to everybody else who is active and has room. -/
  told_join : ∀ c : Client, c.user = user → ∀ d ∈ h.registry.clients, d.id ≠ c.id →
    (h.join t c).queueOf? d.id = some (d.link.mailbox.queue ++
      if d.active = true ∧ d.link.mailbox.hasRoom = true then [Record.joinNotice user t.unix]
      else [])
  whole_join : (Record.joinNotice user t.unix).Whole user (user ++ " has joined the chat")
  /-- Whoever was not registered before has the name of the notice everywhere. -/
  named_join : ∀ c : Client, c.user = user → h.registry.find? c.id = none →
    ((h.join t c).registry.find? c.id).map (·.user) = some user ∧
      (h.join t c).roster.names.lookup c.id = some user
  /-- That somebody went is told in the same way. -/
  told_leave : ∀ id, ∀ d ∈ h.registry.clients, d.id ≠ id →
    (h.leave t id user).2.queueOf? d.id = some (d.link.mailbox.queue ++
      if d.active = true ∧ d.link.mailbox.hasRoom = true then [Record.leaveNotice user t.unix]
      else [])
  whole_leave : (Record.leaveNotice user t.unix).Whole user (user ++ " has left the chat")
  /-- The banner goes to whoever asks for it and has room, if the build has a rate to put in. -/
  told_status : ∀ a id, ∀ d ∈ h.registry.clients,
    (h.replyStatusUnder a t id).2.queueOf? d.id = some (d.link.mailbox.queue ++
      if (h.cache.hitRateUnder a).isSome = true ∧ d.id = id ∧ d.link.mailbox.hasRoom = true then
        [h.statusReply t]
      else [])
  /-- There is always one in a build for use, and in one that checks as long as a word holds all
  lookups. -/
  rated : ∀ a, (h.cache.hitRateUnder a).isSome = true ↔
    (a = .checked → h.cache.hits + h.cache.misses < 2 ^ 64)
  whole_status : (Numeral.twoPlaces h.cache.hitRate).length ≤ 32 →
    (h.statusReply t).Whole serverName h.report.1

theorem SameIds.announces {h : Hub} (hs : h.SameIds) {user : String}
    (huser : Record.Fits Record.senderField user) (hlength : h.cache.length < 2 ^ 64)
    (hcapacity : h.cache.capacity < 2 ^ 64) (hhits : h.cache.hits < 2 ^ 64)
    (hmisses : h.cache.misses < 2 ^ 64) (t : Clock) : h.Announces user t where
  told_join := by
    rintro c rfl d hd hne
    exact h.queueOf?_join t c hd hne
  whole_join := Record.whole_notice rfl huser (by decide) t.unix
  named_join := by
    rintro c rfl hnew
    exact ⟨congrArg (Option.map (·.user)) (h.find?_join_self t c), hs.lookup_names_join hnew t⟩
  told_leave := fun id _ hd hne => h.queueOf?_leave t id user hd hne
  whole_leave := Record.whole_notice rfl huser (by decide) t.unix
  told_status := fun a id _ hd => h.queueOf?_replyStatusUnder a t id hd
  rated := hitRateUnder_isSome_iff hhits hmisses
  whole_status := fun hrate => whole_statusReply hrate hlength hcapacity t

/-- The hub with anything at all in its counters: the totals, and the cache's own counts. -/
def counting (h : Hub) (tally : Tally) (hits misses evictions : UInt64) : Hub :=
  { h with
    tally
    cache := { h.cache with
      hits := hits.toNat, misses := misses.toNat, evictions := evictions.toNat } }

/-- **What the relay says itself is read as it was written.** Under settings that make sense, for a
caller whose user id was accepted, and whatever a hub has been through and has counted: the notices
that the caller came and went go to everybody else who is active and has room, with the whole name
and the whole text; whoever asks for statistics, and has room, gets the whole banner, provided that
the hit rate is written with 32 characters at most; and each of them is read back as it was. Only a
build that checks its sums replies nothing where no word holds hits and misses together. A newcomer
has the name of the notice in the registry and in the rotation. The capacity of the cache is a word,
like everything else that the banner tells. -/
theorem announcements_read_back {s : Settings} (valid : s.validate = .ok ())
    (word : s.cacheCapacity < 2 ^ 64) {greeting : List UInt8} {caller : Identity}
    (named : Identity.parse greeting s.maxUserBytes = .ok caller) :
    ∃ start, create s.cacheCapacity s.timeQuantumMs = .ok start ∧
      ∀ (μs : List HubMove) (tally : Tally) (hits misses evictions : UInt64) (t : Clock),
        ((start.run μs).counting tally hits misses evictions).Announces caller.user t := by
  obtain ⟨hcache, hquantum, huserLimit, -⟩ := Settings.bounds_of_valid valid
  obtain ⟨huserNul, huserFits⟩ := Identity.user_of_parse named
  refine ⟨_, create_eq_empty hcache hquantum, fun μs tally hits misses evictions t => ?_⟩
  have huser : Record.Fits Record.senderField caller.user :=
    ⟨huserNul, Nat.lt_succ_of_le (Nat.le_trans huserFits huserLimit)⟩
  -- What was counted comes into neither the ids nor the entries.
  have hids : (((empty s.cacheCapacity).run μs).counting tally hits misses evictions).SameIds :=
    have hrun := (SameIds.empty s.cacheCapacity).run μs
    ⟨hrun.sound, hrun.mem_iff⟩
  have hkept := (ready_run (ready_empty hcache) μs).kept
  have hcapacity : ((empty s.cacheCapacity).run μs).cache.capacity < 2 ^ 64 :=
    capacity_run (empty s.cacheCapacity) μs ▸ word
  exact hids.announces huser (Nat.lt_of_le_of_lt hkept.length_le hcapacity) hcapacity
    hits.toNat_lt misses.toNat_lt t

/-- All the totals, the hits and the evictions are as large as they can be, without a miss and with
one miss. One more than all hits is none to a build for use, so that the rate is nothing, and is too
many for a build that checks. -/
theorem announcements_read_back_at_the_limit :
    let s := Settings.standard
    let full : UInt64 := 18446744073709551615
    let tally : Tally := ⟨full, full, full, full, full, full⟩
    let t : Clock := ⟨9, 0⟩
    let bob : Client := .arriving 0 2 "bob" none 4
    s.validate = .ok () ∧ s.cacheCapacity < 2 ^ 64 ∧
      Identity.parse (Terminal.greeting "bob" ++ [1]) s.maxUserBytes = .ok ⟨"bob", [1]⟩ ∧
      ∃ start, create s.cacheCapacity s.timeQuantumMs = .ok start ∧
        let h := (start.run [.join t 0 1 "ann" none 4]).counting tally full 0 full
        let beyond := (start.run [.join t 0 1 "ann" none 4]).counting tally full 1 full
        Numeral.twoPlaces h.cache.hitRate = "100.00" ∧
          Numeral.twoPlaces beyond.cache.hitRate = "0.00" ∧
          (h.join t bob).queueOf? 1 = some [.joinNotice "bob" t.unix] ∧
          (h.join t bob).roster.names.lookup 2 = some "bob" ∧
          (∀ a, (h.replyStatusUnder a t 1).2.queueOf? 1 = some [h.statusReply t]) ∧
          (beyond.replyStatusUnder .wrapping t 1).2.queueOf? 1 = some [beyond.statusReply t] ∧
          (beyond.replyStatusUnder .checked t 1).2.queueOf? 1 = some [] ∧
          Record.decode (h.statusReply t).encode = .ok (h.statusReply t) ∧
          Record.decode (beyond.statusReply t).encode = .ok (beyond.statusReply t) := by
  intro s full tally t bob
  have valid : s.validate = .ok () := Settings.valid_standard
  have word : s.cacheCapacity < 2 ^ 64 := by decide
  have named : Identity.parse (Terminal.greeting "bob" ++ [1]) s.maxUserBytes = .ok ⟨"bob", [1]⟩ :=
    Identity.parse_greeting (by decide) (by decide) [1]
  obtain ⟨start, hstart, hall⟩ := announcements_read_back valid word named
  refine ⟨valid, word, named, start, hstart, ?_⟩
  intro h beyond
  have hannounces : h.Announces "bob" t := hall _ tally full 0 full t
  have hbeyond : beyond.Announces "bob" t := hall _ tally full 1 full t
  have hrate : Numeral.twoPlaces h.cache.hitRate = "100.00" := by
    obtain rfl := eq_empty_of_create hstart
    decide +kernel
  have hbeyondRate : Numeral.twoPlaces beyond.cache.hitRate = "0.00" := by
    obtain rfl := eq_empty_of_create hstart
    decide +kernel
  -- Nobody but ann is there, whatever was counted.
  have hann : ∃ d ∈ h.registry.clients, d.id = 1 ∧ d.active = true ∧
      d.link.mailbox.hasRoom = true ∧ d.link.mailbox.queue = [] := by
    obtain rfl := eq_empty_of_create hstart
    decide +kernel
  have hnew : h.registry.find? 2 = none := by
    obtain rfl := eq_empty_of_create hstart
    decide +kernel
  obtain ⟨d, hd, hid, hactive, hroom, hempty⟩ := hann
  have hjoin := hannounces.told_join bob rfl d hd (hid ▸ by decide)
  rw [hid, hempty, if_pos ⟨hactive, hroom⟩] at hjoin
  have hstatus : ∀ a, (h.replyStatusUnder a t 1).2.queueOf? 1 = some [h.statusReply t] := by
    intro a
    have hfits : full.toNat + (0 : UInt64).toNat < 2 ^ 64 := by decide
    have hrated := (hannounces.rated a).2 fun _ => hfits
    have htold := hannounces.told_status a 1 d hd
    rwa [hid, hempty, if_pos ⟨hrated, rfl, hroom⟩] at htold
  have hwrapping := hbeyond.told_status .wrapping 1 d hd
  have hchecked := hbeyond.told_status .checked 1 d hd
  have hpast : ¬full.toNat + (1 : UInt64).toNat < 2 ^ 64 := by decide
  have hunrated : ¬(beyond.cache.hitRateUnder .checked).isSome = true := fun hrated =>
    hpast ((hbeyond.rated .checked).1 hrated rfl)
  rw [hid, hempty, if_pos ⟨(hbeyond.rated .wrapping).2 nofun, rfl, hroom⟩] at hwrapping
  rw [hid, hempty, if_neg fun htold => hunrated htold.1] at hchecked
  exact ⟨hrate, hbeyondRate, hjoin, (hannounces.named_join bob rfl hnew).2, hstatus, hwrapping,
    hchecked, (hannounces.whole_status (by rw [hrate]; decide)).back,
    (hbeyond.whole_status (by rw [hbeyondRate]; decide)).back⟩

end Hub

end ChatHub
