import Mathlib.Data.List.Perm.Subperm
import ChatHub.Proofs.Server.Stopping
/-!
# Who is still let in when the server closes

A session looks once whether the server is closing, when a worker has taken it. Whoever looks after
the end was called for is turned away, but a session that has looked before goes on to read an
identity and joins the hub with what it finds, and nothing on that way looks again. So the call does
not shut the hub at once: everybody who was in a handshake at that moment can still register, and
the others are told of it.

This module says how many that can be. A session in its handshake either stays there, registers or
is over; nobody new comes into one once the end was called for. So those who register afterwards
and those who still may are, counted together, some of those who were in their handshake then
(`Steady.greeting_run`), and the registry gains nobody else.
-/

namespace ChatHub

namespace HubMove

/-- Whoever joins by a move. -/
def joined? : HubMove → Option Nat
  | join _ _ id _ _ _ => some id
  | _ => none

theorem joined?_of_not_isVisit {μ : HubMove} (hμ : μ.isVisit = false) : μ.joined? = none := by
  cases μ with
  | join => cases hμ
  | _ => rfl

/-- Whether a move writes to one client by itself. -/
def writes : HubMove → Bool
  | replyStatus .. | sendTo .. => true
  | _ => false

theorem queue_errand_sublist {μ : HubMove} (hμ : μ.writes = false) (h : Hub) (c : Client) :
    (μ.errand h c).link.mailbox.queue.Sublist c.link.mailbox.queue := by
  cases μ with
  | replyStatus | sendTo => cases hμ
  | recordReceived | retire | retireAll | signal | touch =>
    unfold errand
    dsimp only
    split <;> exact .refl _
  | far id φ =>
    unfold errand
    dsimp only
    split
    · cases φ with
      | read max => exact List.drop_sublist max _
      | hangUp => exact List.nil_sublist _
      | deafen | look => exact .refl _
    · exact .refl _
  | _ => exact .refl _

/-- Whoever is there after a move was there before it, or has joined by it. -/
theorem contains_act {h : Hub} {μ : HubMove} {id : Nat}
    (hid : (h.act μ).registry.contains id = true) :
    h.registry.contains id = true ∨ μ.joined? = some id := by
  by_cases hvacates : μ.vacates = some id
  · cases μ with
    | join => exact .inr hvacates
    | leave t leaving user =>
      obtain rfl := Option.some.inj hvacates
      unfold Registry.contains at hid
      rw [find?_act, seated, Registry.find?_remove, if_pos rfl] at hid
      cases hid
    | _ => cases hvacates
  · unfold Registry.contains at hid ⊢
    rw [find?_act_of_stays h hvacates, Option.isSome_map] at hid
    exact .inl hid

end HubMove

theorem Hub.contains_run {h : Hub} {μs : List HubMove} {id : Nat}
    (hid : (h.run μs).registry.contains id = true) :
    h.registry.contains id = true ∨ id ∈ μs.filterMap HubMove.joined? := by
  induction μs generalizing h with
  | nil => exact .inl hid
  | cons μ μs ih =>
    rw [List.mem_filterMap]
    rcases ih hid with hact | hrest
    · rcases HubMove.contains_act hact with hbefore | hjoined
      · exact .inl hbefore
      · exact .inr ⟨μ, List.mem_cons_self, hjoined⟩
    · obtain ⟨ν, hν, hjoined⟩ := List.mem_filterMap.1 hrest
      exact .inr ⟨ν, List.mem_cons_of_mem _ hν, hjoined⟩

theorem Hub.contains_join (h : Hub) (t : Clock) (c : Client) :
    (h.join t c).registry.contains c.id = true := by
  unfold Registry.contains
  rw [join_eq, registry_broadcast, Registry.find?_mapClients, registry_welcome,
    Registry.find?_insert, if_pos rfl]
  rfl

/-- What dealing with a record can come to. -/
theorem Hub.mem_dealings {t : Clock} {limit id : Nat} {user : String} {r : Record} {μ : HubMove}
    (hμ : μ ∈ dealings t limit id user r) :
    μ = .recordReceived t id ∨
      r.kind = .text ∧ μ = .relayText t id user (limited limit r) ∨
        μ = .replyStatus t id ∨ μ = .report := by
  unfold dealings at hμ
  rcases List.mem_cons.1 hμ with rfl | hμ
  · exact .inl rfl
  · cases hkind : r.kind <;> rw [hkind] at hμ <;> simp at hμ
    · exact .inr (.inl ⟨rfl, hμ⟩)
    · exact .inr (.inr hμ)

/-- What goes round when a record is dealt with is a line of text. -/
theorem Hub.kind_of_dealings {t : Clock} {limit id : Nat} {user : String} {r : Record}
    {μ : HubMove} (hμ : μ ∈ dealings t limit id user r) {h : Hub} {ρ : Round}
    (hρ : μ.round? h = some ρ) : ρ.record.kind = .text := by
  rcases mem_dealings hμ with rfl | ⟨hkind, rfl⟩ | rfl | rfl
  · cases hρ
  · obtain rfl := Option.some.inj hρ
    show (signed user (limited limit r)).kind = .text
    have hlimited : (limited limit r).kind = .text := by
      unfold limited
      split <;> exact hkind
    unfold signed
    split <;> exact hlimited
  · cases hρ
  · cases hρ

/-- The id of a session that is in its handshake. -/
def Session.greeting? (σ : Session) : Option Nat :=
  if σ.stage = .handshake then some σ.id else none

namespace Server

variable {s : Server} {settings : Settings}

/-! ## What is asked of a server that closes -/

/-- The sessions that are in their handshake. -/
def greeting (s : Server) : List Nat := s.sessions.filterMap Session.greeting?

/-- The sessions that join the hub in a run, in the order in which they do. -/
def registering (s : Server) : List Move → List Nat
  | [] => []
  | m :: ms => (s.calls m).filterMap HubMove.joined? ++ (s.step m).registering ms

/-- Who comes into the hub after the end was called for, and what goes round there. -/
structure LetsIn (start : Server) (before after : List Move) : Prop where
  /-- Those who register, and those who still may, are some of those who were in their handshake
  when the end was called for; nobody registers twice. -/
  registering : ((start.run before).registering after ++
    (start.run (before ++ after)).greeting).Subperm (start.run before).greeting
  /-- The registry gains nobody else. -/
  registry {id : Nat} (hid : (start.run (before ++ after)).hub.registry.contains id = true) :
    (start.run before).hub.registry.contains id = true ∨
      id ∈ (start.run before).registering after
  /-- Nor does the rotation. -/
  roster {id : Nat} (hid : (start.run (before ++ after)).hub.roster.contains id = true) :
    (start.run before).hub.roster.contains id = true ∨
      id ∈ (start.run before).registering after
  /-- What goes round unless somebody registers is the notice that somebody has left, or the line of
  somebody who deals with a record. -/
  rounds {m : Move} {μ : HubMove} (hμ : μ ∈ (start.run (before ++ after)).calls m)
    (hjoined : μ.joined? = none) {h : Hub} {ρ : Round} (hρ : μ.round? h = some ρ) :
    (∃ user, ρ.record = .leaveNotice user (start.run (before ++ after)).clock.unix) ∨
      ρ.record.kind = .text ∧ ∃ id, (start.run (before ++ after)).dealt id [m] = 1
  /-- Once the sessions were told of the end, nobody deals with a record any more but whoever had
  looked past the notice in that round, and then with one. -/
  lines (htold : (start.run before).isAnnounced = true) (id : Nat) :
    (start.run before).dealt id after ≤ ((start.run before).isPast .notice id).toNat
  /-- Where nothing goes round and nobody is answered, nothing is remembered and nothing is put into
  a mailbox. -/
  quiet {m : Move} {μ : HubMove} (hμ : μ ∈ (start.run (before ++ after)).calls m) {h : Hub}
    (hround : μ.round? h = none) (hanswer : μ.writes = false) : (h.act μ).cache = h.cache ∧
      ∀ id d, (h.act μ).registry.find? id = some d → ∃ c, h.registry.find? id = some c ∧
        d.link.mailbox.queue.Sublist c.link.mailbox.queue
  /-- A session that is still in its handshake and finds an identity there registers as it would
  have if nobody had called for the end. If the sessions were told of the end, it leaves at its
  first turn. -/
  admits {c : Connection} {i : Identity} (hc : c ∈ (start.run (before ++ after)).connections)
    (hstage : c.stage = .handshake) (hinbox : c.inbox ≠ [])
    (hi : Identity.parse (c.inbox.take identitySpace)
      (start.run (before ++ after)).hall.settings.maxUserBytes = .ok i)
    (hhere : (start.run (before ++ after)).gone = false) :
    let s := start.run (before ++ after)
    let s' := s.step (.handshake c.id)
    s.registering [.handshake c.id] = [c.id] ∧
      s'.hub.indoors = (s.hub.join s.clock
        (.arriving s.clock.ms c.id i.user none s.hall.settings.mailboxSize)).indoors ∧
      s'.hub.registry.contains c.id = true ∧ s'.hub.roster.contains c.id = true ∧
      (s.isAnnounced = true → s'.calls (.turn c.id) = [.leave s'.clock c.id i.user])
  /-- So does everybody else when the next round begins. -/
  dismisses {c : Connection} {user : String} (hc : c ∈ (start.run (before ++ after)).connections)
    (hstage : c.stage = .serving user) (hattention : c.attention = .notice)
    (htold : (start.run (before ++ after)).isAnnounced = true)
    (hhere : (start.run (before ++ after)).gone = false) :
    let s := start.run (before ++ after)
    s.calls (.turn c.id) = [.leave s.clock c.id user]

/-! ## Handshakes -/

/-- Where no session begins, those who register and those who stay in their handshake have all been
in it before. -/
theorem Course.greeting {last came : Nat} {σs σs' : List Session} {μs : List HubMove}
    (h : Course last σs came μs σs') (hnodup : (σs.map Session.id).Nodup)
    (hstays : ∀ τ ∈ σs', τ.stage = .handshake → ∃ σ ∈ σs, σ.id = τ.id ∧ σ.stage = .handshake) :
    (μs.filterMap HubMove.joined? ++ σs'.filterMap Session.greeting?).Subperm
      (σs.filterMap Session.greeting?) := by
  cases h with
  | same hvisits =>
    rw [List.filterMap_eq_nil_iff.2 fun μ hμ => HubMove.joined?_of_not_isVisit (hvisits μ hμ)]
    exact .refl _
  | accepted =>
    rw [List.filterMap_append]
    exact (List.append_nil _).symm ▸ .refl _
  | @step front back σ τ _ hsplit hstep =>
    subst hsplit
    have hone : (μs.filterMap HubMove.joined? ++ τ.greeting?.toList).Sublist
        σ.greeting?.toList := by
      cases hstep with
      | begins id =>
        -- It would be in its handshake now, and was not before.
        obtain ⟨ρ, hρ, hid, hstage⟩ := hstays _ (mem_middle.2 (.inl rfl)) rfl
        have hsame : ρ = .of id none .taken :=
          List.inj_on_of_nodup_map hnodup hρ (mem_middle.2 (.inl rfl)) hid
        rw [hsame] at hstage
        cases hstage
      | registers => exact .refl _
      | isTaken | turnedAway | refused | leaves | concludes => exact List.nil_sublist _
    have hafter := filterMap_middle Session.greeting? front back τ
    have hbefore := filterMap_middle Session.greeting? front back σ
    refine (hafter.append_left _).subperm.trans ?_
    rw [← List.append_assoc]
    exact (hone.append_right _).subperm.trans hbefore.symm.subperm

namespace Steady

variable (h : s.Steady settings) (hclosing : s.hall.closing = true)
include h hclosing

/-- Nobody comes into a handshake when the end was called for. -/
theorem stays_in_handshake (m : Move) (hword : s.lastId + [m].count .accept < UInt64.size) :
    ∀ τ ∈ (s.step m).sessions, τ.stage = .handshake →
      ∃ σ ∈ s.sessions, σ.id = τ.id ∧ σ.stage = .handshake := by
  intro τ hτ hstage
  cases hannounces : s.announces m with
  | true =>
    rw [sessions, connections_of_announces hannounces, sessions_noticing] at hτ
    exact ⟨τ, hτ, rfl, hstage⟩
  | false =>
    obtain ⟨d, hd, rfl⟩ := List.mem_map.1 hτ
    rcases h.sound.of_mem_step_of_silent hannounces hword hd with ⟨c, hc, hid, honward⟩ | rfl
    · refine ⟨c.session, List.mem_map_of_mem hc, hid.symm, ?_⟩
      have hstage : d.stage = .handshake := hstage
      cases honward with
      | still hsession => exact (congrArg Session.stage hsession).symm.trans hstage
      | begins hopen =>
        rw [hclosing] at hopen
        cases hopen
      | looks _ hlooks =>
        obtain ⟨framer, inbox, attention, rfl⟩ := hlooks.eq
        exact hstage
      | deals _ _ hafter =>
        subst hafter
        exact hstage
      | isTaken _ hafter | registers _ hafter | departs _ hafter | ends hafter =>
        cases hafter.symm.trans hstage
    · cases hstage

theorem greeting_step (m : Move) (hword : s.lastId + [m].count .accept < UInt64.size) :
    ((s.calls m).filterMap HubMove.joined? ++ (s.step m).greeting).Subperm s.greeting := by
  obtain ⟨came, -, hchange⟩ := h.sound.exists_change m hword
  exact hchange.course.greeting h.sound.nodup (h.stays_in_handshake hclosing m hword)

/-- Whoever registers after the end was called for, or still may, was in a handshake by then. -/
theorem greeting_run (moves : List Move)
    (hfew : s.lastId + moves.count .accept < UInt64.size) :
    (s.registering moves ++ (s.run moves).greeting).Subperm s.greeting := by
  refine h.run_induction
    (motive := fun s moves => s.hall.closing = true →
      (s.registering moves ++ (s.run moves).greeting).Subperm s.greeting)
    (fun _ _ _ => .refl _) ?_ moves hfew hclosing
  intro s m moves h hword hrest hclosing
  have hlater := hrest (h.sound.flag_step hclosing m)
  show (((s.calls m).filterMap HubMove.joined? ++ (s.step m).registering moves) ++
    ((s.step m).run moves).greeting).Subperm s.greeting
  rw [List.append_assoc]
  exact ((List.subperm_append_left _).2 hlater).trans (h.greeting_step hclosing m hword)

end Steady

/-! ## The registry -/

/-- Whoever is registered after a run was so before it, or has joined in it. -/
theorem Steady.contains_run (h : s.Steady settings) (moves : List Move)
    (hfew : s.lastId + moves.count .accept < UInt64.size) {id : Nat}
    (hid : (s.run moves).hub.registry.contains id = true) :
    s.hub.registry.contains id = true ∨ id ∈ s.registering moves := by
  refine h.run_induction
    (motive := fun s moves => (s.run moves).hub.registry.contains id = true →
      s.hub.registry.contains id = true ∨ id ∈ s.registering moves)
    (fun _ _ hid => .inl hid) ?_ moves hfew hid
  intro s m moves h hword hrest hid
  obtain ⟨came, -, hchange⟩ := h.sound.exists_change m hword
  have hstep : (s.step m).hub.registry.contains id = true →
      s.hub.registry.contains id = true ∨ id ∈ (s.calls m).filterMap HubMove.joined? := by
    intro hid
    rw [Hub.registry_of_indoors hchange.hub] at hid
    exact Hub.contains_run hid
  show _ ∨ id ∈ (s.calls m).filterMap HubMove.joined? ++ (s.step m).registering moves
  rw [List.mem_append]
  rcases hrest hid with hbefore | hlater
  · exact (hstep hbefore).imp_right .inl
  · exact .inr (.inr hlater)

/-! ## What goes round -/

theorem Sound.elim_connection? (hs : s.Sound) {c : Connection} (hc : c ∈ s.connections)
    (calls : Connection → List HubMove) : (s.connection? c.id).elim [] calls = calls c := by
  rw [connection?_of_mem hs.nodup hc]
  rfl

/-- A session that has the notice leaves when it looks at it. -/
theorem Sound.turn_calls_of_notice (hs : s.Sound) (hhere : s.gone = false) {c : Connection}
    {user : String} (hc : c ∈ s.connections) (hstage : c.stage = .serving user)
    (hattention : c.attention = .notice) (hnotice : c.notice = true) :
    s.calls (.turn c.id) = [.leave s.clock c.id user] := by
  have hcalls : s.calls (.turn c.id) = s.turnCalls c := by
    rw [calls_of_here hhere]
    exact hs.elim_connection? hc _
  rw [hcalls, turnCalls, hstage, hattention]
  exact if_pos hnotice

theorem Steady.turn_calls_of_announced (h : s.Steady settings) (htold : s.isAnnounced = true)
    (hhere : s.gone = false) {c : Connection} {user : String} (hc : c ∈ s.connections)
    (hstage : c.stage = .serving user) (hattention : c.attention = .notice) :
    s.calls (.turn c.id) = [.leave s.clock c.id user] :=
  h.sound.turn_calls_of_notice hhere hc hstage hattention
    ((h.alert c hc).notice (by rw [hstage]; rfl) htold)

/-- Of all that a server has its hub do, only a session that registers, one that leaves and one that
deals with a record make something go round. -/
theorem Sound.round_of_called (hs : s.Sound) {m : Move} {μ : HubMove} (hμ : μ ∈ s.calls m)
    (hjoined : μ.joined? = none) {hub : Hub} {ρ : Round} (hρ : μ.round? hub = some ρ) :
    (∃ user, ρ.record = .leaveNotice user s.clock.unix) ∨
      ρ.record.kind = .text ∧ ∃ id, s.dealt id [m] = 1 := by
  cases s.called_of_mem μ hμ with
  | @leaves c user =>
    cases hρ
    exact .inl ⟨user, rfl⟩
  | joins => cases hjoined
  | @deals c user r _ hm hc hstage hattention hdealt =>
    refine .inr ⟨Hub.kind_of_dealings hdealt hρ, c.id, ?_⟩
    rw [hm, hs.dealt_of_record (here_of_called hμ) hc hstage hattention, if_pos rfl]
  | _ => cases hρ

theorem quiet_of_called {m : Move} {μ : HubMove} (hμ : μ ∈ s.calls m) {hub : Hub}
    (hround : μ.round? hub = none) (hanswer : μ.writes = false) :
    (hub.act μ).cache = hub.cache ∧
      ∀ id d, (hub.act μ).registry.find? id = some d → ∃ c, hub.registry.find? id = some c ∧
        d.link.mailbox.queue.Sublist c.link.mailbox.queue := by
  -- It is no visit and goes nowhere round, so the registry only undergoes it.
  have hplain : μ.seated hub.registry = hub.registry ∧ (hub.act μ).cache = hub.cache := by
    cases s.called_of_mem μ hμ with
    | leaves | joins => cases hround
    | deals _ _ _ _ hdealt =>
      refine ⟨HubMove.seated_of_not_isVisit (Hub.isVisit_dealings μ hdealt) _, ?_⟩
      rcases Hub.mem_dealings hdealt with rfl | ⟨-, rfl⟩ | rfl | rfl
      · rfl
      · cases hround
      · cases hanswer
      · rfl
    | _ => exact ⟨rfl, rfl⟩
  obtain ⟨hseated, hcache⟩ := hplain
  refine ⟨hcache, fun id d hd => ?_⟩
  rw [HubMove.find?_act, hseated] at hd
  obtain ⟨c, hc, rfl⟩ := Option.map_eq_some_iff.1 hd
  refine ⟨c, hc, ?_⟩
  unfold HubMove.effect
  rw [hround]
  exact HubMove.queue_errand_sublist hanswer hub c

/-- Whoever finds an identity in its handshake joins the hub. -/
theorem Sound.registers (hs : s.Sound) (hhere : s.gone = false) {c : Connection} {i : Identity}
    (hc : c ∈ s.connections) (hstage : c.stage = .handshake) (hinbox : c.inbox ≠ [])
    (hi : Identity.parse (c.inbox.take identitySpace) s.hall.settings.maxUserBytes = .ok i) :
    s.calls (.handshake c.id) =
        [.join s.clock s.clock.ms c.id i.user none s.hall.settings.mailboxSize] ∧
      s.step (.handshake c.id) =
        (s.withHub (s.hub.join s.clock
          (.arriving s.clock.ms c.id i.user none s.hall.settings.mailboxSize))).put
          (({ c with inbox := c.inbox.drop identitySpace } : Connection).joined i
            |>.showing .active) := by
  have hempty : c.inbox.isEmpty = false := by simpa using hinbox
  have hready : c.stage = .handshake ∧ c.isReadable = true :=
    ⟨hstage, by simp [Connection.isReadable, hempty]⟩
  have hfound := connection?_of_mem hs.nodup hc
  have hcard : c.card = ⟨c.id, none, .admitted⟩ :=
    congrArg Session.card ((hs.proper_of_connection? hfound).of_handshake hstage)
  constructor
  · have hcalls : s.calls (.handshake c.id) = s.handshakeCalls c := by
      rw [calls_of_here hhere]
      exact hs.elim_connection? hc _
    rw [hcalls, handshakeCalls, if_pos hready, hempty, hi]
    rfl
  · have hstep : s.step (.handshake c.id) = s.handshake c := by
      rw [step_of_here hhere]
      show s.atConnection c.id s.handshake = _
      rw [atConnection, hfound]
    have hregister : s.handshake c =
        s.register { c with inbox := c.inbox.drop identitySpace } i := by
      rw [handshake, if_pos hready, hempty, hi]
      rfl
    rw [hstep, hregister, register_eq (by rw [hcard])]
    rfl

/-- It does so whether the server is closing or not, and looks at the notice first. -/
theorem Steady.registers (h : s.Steady settings) (hhere : s.gone = false) {c : Connection}
    {i : Identity} (hc : c ∈ s.connections) (hstage : c.stage = .handshake) (hinbox : c.inbox ≠ [])
    (hi : Identity.parse (c.inbox.take identitySpace) s.hall.settings.maxUserBytes = .ok i) :
    (s.step (.handshake c.id)).hub.indoors = (s.hub.join s.clock
        (.arriving s.clock.ms c.id i.user none s.hall.settings.mailboxSize)).indoors ∧
      (s.step (.handshake c.id)).hub.registry.contains c.id = true ∧
      (s.step (.handshake c.id)).hub.roster.contains c.id = true ∧
      (s.isAnnounced = true → (s.step (.handshake c.id)).calls (.turn c.id) =
        [.leave (s.step (.handshake c.id)).clock c.id i.user]) := by
  obtain ⟨-, hstep⟩ := h.sound.registers hhere hc hstage hinbox hi
  have hafter := (h.step (.handshake c.id) h.sound.word).1
  have hfound := connection?_of_mem h.sound.nodup hc
  have hcontains : (s.step (.handshake c.id)).hub.registry.contains c.id = true := by
    rw [hstep]
    exact s.hub.contains_join s.clock _
  refine ⟨by rw [hstep]; rfl, hcontains, ?_, fun htold => ?_⟩
  · rw [hafter.sound.agree.contains_roster]
    exact hcontains
  · have hd := connection?_some (connection?_of_put
      (d := ({ c with inbox := c.inbox.drop identitySpace } : Connection).joined i
        |>.showing .active)
      (w := s.step (.handshake c.id)) hfound rfl (by rw [hstep]; rfl))
    have hleaves := hafter.turn_calls_of_announced (h.sound.announced_step htold _)
      (by rw [hstep]; exact hhere) hd.1 rfl ((h.alert c hc).fresh (by rw [hstage]; rfl))
    exact hleaves

/-! ## Runs -/

/-- **Once the end was called for, only handshakes can still end in the hub.** Whatever happens
after somebody was told that the end begins: those who register are some of those who were in their
handshake then, each of them once, and the registry and the rotation gain nobody else. Besides the
notices of these, those of sessions that leave go round, and the lines of records that are dealt
with; these are one at most for each session, once the sessions were told. A session that is still
in its handshake and finds an identity does register, and leaves at its first turn. -/
theorem only_handshakes_are_let_in {clock : Clock} {start : Server}
    (hstart : create settings clock = .ok start) {before after : List Move}
    (hfew : (before ++ after).count .accept < UInt64.size)
    (htold : true ∈ start.answers before) : start.LetsIn before after := by
  obtain ⟨hbefore, hrest, hafter⟩ := steady_within hstart hfew
  have hclosing : (start.run before).hall.closing = true := by
    rw [List.count_append] at hfew
    exact (flag_iff_told hstart (by omega)).2 htold
  have h := steady_of_run hstart (before ++ after) hfew
  have hregistry : ∀ {id : Nat}, (start.run (before ++ after)).hub.registry.contains id = true →
      (start.run before).hub.registry.contains id = true ∨
        id ∈ (start.run before).registering after := by
    intro id hid
    rw [hafter] at hid
    exact hbefore.contains_run after hrest hid
  exact
    { registering := by
        rw [hafter]
        exact hbefore.greeting_run hclosing after hrest
      registry := hregistry
      roster := by
        intro id hid
        rw [h.sound.agree.contains_roster] at hid
        rw [hbefore.sound.agree.contains_roster]
        exact hregistry hid
      rounds := h.sound.round_of_called
      lines := hbefore.dealt_of_announced after hrest
      quiet := quiet_of_called
      admits := by
        intro c i hc hstage hinbox hi hhere
        refine ⟨?_, h.registers hhere hc hstage hinbox hi⟩
        rw [registering, (h.sound.registers hhere hc hstage hinbox hi).1]
        rfl
      dismisses := fun hc hstage hattention htold hhere =>
        h.turn_calls_of_announced htold hhere hc hstage hattention }

/-- Four workers. When the end is called for, the first session is registered, the next three are in
their handshake and the fifth waits. The second registers and leaves, the third is refused, the
fourth is still asked who it is, and the fifth is turned away. -/
theorem only_handshakes_are_let_in_of_five :
    let settings := { Settings.standard with poolSize := 4 }
    let before : List Move :=
      [.accept, .accept, .accept, .accept, .accept, .look 0, .look 1, .look 2, .look 3, .begin 1,
        .begin 2, .begin 3, .begin 4, .arrive 1 "ann\x00".toUTF8.toList, .handshake 1, .call,
        .announce]
    let after : List Move :=
      [.arrive 2 "bob\x00".toUTF8.toList, .handshake 2, .handshakeTimeout 3, .turn 2, .close,
        .look 2, .begin 5]
    ∃ start, create settings ⟨9, 0⟩ = .ok start ∧
      (before ++ after).count .accept < UInt64.size ∧ true ∈ start.answers before ∧
      (start.run before).greeting = [2, 3, 4] ∧ (start.run before).registering after = [2] ∧
      (start.run (before ++ after)).connections.map (·.stage) =
        [.serving "ann", .closing, .ended, .handshake, .ended] ∧
      start.LetsIn before after := by
  intro settings before after
  obtain ⟨start, hstart⟩ : ∃ start, create settings ⟨9, 0⟩ = .ok start := ⟨_, rfl⟩
  have hfew : (before ++ after).count .accept < UInt64.size := by decide +kernel
  have htold : true ∈ start.answers before := by
    cases hstart
    decide +kernel
  refine ⟨start, hstart, hfew, htold, ?_, ?_, ?_, only_handshakes_are_let_in hstart hfew htold⟩ <;>
    cases hstart <;> decide +kernel

/-- The second session is in its handshake when the end is called for, and registers all the same:
the registry and the rotation gain it, and the notice that it has come is put into the mailbox of
the first and remembered. -/
theorem a_handshake_ends_in_the_hub_after_the_call :
    let settings := { Settings.standard with poolSize := 2 }
    let before : List Move :=
      [.accept, .accept, .look 0, .look 1, .begin 1, .begin 2, .arrive 1 "ann\x00".toUTF8.toList,
        .handshake 1, .call, .announce]
    let after : List Move := [.arrive 2 "bob\x00".toUTF8.toList, .handshake 2]
    ∃ start, create settings ⟨9, 0⟩ = .ok start ∧ start.answers before = [true] ∧
      (start.run before).isAnnounced = true ∧
      (start.run before).hub.registry.ids = [1] ∧ (start.run before).hub.roster.ids = [1] ∧
      ((start.run before).hub.registry.find? 1).map (·.link.mailbox.queue) = some [] ∧
      ((start.run before).hub.cache.lookup "bob_9").1 = none ∧
      (start.run before).registering after = [2] ∧
      (start.run (before ++ after)).hub.registry.ids = [1, 2] ∧
      (start.run (before ++ after)).hub.roster.ids = [1, 2] ∧
      ((start.run (before ++ after)).hub.registry.find? 1).map (·.link.mailbox.queue) =
        some [.joinNotice "bob" 9] ∧
      ((start.run (before ++ after)).hub.cache.lookup "bob_9").1 =
        some "bob has joined the chat" := by
  intro settings before after
  obtain ⟨start, hstart⟩ : ∃ start, create settings ⟨9, 0⟩ = .ok start := ⟨_, rfl⟩
  refine ⟨start, hstart, ?_, ?_, ?_, ?_, ?_, ?_, ?_, ?_, ?_, ?_, ?_⟩ <;>
    cases hstart <;> decide +kernel

end Server

end ChatHub
