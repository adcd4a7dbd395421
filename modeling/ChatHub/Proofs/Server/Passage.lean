import ChatHub.Proofs.Hub.Delivery
import ChatHub.Proofs.Server.Latecomers
/-!
# How records come to a socket

Between the hub and a socket stands a writer. It begins when its client joins. It takes a record
from the mailbox in the registry and then writes its bytes, and goes on with what is left when the
record of the client goes. It is done when it has closed the socket or when a write has failed.
`Passage` has all that can happen to one connection as far as this is concerned, with the moves of
the hub that go along, and `Sound.passage` shows it for every move of a server.

Whatever else goes on in the hub can only put records behind those that wait (`Hub.grown_run`).
-/

namespace ChatHub

/-! ## Mailboxes that grow -/

theorem Client.queue_prefix_deliver (c : Client) (m : Record) :
    c.link.mailbox.queue <+: (c.deliver m).2.link.mailbox.queue := by
  rw [deliver_queue]
  exact List.prefix_append _ _

/-- The record of a client at two moments, if there is one: nothing has been taken from the
mailbox. -/
inductive Grown : Option Client → Option Client → Prop
  | nobody : Grown none none
  | somebody {c d : Client} (h : c.link.mailbox.queue <+: d.link.mailbox.queue) :
      Grown (some c) (some d)

theorem Grown.refl (c : Option Client) : Grown c c := by
  cases c with
  | none => exact .nobody
  | some c => exact .somebody List.prefix_rfl

theorem Grown.trans {a b c : Option Client} (hab : Grown a b) (hbc : Grown b c) : Grown a c := by
  cases hab with
  | nobody => exact hbc
  | somebody hab =>
    cases hbc with
    | somebody hbc => exact .somebody (hab.trans hbc)

namespace HubMove

/-- Whether a move has nothing to do with the coming, the going and the far end of a client. -/
def Spares (id : Nat) : HubMove → Prop
  | join _ _ other _ _ _ | leave _ other _ | far other _ => other ≠ id
  | _ => True

theorem spares_of_nil {μs : List HubMove} (h : μs = []) (id : Nat) : ∀ μ ∈ μs, μ.Spares id := by
  rw [h]
  exact List.forall_mem_nil _

theorem vacates_of_spares {μ : HubMove} {id : Nat} (hμ : μ.Spares id) : μ.vacates ≠ some id := by
  cases μ with
  | join | leave => exact fun h => hμ (Option.some.inj h)
  | _ => exact nofun

theorem queue_prefix_effect (h : Hub) {μ : HubMove} {c : Client} (hμ : μ.Spares c.id) :
    c.link.mailbox.queue <+: (μ.effect h c).link.mailbox.queue := by
  unfold effect
  cases μ.round? h with
  | some ρ =>
    dsimp only
    rcases c.afterRound_cases ρ.record ρ.excluding with ⟨-, heq⟩ | ⟨-, -, heq⟩ | ⟨-, -, heq⟩
    · simp only [heq, List.prefix_rfl]
    · rw [heq]
      exact c.queue_prefix_deliver ρ.record
    · rw [heq]
      exact List.prefix_rfl
  | none =>
    dsimp only
    rcases μ.errand_cases h c with ⟨φ, hfar, -⟩ | ⟨-, ⟨m, heq⟩ | hundisturbed⟩
    · cases μ with
      | far other ψ =>
        have hother : ¬other = c.id := hμ
        simp [ExchangeMove.atFarEnd, hother] at hfar
      | _ => cases hfar
    · rw [heq]
      exact c.queue_prefix_deliver m
    · simp only [hundisturbed.mailbox, List.prefix_rfl]

end HubMove

namespace Hub

theorem grown_act (h : Hub) {μ : HubMove} {id : Nat} (hμ : μ.Spares id) :
    Grown (h.registry.find? id) ((h.act μ).registry.find? id) := by
  rw [HubMove.find?_act_of_stays h (HubMove.vacates_of_spares hμ)]
  cases hc : h.registry.find? id with
  | none => exact .nobody
  | some c =>
    obtain ⟨-, rfl⟩ := Registry.find?_some hc
    exact .somebody (HubMove.queue_prefix_effect h hμ)

theorem grown_run (h : Hub) {μs : List HubMove} {id : Nat} (hμs : ∀ μ ∈ μs, μ.Spares id) :
    Grown (h.registry.find? id) ((h.run μs).registry.find? id) := by
  induction μs generalizing h with
  | nil => exact .refl _
  | cons μ μs ih =>
    have hrest := ih (h.act μ) fun ν hν => hμs ν (List.mem_cons_of_mem _ hν)
    exact (h.grown_act (hμs μ List.mem_cons_self)).trans hrest

theorem spares_dealings {t : Clock} {limit id other : Nat} {user : String} {m : Record} :
    ∀ μ ∈ dealings t limit id user m, μ.Spares other := by
  unfold dealings
  cases m.kind <;> simp [HubMove.Spares]

end Hub

/-! ## Writers -/

/-- The writer when the record of its client has gone, with the record if there was one. -/
def Writer.left (w : Writer) (gone : Option Client) : Writer :=
  match w, gone with
  | live, some client => draining client.link.mailbox
  | live, none => draining { capacity := 0, queue := [], isOpen := true }
  | w, _ => w

theorem Writer.exists_of_isDraining {w : Writer} (h : w.isDraining = true) :
    ∃ mailbox, w = draining mailbox := by
  cases w with
  | draining mailbox => exact ⟨mailbox, rfl⟩
  | _ => cases h

/-- What the writer of a connection has to do with: whose the connection is, how the writer stands,
what it has in hand, what is in the socket, and whether that is closed. -/
def Connection.desk (c : Connection) : Option String × Writer × List UInt8 × List UInt8 × Bool :=
  (c.card.user, c.writer, c.inHand, c.outbox, c.shut)

theorem Connection.desk_eq {c : Connection} {user : Option String} {writer : Writer}
    {inHand outbox : List UInt8} {shut : Bool}
    (h : c.desk = (user, writer, inHand, outbox, shut)) :
    c.card.user = user ∧ c.writer = writer ∧ c.inHand = inHand ∧ c.outbox = outbox ∧
      c.shut = shut := by
  cases h
  exact ⟨rfl, rfl, rfl, rfl, rfl⟩

/-- A connection whose session has left the hub. -/
def Connection.departed (c : Connection) (gone : Option Client) : Connection :=
  { c.showing .deregistered with stage := .closing, writer := c.writer.left gone }

theorem Hub.leave_fst (h : Hub) (t : Clock) (id : Nat) (user : String) :
    (h.leave t id user).1 = h.registry.find? id := by
  show (h.strike id).2.registry.find? id = h.registry.find? id
  rw [registry_strike]

/-- Whether a writer gets its turn by a move. -/
def Move.isWriting : Move → Bool
  | fetch _ | write .. => true
  | _ => false

/-- Whether there is nothing for the writer of a connection to do in a move. -/
structure Connection.Rests (c : Connection) (m : Move) : Prop where
  fetch : m = .fetch c.id → c.inHand ≠ [] ∨ c.writer.isDraining = false
  write : ∀ n, m = .write c.id n → c.inHand = []

theorem Connection.rests_of_elsewhere (c : Connection) {m : Move} (hm : m.isWriting = false) :
    c.Rests m := by
  constructor
  · rintro rfl
    cases hm
  · rintro n rfl
    cases hm

namespace Server

variable {s w : Server} {c d : Connection} {m : Move} {μs : List HubMove}

theorem nextToWrite?_of_live {client : Client} (hwriter : c.writer = .live)
    (hclient : s.hub.registry.find? c.id = some client) :
    s.nextToWrite? c = client.link.mailbox.queue.head? := by
  unfold nextToWrite?
  rw [hwriter, hclient]
  rfl

/-! ## What can happen to a connection -/

/-- Whether bytes that the writer of a session has in hand should have been written and were not. -/
def writeFails (s : Server) (id : Nat) (m : Move) : Bool :=
  !s.gone && match m with
    | .write other _ => other == id &&
        (s.connection? id).any fun c => !c.inHand.isEmpty && c.isBroken
    | .writeFailure other => other == id && (s.connection? id).any fun c => !c.inHand.isEmpty
    | _ => false

/-- How a connection goes on in a move, as far as its writer is concerned, and what goes along in
the hub. -/
inductive Passage (s : Server) (m : Move) (μs : List HubMove) (c d : Connection) : Prop where
  /-- Its writer has no part in what happens. -/
  | aside (hdesk : d.desk = c.desk) (hended : c.stage = .ended → d.stage = .ended)
      (hspared : ∀ μ ∈ μs, μ.Spares c.id) (hrests : s.gone = false → c.Rests m)
  /-- It is closed before it has registered. -/
  | refused (hbefore : c.card.user = none)
      (hdesk : d.desk = (none, c.writer, c.inHand, c.outbox, true)) (hended : d.stage = .ended)
      (hμs : μs = [])
  /-- Its session joins the hub, and a writer begins. -/
  | comes {t : Clock} {now capacity : Nat} {user : String} {addr : Option String}
      (hbefore : c.card.user = none) (hstage : c.stage = .handshake)
      (hdesk : d.desk = (some user, .live, c.inHand, c.outbox, c.shut))
      (hμs : μs = [.join t now c.id user addr capacity])
  /-- Its session leaves the hub, and the writer has what was waiting. -/
  | goes {t : Clock} {user : String} (hbefore : c.card.user = some user)
      (hdesk : d.desk = (c.card.user, c.writer.left (s.hub.registry.find? c.id), c.inHand, c.outbox,
        c.shut)) (hμs : μs = [.leave t c.id user]) (hm : m.isWriting = false)
  /-- The writer takes a record from the mailbox in the registry. -/
  | takes {r : Record} (hempty : c.inHand = []) (hwriter : c.writer = .live)
      (hnext : s.nextToWrite? c = some r)
      (hdesk : d.desk = (c.card.user, c.writer, r.encode, c.outbox, c.shut))
      (hμs : μs = [.far c.id (.read 1)])
  /-- It takes a record from what is left. -/
  | drains {r : Record} {mailbox : Mailbox} (hempty : c.inHand = [])
      (hwriter : c.writer = .draining mailbox) (hnext : mailbox.queue.head? = some r)
      (hdesk : d.desk =
        (c.card.user, .draining (mailbox.take 1).2, r.encode, c.outbox, c.shut)) (hμs : μs = [])
  /-- Everything is written, and the socket is closed. -/
  | closes {mailbox : Mailbox} (hempty : c.inHand = []) (hwriter : c.writer = .draining mailbox)
      (hnothing : mailbox.queue = [])
      (hdesk : d.desk = (c.card.user, .done, c.inHand, c.outbox, true)) (hμs : μs = [])
  /-- Some bytes of what the writer has in hand are written. -/
  | writes {n : Nat} (hm : m = .write c.id n) (hsome : c.inHand ≠ [])
      (hdesk : d.desk = (c.card.user, c.writer, c.inHand.drop n, c.outbox ++ c.inHand.take n,
        c.shut)) (hμs : μs = [])
  /-- They are not, and the socket is closed. -/
  | fails (hfails : s.writeFails c.id m = true) (hsome : c.inHand ≠ [])
      (hdesk : d.desk = (c.card.user, .done, [], c.outbox, true)) (hμs : μs = failureCalls c)

/-! ## Who is there after a move -/

/-- Whoever puts a connection back as it is changes nothing. -/
theorem put_same (hs : (s.sessions.map Session.id).Nodup) (hc : s.connection? c.id = some c) :
    (s.put c).connections = s.connections := by
  rw [ids_sessions] at hs
  refine (List.map_congr_left fun e he => ?_).trans (List.map_id _)
  split
  · rename_i heq
    exact (List.inj_on_of_nodup_map hs he (connection?_some hc).1 heq).symm
  · rfl

theorem connections_endSession (s : Server) (c : Connection) :
    (s.endSession c).connections = (s.put c.finished).connections := by
  unfold endSession
  dsimp only
  split <;> rfl

theorem connections_failWrite (s : Server) (c : Connection) :
    (s.failWrite c).connections =
      (s.put { c with writer := .done, inHand := [], shut := true }).connections := by
  unfold failWrite
  cases c.writer <;> rfl

/-- A session that leaves takes its record along, if there is one. -/
theorem depart_left (s : Server) (c : Connection) (user : String) :
    s.depart c user =
      ({ c with writer := c.writer.left (s.hub.registry.find? c.id) },
        s.withHub (s.hub.leave s.clock c.id user).2) := by
  have hgone := s.hub.leave_fst s.clock c.id user
  unfold depart
  rcases hleave : s.hub.leave s.clock c.id user with ⟨gone, h⟩
  rw [hleave] at hgone
  obtain rfl : gone = s.hub.registry.find? c.id := hgone
  rfl

theorem breakOff_put (h : c.card.phase = .active) (s : Server) (user : String) :
    s.breakOff c user =
      (s.withHub (s.hub.leave s.clock c.id user).2).put
        (c.departed (s.hub.registry.find? c.id)) := by
  have hmay : c.card.phase.canAdvance .disconnecting = true := by
    rw [h]
    rfl
  unfold breakOff
  rw [advance_eq hmay, depart_left]
  dsimp only
  rw [advance_eq rfl]
  rfl

/-! ## Who is concerned by what goes on in the hub -/

theorem spares_failureCalls {id : Nat} (hid : c.id ≠ id) : ∀ μ ∈ failureCalls c, μ.Spares id := by
  unfold failureCalls
  cases c.writer <;> simp [HubMove.Spares, hid]

theorem Attends.spares (h : s.Attends c m μs w) {id : Nat} (hid : c.id ≠ id) :
    ∀ μ ∈ μs, μ.Spares id := by
  cases h with
  | rests | looks => exact List.forall_mem_nil _
  | leaves => exact List.forall_mem_singleton.2 hid
  | deals => exact Hub.spares_dealings

theorem Writes.spares (h : s.Writes c m μs w) {id : Nat} (hid : c.id ≠ id) :
    ∀ μ ∈ μs, μ.Spares id := by
  cases h with
  | takes => exact List.forall_mem_singleton.2 hid
  | fails => exact spares_failureCalls hid
  | _ => exact List.forall_mem_nil _

/-- Nobody makes somebody else come or go, or reads in their place. -/
theorem spares_actCalls {id : Nat} (hm : s.runner? m ≠ some id) :
    ∀ μ ∈ s.actCalls m, μ.Spares id := by
  have hnone : ∀ μ ∈ ([] : List HubMove), μ.Spares id := List.forall_mem_nil _
  have hat : ∀ (other : Nat) (calls : Connection → List HubMove), some other ≠ some id →
      (∀ c : Connection, c.id ≠ id → ∀ μ ∈ calls c, μ.Spares id) →
        ∀ μ ∈ (s.connection? other).elim [] calls, μ.Spares id := by
    intro other calls hother h
    cases hc : s.connection? other with
    | none => exact hnone
    | some c =>
      obtain ⟨-, rfl⟩ := connection?_some hc
      exact h c fun heq => hother (congrArg some heq)
  cases m with
  | signal other => exact List.forall_mem_singleton.2 trivial
  | dismiss =>
    rcases s.dismiss_cases with ⟨-, hcalls⟩ | ⟨-, -, -, -, hcalls⟩
    · rw [hcalls]
      exact hnone
    · rw [hcalls]
      exact List.forall_mem_singleton.2 trivial
  | finishClosing =>
    simp only [actCalls]
    split
    · split
      · exact List.forall_mem_singleton.2 trivial
      · exact hnone
    · exact hnone
  | handshake other =>
    refine hat other _ hm fun c hc => ?_
    unfold handshakeCalls
    split
    · split
      · exact hnone
      · split <;> simp [HubMove.Spares, hc]
    · exact hnone
  | turn other => exact hat other _ hm fun c hc => (s.attends_turn c).spares hc
  | idle other => exact hat other _ hm fun c hc => (s.attends_idle c (.idle other)).spares hc
  | fetch other => exact hat other _ hm fun c hc => (s.writes_fetch c).spares hc
  | write other n => exact hat other _ hm fun c hc => (s.writes_write c n).spares hc
  | writeFailure other => exact hat other _ hm fun c hc => (s.writes_failure c).spares hc
  | _ => exact hnone

/-- Nor does anybody do so where there is nobody. -/
theorem spares_of_absent {id : Nat} (hc : s.connection? id = none) (m : Move) :
    ∀ μ ∈ s.calls m, μ.Spares id := by
  refine step_cases (motive := fun μs _ => ∀ μ ∈ μs, μ.Spares id) m (List.forall_mem_nil _) ?_
  by_cases hm : s.runner? m = some id
  · have hnil : s.actCalls m = [] := by
      cases m with
      | handshake | turn | idle | fetch | write | writeFailure =>
        obtain rfl := Option.some.inj hm
        simp only [actCalls, hc, Option.elim_none]
      | signal | dismiss | finishClosing => cases hm
      | _ => rfl
    exact HubMove.spares_of_nil hnil id
  · exact spares_actCalls hm

/-! ## Passages at a connection -/

/-- A move that is made at a connection changes that one only. -/
def Through (s : Server) (m : Move) (μs : List HubMove) (c : Connection) (w : Server) : Prop :=
  ∃ d, w.connections = (s.put d).connections ∧ d.id = c.id ∧ s.Passage m μs c d

/-- The writer of a connection has no part in a move that is made there. -/
theorem through_put (hid : d.id = c.id) (hdesk : d.desk = c.desk)
    (hended : c.stage = .ended → d.stage = .ended) (hm : m.isWriting = false) :
    s.Through m [] c (s.put d) :=
  ⟨d, rfl, hid, .aside hdesk hended (List.forall_mem_nil _) fun _ => c.rests_of_elsewhere hm⟩

theorem through_endSession (hm : m.isWriting = false) : s.Through m [] c (s.endSession c) :=
  ⟨c.finished, connections_endSession .., rfl,
    .aside rfl (fun _ => rfl) (List.forall_mem_nil _) fun _ => c.rests_of_elsewhere hm⟩

theorem through_refuse (huser : c.card.user = none)
    (hmay : c.card.phase.canAdvance .deregistered = true) : s.Through m [] c (s.refuse c) := by
  rw [refuse_eq hmay]
  refine ⟨_, connections_endSession .., rfl, .refused huser ?_ rfl rfl⟩
  show (c.card.user, _) = _
  rw [huser]
  rfl

namespace Sound

variable (hs : s.Sound)
include hs

theorem through_same (hc : s.connection? c.id = some c) (hrests : c.Rests m) :
    s.Through m [] c s :=
  ⟨c, (put_same hs.nodup hc).symm, rfl,
    .aside rfl id (List.forall_mem_nil _) fun _ => hrests⟩

theorem through_breakOff (hc : s.connection? c.id = some c) {user : String}
    (hstage : c.stage = .serving user) (notice : Bool) (hm : m.isWriting = false) :
    s.Through m [.leave s.clock c.id user] c (s.breakOff { c with notice } user) := by
  have hcard : c.card = ⟨c.id, some user, .active⟩ :=
    congrArg Session.card ((hs.proper_of_connection? hc).of_serving hstage)
  rw [breakOff_put (by show c.card.phase = _; rw [hcard])]
  exact ⟨_, rfl, rfl, .goes (by rw [hcard]) rfl rfl hm⟩

theorem through_register (hc : s.connection? c.id = some c) (hstage : c.stage = .handshake)
    (inbox : List UInt8) (i : Identity) :
    s.Through m [.join s.clock s.clock.ms c.id i.user none s.hall.settings.mailboxSize] c
      (s.register { c with inbox } i) := by
  have hcard : c.card = ⟨c.id, none, .admitted⟩ :=
    congrArg Session.card ((hs.proper_of_connection? hc).of_handshake hstage)
  rw [register_eq (by show c.card.phase = _; rw [hcard])]
  exact ⟨_, rfl, rfl, .comes (by rw [hcard]) hstage rfl rfl⟩

theorem through_begin (hc : s.connection? c.id = some c) :
    s.Through (.begin c.id) [] c (s.begin c) := by
  unfold begin
  split
  · rename_i hstage
    have hcard : c.card = ⟨c.id, none, .queued⟩ :=
      congrArg Session.card ((hs.proper_of_connection? hc).of_taken hstage)
    split
    · exact through_refuse (by rw [hcard]) (by rw [hcard]; rfl)
    · rw [advance_eq (by rw [hcard]; rfl)]
      refine through_put rfl rfl (fun hended => ?_) rfl
      cases hstage.symm.trans hended
  · exact hs.through_same hc (c.rests_of_elsewhere rfl)

theorem through_refuse_greeting (hc : s.connection? c.id = some c) (hstage : c.stage = .handshake) :
    s.Through m [] c (s.refuse c) := by
  have hcard : c.card = ⟨c.id, none, .admitted⟩ :=
    congrArg Session.card ((hs.proper_of_connection? hc).of_handshake hstage)
  exact through_refuse (by rw [hcard]) (by rw [hcard]; rfl)

theorem through_handshake (hc : s.connection? c.id = some c) :
    s.Through (.handshake c.id) (s.handshakeCalls c) c (s.handshake c) := by
  unfold handshake handshakeCalls
  split
  · rename_i hready
    split
    · exact hs.through_refuse_greeting hc hready.1
    · cases Identity.parse (c.inbox.take identitySpace) s.hall.settings.maxUserBytes with
      | ok i => exact hs.through_register hc hready.1 _ i
      | error e => exact hs.through_refuse_greeting hc hready.1
  · exact hs.through_same hc (c.rests_of_elsewhere rfl)

theorem through_attends (hc : s.connection? c.id = some c) (hm : m.isWriting = false)
    (h : s.Attends c m μs w) : s.Through m μs c w := by
  cases h with
  | rests => exact hs.through_same hc (c.rests_of_elsewhere hm)
  | looks _ hd =>
    obtain ⟨framer, inbox, attention, rfl⟩ := hd.eq
    exact through_put rfl rfl id hm
  | leaves hstage notice => exact hs.through_breakOff hc hstage notice hm
  | deals =>
    exact ⟨_, rfl, rfl, .aside rfl id Hub.spares_dealings fun _ => c.rests_of_elsewhere hm⟩

theorem through_writes (hhere : s.gone = false) (hc : s.connection? c.id = some c)
    (h : s.Writes c m μs w) : s.Through m μs c w := by
  cases h with
  | rests hfetch hwrite => exact hs.through_same hc ⟨hfetch, hwrite⟩
  | takes hempty hwriter hnext => exact ⟨_, rfl, rfl, .takes hempty hwriter hnext rfl rfl⟩
  | drains hempty hwriter hnext => exact ⟨_, rfl, rfl, .drains hempty hwriter hnext rfl rfl⟩
  | closes hempty hwriter hnothing =>
    exact ⟨_, rfl, rfl, .closes hempty hwriter hnothing rfl rfl⟩
  | writes hm hsome => exact ⟨_, rfl, rfl, .writes hm hsome rfl rfl⟩
  | fails hm hsome =>
    have hfails : s.writeFails c.id m = true := by
      rcases hm with ⟨n, rfl, hbroken⟩ | rfl
      · simp [writeFails, hhere, hc, hsome, hbroken]
      · simp [writeFails, hhere, hc, hsome]
    exact ⟨_, s.connections_failWrite c, rfl, .fails hfails hsome rfl rfl⟩

end Sound

/-! ## Passages of every connection -/

/-- Nothing that is made by others has to do with the writer of a connection. -/
theorem passage_of_others (hm : s.runner? m ≠ some c.id) : s.Passage m (s.actCalls m) c c := by
  refine .aside rfl id (spares_actCalls hm) fun _ => ⟨?_, ?_⟩
  · rintro rfl
    exact absurd rfl hm
  · rintro n rfl
    exact absurd rfl hm

theorem passage_same (hm : s.runner? m ≠ some c.id) (hc : s.connection? c.id = some c)
    (hw : w.connections = s.connections) :
    ∃ d, w.connection? c.id = some d ∧ s.Passage m (s.actCalls m) c d := by
  have hfind : w.connection? c.id = s.connection? c.id :=
    congrArg (List.find? fun e : Connection => e.id == c.id) hw
  exact ⟨c, hfind.trans hc, passage_of_others hm⟩

/-- What is done at one connection passes the others by. -/
theorem passage_atConnection {id : Nat} {calls : Connection → List HubMove}
    {f : Connection → Server} (hcalls : s.actCalls m = (s.connection? id).elim [] calls)
    (hm : id ≠ c.id → s.runner? m ≠ some c.id)
    (hf : ∀ e, s.connection? e.id = some e → e.id = id → s.Through m (calls e) e (f e))
    (hc : s.connection? c.id = some c) :
    ∃ d, (s.atConnection id f).connection? c.id = some d ∧ s.Passage m (s.actCalls m) c d := by
  unfold atConnection
  cases he : s.connection? id with
  | none =>
    have hid : id ≠ c.id := by
      rintro rfl
      rw [he] at hc
      cases hc
    exact passage_same (hm hid) hc rfl
  | some e =>
    obtain ⟨-, heid⟩ := connection?_some he
    obtain ⟨d, hw, hd, hpassage⟩ := hf e (heid ▸ he) heid
    by_cases hid : id = c.id
    · obtain rfl : c = e := Option.some.inj (hc.symm.trans (hid ▸ he))
      rw [hcalls, he]
      exact ⟨d, connection?_of_put hc hd hw, hpassage⟩
    · have hcd : c.id ≠ d.id := fun h => hid (heid.symm.trans (hd.symm.trans h.symm))
      exact ⟨c, (connection?_of_put_of_ne hcd hw).trans hc, passage_of_others (hm hid)⟩

/-- What is done at one connection without the hub. -/
theorem passage_outdoors {id : Nat} {f : Connection → Server} (hcalls : s.actCalls m = [])
    (hm : id ≠ c.id → s.runner? m ≠ some c.id)
    (hf : ∀ e, s.connection? e.id = some e → e.id = id → s.Through m [] e (f e))
    (hc : s.connection? c.id = some c) :
    ∃ d, (s.atConnection id f).connection? c.id = some d ∧ s.Passage m (s.actCalls m) c d := by
  have hnothing : s.actCalls m = (s.connection? id).elim [] fun _ => [] := by
    rw [hcalls]
    cases s.connection? id <;> rfl
  exact passage_atConnection hnothing hm hf hc

/-- The notice that the server closes comes to a session and not to its writer. -/
theorem passage_announce (hc : s.connection? c.id = some c) :
    ∃ d, s.announce.connection? c.id = some d ∧ s.Passage .announce [] c d := by
  cases htold : s.announcing with
  | true =>
    refine ⟨c.noticing, ?_, .aside rfl id (List.forall_mem_nil _) fun _ =>
      c.rests_of_elsewhere rfl⟩
    rw [announce_eq htold]
    show (s.connections.map Connection.noticing).find? (·.id == c.id) = _
    rw [List.find?_map]
    exact congrArg (Option.map Connection.noticing) hc
  | false =>
    rw [announce_of_told htold]
    exact passage_same (m := .announce) nofun hc rfl

namespace Sound

variable (hs : s.Sound)
include hs

theorem passage_look (i : Nat) (hc : s.connection? c.id = some c) :
    ∃ d, (s.look i).connection? c.id = some d ∧ s.Passage (.look i) [] c d := by
  by_cases hawake : s.pool.workers[i]? = some .awake
  · have hrunner : s.runner? (.look i) = s.pool.queue.head? := if_pos hawake
    cases hqueue : s.pool.queue with
    | nil =>
      rw [look_eq hawake, (hs.staffed.look_of_nobody hawake hqueue).1]
      refine passage_same (m := .look i) ?_ hc rfl
      rw [hrunner, hqueue]
      intro h
      cases h
    | cons id rest =>
      obtain ⟨front, σ, back, hsplit, rfl, hstage, hworker, -⟩ :=
        hs.staffed.look_of_waiting hawake hqueue hs.queue_nodup
      have hmem : σ ∈ s.sessions := hsplit ▸ List.mem_append_right _ List.mem_cons_self
      obtain ⟨e, he, rfl⟩ := exists_connection?_of_mem hs.nodup hmem
      -- What a worker does with the session that it takes is done at that connection.
      have hlook : s.look i = s.atConnection e.id (s.withPool (s.pool.look i)).start := by
        have he' : s.connection? e.id = some e := he
        rw [look_eq hawake, WorkPool.taskOf?_eq_some_iff.2 hworker, Option.bind_some, he,
          atConnection, he']
      rw [hlook]
      refine passage_outdoors (m := .look i) rfl (fun hid => ?_) (fun e' he' hid => ?_) hc
      · rw [hrunner, hqueue]
        exact fun h => hid (Option.some.inj h)
      · obtain rfl : e' = e := Option.some.inj (he'.symm.trans (hid ▸ he))
        have hqueued : e'.stage = .queued := hstage
        refine ⟨e'.isTaken, rfl, rfl, .aside rfl (fun hended => ?_) (List.forall_mem_nil _)
          fun _ => e'.rests_of_elsewhere rfl⟩
        cases hqueued.symm.trans hended
  · have hlook : s.look i = s := by
      unfold look
      split
      · contradiction
      · rfl
    rw [hlook]
    refine passage_same (m := .look i) ?_ hc rfl
    have hrunner : s.runner? (.look i) = none := if_neg hawake
    rw [hrunner]
    intro h
    cases h

theorem passage_act (hhere : s.gone = false) (m : Move)
    (hword : s.lastId + [m].count .accept < UInt64.size) (hc : s.connection? c.id = some c) :
    ∃ d, (s.act m).connection? c.id = some d ∧ s.Passage m (s.actCalls m) c d := by
  have hother : ∀ {id : Nat}, id ≠ c.id → some id ≠ some c.id :=
    fun hid h => hid (Option.some.inj h)
  cases m with
  | time | signal | exit => exact passage_same nofun hc rfl
  | accept =>
    cases hlistening : s.listening with
    | true =>
      obtain ⟨pool, -, haccept⟩ := hs.exists_accept_eq hlistening hword
      have hfind : s.accept.connection? c.id = some c := by
        rw [haccept]
        show (s.connections ++ _).find? _ = _
        rw [List.find?_append, show s.connections.find? (·.id == c.id) = some c from hc]
        rfl
      exact ⟨c, hfind, passage_of_others nofun⟩
    | false => exact passage_same nofun hc (congrArg connections (accept_of_shut hlistening))
  | call =>
    refine passage_same nofun hc ?_
    exact congrArg (fun r : Bool × Server => r.2.connections) s.call_eq
  | announce => exact passage_announce hc
  | close =>
    refine passage_same nofun hc ?_
    cases hlistening : s.listening with
    | true => exact (congrArg connections (close_eq hlistening)).trans rfl
    | false => exact congrArg connections (close_of_shut hlistening)
  | dismiss =>
    refine passage_same nofun hc ?_
    rcases s.dismiss_cases with ⟨hsame, -⟩ | ⟨-, -, -, hdismissed, -⟩
    · exact congrArg connections hsame
    · exact (congrArg connections hdismissed).trans rfl
  | finishClosing =>
    refine passage_same nofun hc ?_
    rcases s.finishClosing_cases with hsame | ⟨-, -, -, hclosed⟩
    · exact congrArg connections hsame
    · exact (congrArg connections hclosed).trans rfl
  | look i => exact hs.passage_look i hc
  | arrive other bytes =>
    refine passage_outdoors rfl (fun _ => nofun) (fun e _ _ => ?_) hc
    unfold Connection.arrive
    split <;> exact through_put rfl rfl id rfl
  | endInput other ending =>
    refine passage_outdoors rfl (fun _ => nofun) (fun e _ _ => ?_) hc
    unfold Connection.endInput
    split <;> exact through_put rfl rfl id rfl
  | begin id =>
    refine passage_outdoors rfl hother (fun e he hid => ?_) hc
    subst hid
    exact hs.through_begin he
  | handshake id =>
    refine passage_atConnection rfl hother (fun e he hid => ?_) hc
    subst hid
    exact hs.through_handshake he
  | handshakeTimeout id =>
    refine passage_outdoors rfl hother (fun e he hid => ?_) hc
    split
    · exact hs.through_refuse_greeting he ‹_›
    · exact hs.through_same he (e.rests_of_elsewhere rfl)
  | turn id =>
    refine passage_atConnection rfl hother (fun e he hid => ?_) hc
    subst hid
    exact hs.through_attends he rfl (s.attends_turn e)
  | idle id =>
    refine passage_atConnection rfl hother (fun e he hid => ?_) hc
    exact hs.through_attends he rfl (s.attends_idle e (.idle id))
  | fetch id =>
    refine passage_atConnection rfl hother (fun e he hid => ?_) hc
    subst hid
    exact hs.through_writes hhere he (s.writes_fetch e)
  | write id n =>
    refine passage_atConnection rfl hother (fun e he hid => ?_) hc
    subst hid
    exact hs.through_writes hhere he (s.writes_write e n)
  | writeFailure id =>
    refine passage_atConnection rfl hother (fun e he hid => ?_) hc
    subst hid
    exact hs.through_writes hhere he (s.writes_failure e)
  | conclude id | giveUp id =>
    -- The writer is not asked, so it goes on if it is not done.
    refine passage_outdoors rfl hother (fun e he hid => ?_) hc
    split
    · exact through_endSession rfl
    · exact hs.through_same he (e.rests_of_elsewhere rfl)

/-- A connection goes on by one of its passages, whatever happens. -/
theorem passage (m : Move) (hword : s.lastId + [m].count .accept < UInt64.size)
    (hc : s.connection? c.id = some c) :
    ∃ d, (s.step m).connection? c.id = some d ∧ s.Passage m (s.calls m) c d := by
  cases hgone : s.gone with
  | true =>
    rw [step_of_gone hgone, calls_of_gone hgone]
    refine ⟨c, hc, .aside rfl id (List.forall_mem_nil _) fun hhere => ?_⟩
    cases hgone.symm.trans hhere
  | false =>
    rw [step_of_here hgone, calls_of_here hgone]
    exact hs.passage_act hgone m hword hc

theorem unknown_of_absent {id : Nat} (hc : s.connection? id = none) :
    id ∉ s.sessions.map Session.id := by
  intro hin
  obtain ⟨σ, hσ, rfl⟩ := List.mem_map.1 hin
  obtain ⟨c, hc', -⟩ := exists_connection?_of_mem hs.nodup hσ
  rw [hc] at hc'
  cases hc'

/-- Where there is no connection, nobody is registered. -/
theorem nobody_of_absent {id : Nat} (hc : s.connection? id = none) :
    s.hub.registry.find? id = none := by
  have hcontains := not_contains_of_seats hs.seats (hs.unknown_of_absent hc)
  exact Option.isNone_iff_eq_none.1 (by simpa [Registry.contains] using hcontains)

/-- A connection that was not there has just been accepted. -/
theorem newcomer (m : Move) (hword : s.lastId + [m].count .accept < UInt64.size)
    {id : Nat} (hnew : s.connection? id = none) (hd : (s.step m).connection? id = some d) :
    d = .accepted id := by
  obtain ⟨hmem, rfl⟩ := connection?_some hd
  have hunknown := hs.unknown_of_absent hnew
  rw [ids_sessions] at hunknown
  cases hannounces : s.announces m with
  | true =>
    rw [connections_of_announces hannounces] at hmem
    obtain ⟨c, hc, rfl⟩ := List.mem_map.1 hmem
    exact absurd (List.mem_map_of_mem hc) hunknown
  | false =>
    rcases hs.of_mem_step_of_silent hannounces hword hmem with ⟨c, hc, hid, -⟩ | rfl
    · exact absurd (hid ▸ List.mem_map_of_mem hc) hunknown
    · rfl

/-- The registry is what the moves of the hub make of it. -/
theorem registry_step (m : Move) (hword : s.lastId + [m].count .accept < UInt64.size) :
    (s.step m).hub.registry = (s.hub.run (s.calls m)).registry := by
  obtain ⟨came, -, hchange⟩ := hs.exists_change m hword
  exact Hub.registry_of_indoors hchange.hub

end Sound

end Server

end ChatHub
