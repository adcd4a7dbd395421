import ChatHub.Proofs.Record.RoundTrip
import ChatHub.Proofs.Server.Passage
/-!
# What is queued is what is written

A session can end in many ways, and its writer learns of it only when the mailbox has no other end
any more. By then records may still wait in it: a last answer, or the notices that came while the
session was leaving. This module follows the records of one session from its mailbox to its socket,
through whatever happens to the server.

`Carried` says how far they have come. What is in the socket and what the writer has in hand are,
together, the records that it has taken, and with what still waits these are what was queued, in
that order; only a write that fails breaks this, and then what is in the socket is the beginning of
it. Every passage of the connection keeps that (`Sound.carried_step`). That a writer comes to its
end is another matter: when the record of its client has gone, nothing is put into the mailbox any
more, and each round in which the writer takes a record and writes so many bytes brings it nearer
(`Steady.rounds_run`). A process that ends does not wait for that, and then what is left is lost.
-/

namespace ChatHub

/-- The beginning of some pieces in a row has the first of them, and behind these at most the
beginning of the next one. -/
theorem exists_whole_of_prefix {α β : Type} {f : α → List β} {xs : List α} {bytes : List β}
    (h : bytes <+: xs.flatMap f) :
    ∃ whole part rest, xs = whole ++ rest ∧ bytes = whole.flatMap f ++ part ∧
      (part = [] ∨ ∃ x, rest.head? = some x ∧ part <+: f x ∧ part.length < (f x).length) := by
  induction xs generalizing bytes with
  | nil => exact ⟨[], [], [], rfl, List.prefix_nil.1 h, .inl rfl⟩
  | cons x xs ih =>
    rw [List.flatMap_cons] at h
    rcases Nat.lt_or_ge bytes.length (f x).length with hshort | hlong
    · have hpart := List.prefix_of_prefix_length_le h (List.prefix_append _ _) (Nat.le_of_lt hshort)
      exact ⟨[], bytes, x :: xs, rfl, rfl, .inr ⟨x, rfl, hpart, hshort⟩⟩
    · obtain ⟨rest, rfl⟩ := List.prefix_of_prefix_length_le (List.prefix_append _ _) h hlong
      obtain ⟨whole, part, left, rfl, rfl, hpart⟩ := ih ((List.prefix_append_right_inj _).1 h)
      exact ⟨x :: whole, part, left, rfl, by rw [List.flatMap_cons, List.append_assoc], hpart⟩

/-! ## Records that were queued -/

/-- The records that were put into a mailbox between two moments at which the record of its client
is looked at. Whatever stands behind the old end of the queue was put there. -/
def placed : Option Client → Option Client → List Record
  | _, none => []
  | none, some d => d.link.mailbox.queue
  | some c, some d => d.link.mailbox.queue.drop c.link.mailbox.queue.length

theorem placed_none (c : Option Client) : placed c none = [] := by
  cases c <;> rfl

theorem queue_append_placed {c d : Client} (h : c.link.mailbox.queue <+: d.link.mailbox.queue) :
    c.link.mailbox.queue ++ placed (some c) (some d) = d.link.mailbox.queue :=
  List.prefix_iff_eq_append.1 h

theorem Grown.eq_none {c : Option Client} (h : Grown none c) : c = none := by
  cases h
  rfl

namespace Server

variable {settings : Settings} {s : Server} {c d : Connection} {m : Move} {id : Nat}
  {q : List Record} {failed : Bool}

/-- The records that a move puts into the mailbox of a session. -/
def queuedBy (s : Server) (id : Nat) (m : Move) : List Record :=
  placed (s.hub.registry.find? id) ((s.step m).hub.registry.find? id)

/-- The records that are put into the mailbox of a session in a run. -/
def queuedFor (s : Server) (id : Nat) : List Move → List Record
  | [] => []
  | m :: ms => s.queuedBy id m ++ (s.step m).queuedFor id ms

/-- Whether a write to the socket of a session fails in a run. -/
def writeFailed (s : Server) (id : Nat) : List Move → Bool
  | [] => false
  | m :: ms => s.writeFails id m || (s.step m).writeFailed id ms

/-- The records that the writer of a connection has not taken yet. -/
def unwritten (s : Server) (c : Connection) : List Record :=
  match c.writer with
  | .live => ((s.hub.registry.find? c.id).map (·.link.mailbox.queue)).getD []
  | .draining mailbox => mailbox.queue
  | _ => []

theorem writeFailed_append (s : Server) (id : Nat) (before after : List Move) :
    s.writeFailed id (before ++ after) =
      (s.writeFailed id before || (s.run before).writeFailed id after) := by
  induction before generalizing s with
  | nil => rfl
  | cons m ms ih =>
    show (s.writeFails id m || (s.step m).writeFailed id (ms ++ after)) =
      ((s.writeFails id m || (s.step m).writeFailed id ms) ||
        ((s.step m).run ms).writeFailed id after)
    rw [ih, Bool.or_assoc]

/-! ## The record of a client after a move -/

namespace Sound

variable (hs : s.Sound) (hword : s.lastId + [m].count .accept < UInt64.size)
include hs hword

theorem grown_step (hspared : ∀ μ ∈ s.calls m, μ.Spares id) :
    Grown (s.hub.registry.find? id) ((s.step m).hub.registry.find? id) := by
  rw [hs.registry_step m hword]
  exact s.hub.grown_run hspared

/-- Where nobody is, nothing is queued. -/
theorem nobody_step (hnobody : s.hub.registry.find? id = none)
    (hspared : ∀ μ ∈ s.calls m, μ.Spares id) :
    (s.step m).hub.registry.find? id = none ∧ s.queuedBy id m = [] := by
  have hgrown := hs.grown_step hword hspared
  rw [hnobody] at hgrown
  have hafter := hgrown.eq_none
  rw [queuedBy, hafter]
  exact ⟨rfl, placed_none _⟩

theorem find?_step_of_leave {t : Clock} {user : String} (hcalls : s.calls m = [.leave t id user]) :
    (s.step m).hub.registry.find? id = none := by
  rw [hs.registry_step m hword, hcalls]
  show (s.hub.act (.leave t id user)).registry.find? id = none
  rw [HubMove.find?_act]
  show ((s.hub.registry.remove id).2.find? id).map _ = none
  rw [Registry.find?_remove, if_pos rfl]
  rfl

theorem find?_step_of_join {t : Clock} {now capacity : Nat} {user : String} {addr : Option String}
    (hcalls : s.calls m = [.join t now id user addr capacity]) :
    ∃ client, (s.step m).hub.registry.find? id = some client := by
  rw [hs.registry_step m hword, hcalls]
  exact Option.isSome_iff_exists.1 (s.hub.contains_join t (.arriving now id user addr capacity))

theorem find?_step_of_read {client : Client} (hclient : s.hub.registry.find? id = some client)
    (hcalls : s.calls m = [.far id (.read 1)]) :
    ∃ after, (s.step m).hub.registry.find? id = some after ∧
      after.link.mailbox.queue = client.link.mailbox.queue.tail := by
  obtain ⟨-, hid⟩ := Registry.find?_some hclient
  refine ⟨client.farEnd (.read 1), ?_, List.drop_one⟩
  rw [hs.registry_step m hword, hcalls]
  show (s.hub.act (.far id (.read 1))).registry.find? id = _
  have hstays : (HubMove.far id (.read 1)).vacates ≠ some id := nofun
  rw [HubMove.find?_act_of_stays _ hstays, hclient]
  exact congrArg some (if_pos hid)

end Sound

/-! ## How far the records have come -/

/-- How far the records for a connection have come when `q` are all that were queued. -/
inductive Carried (s : Server) (c : Connection) (q : List Record) (failed : Bool) : Prop where
  /-- It has not registered. -/
  | waits (hdesk : c.desk = (none, .idle, [], [], c.shut))
      (hshut : c.shut = true → c.stage = .ended) (hnobody : s.hub.registry.find? c.id = none)
      (hq : q = [])
  /-- The writer reads the mailbox in the registry. -/
  | reads {client : Client} {taken : List Record} (huser : c.card.user ≠ none)
      (hwriter : c.writer = .live) (hshut : c.shut = false)
      (hclient : s.hub.registry.find? c.id = some client)
      (hbytes : c.outbox ++ c.inHand = taken.flatMap Record.encode)
      (hq : q = taken ++ client.link.mailbox.queue)
  /-- The record of the client has gone, and the writer has what it left. -/
  | drains {mailbox : Mailbox} {taken : List Record} (huser : c.card.user ≠ none)
      (hwriter : c.writer = .draining mailbox) (hshut : c.shut = false)
      (hnobody : s.hub.registry.find? c.id = none)
      (hbytes : c.outbox ++ c.inHand = taken.flatMap Record.encode)
      (hq : q = taken ++ mailbox.queue)
  /-- Everything is written. -/
  | done (huser : c.card.user ≠ none) (hwriter : c.writer = .done) (hhand : c.inHand = [])
      (hshut : c.shut = true) (hnobody : s.hub.registry.find? c.id = none)
      (houtbox : c.outbox = q.flatMap Record.encode)
  /-- A write has failed, and what was not written by then never is. -/
  | broken (huser : c.card.user ≠ none) (hwriter : c.writer = .done) (hhand : c.inHand = [])
      (hshut : c.shut = true) (hfailed : failed = true)
      (houtbox : c.outbox <+: q.flatMap Record.encode)

theorem failureCalls_of_not_live (hwriter : c.writer ≠ .live) : failureCalls c = [] := by
  unfold failureCalls
  split
  · contradiction
  · rfl

/-- Whoever has registered stays a user, even when the session is over. -/
theorem Passage.registered {μs : List HubMove} (h : s.Passage m μs c d)
    (huser : c.card.user ≠ none) : d.card.user ≠ none := by
  cases h with
  | refused hbefore | comes hbefore => exact absurd hbefore huser
  | aside hdesk | goes _ hdesk | takes _ _ _ hdesk | drains _ _ _ hdesk | closes _ _ _ hdesk
  | writes _ _ hdesk | fails _ _ hdesk =>
    rw [(Connection.desk_eq hdesk).1]
    exact huser

/-- A writer that is done stays so, and nothing more comes to the socket. -/
theorem Passage.of_done {μs : List HubMove} (h : s.Passage m μs c d) (huser : c.card.user ≠ none)
    (hwriter : c.writer = .done) (hhand : c.inHand = []) : d.desk = c.desk := by
  cases h with
  | aside hdesk => exact hdesk
  | refused hbefore | comes hbefore => exact absurd hbefore huser
  | goes _ hdesk =>
    rw [hwriter] at hdesk
    rw [hdesk, Connection.desk, hwriter]
    rfl
  | takes _ hbefore | drains _ hbefore | closes _ hbefore => cases hwriter.symm.trans hbefore
  | writes _ hsome | fails _ hsome => exact absurd hhand hsome

namespace Sound

variable (hs : s.Sound) (hword : s.lastId + [m].count .accept < UInt64.size)
  (hpassage : s.Passage m (s.calls m) c d)
include hs hword hpassage

/-- The record of a session that has left does not come back. -/
theorem nobody_of_passage (huser : c.card.user ≠ none) (hwriter : c.writer ≠ .live)
    (hnobody : s.hub.registry.find? c.id = none) :
    (s.step m).hub.registry.find? c.id = none ∧ s.queuedBy c.id m = [] := by
  have hquiet : s.calls m = [] → _ := fun hcalls =>
    hs.nobody_step hword hnobody (HubMove.spares_of_nil hcalls c.id)
  cases hpassage with
  | aside _ _ hspared => exact hs.nobody_step hword hnobody hspared
  | refused hbefore | comes hbefore => exact absurd hbefore huser
  | goes _ _ hcalls =>
    have hafter := hs.find?_step_of_leave hword hcalls
    rw [queuedBy, hafter]
    exact ⟨rfl, placed_none _⟩
  | takes _ hlive => exact absurd hlive hwriter
  | drains _ _ _ _ hcalls | closes _ _ _ _ hcalls | writes _ _ _ hcalls => exact hquiet hcalls
  | fails _ _ _ hcalls => exact hquiet (hcalls.trans (failureCalls_of_not_live hwriter))

variable (hd : d.id = c.id)
include hd

theorem carried_of_waits (hdesk : c.desk = (none, .idle, [], [], c.shut))
    (hshut : c.shut = true → c.stage = .ended) (hnobody : s.hub.registry.find? c.id = none) :
    (s.step m).Carried d (s.queuedBy c.id m) (failed || s.writeFails c.id m) := by
  obtain ⟨huser, hwriter, hhand, houtbox, -⟩ := Connection.desk_eq hdesk
  cases hpassage with
  | aside hsame hended hspared =>
    obtain ⟨hafter, hq⟩ := hs.nobody_step hword hnobody hspared
    obtain ⟨-, -, -, -, hshut'⟩ := Connection.desk_eq hsame
    refine .waits (by rw [hsame, hdesk, hshut']) (fun hclosed => ?_) (hd ▸ hafter) hq
    exact hended (hshut (hshut'.symm.trans hclosed))
  | refused _ hafter hended hcalls =>
    obtain ⟨hafter', hq⟩ := hs.nobody_step hword hnobody (HubMove.spares_of_nil hcalls _)
    obtain ⟨-, -, -, -, hshut'⟩ := Connection.desk_eq hafter
    rw [hwriter, hhand, houtbox, ← hshut'] at hafter
    exact .waits hafter (fun _ => hended) (hd ▸ hafter') hq
  | comes _ hstage hafter hcalls =>
    obtain ⟨client, hclient⟩ := hs.find?_step_of_join hword hcalls
    obtain ⟨huser', hwriter', hhand', houtbox', hshut'⟩ := Connection.desk_eq hafter
    have hopen : c.shut = false := by
      rw [Bool.eq_false_iff]
      intro hclosed
      cases hstage.symm.trans (hshut hclosed)
    have hbytes : d.outbox ++ d.inHand = ([] : List Record).flatMap Record.encode := by
      rw [houtbox', hhand', houtbox, hhand]
      rfl
    have hq : s.queuedBy c.id m = [] ++ client.link.mailbox.queue := by
      rw [queuedBy, hnobody, hclient]
      rfl
    exact .reads (by rw [huser']; exact nofun) hwriter' (hshut'.trans hopen) (hd ▸ hclient)
      hbytes hq
  | goes hbefore => cases huser.symm.trans hbefore
  | takes _ hbefore | drains _ hbefore | closes _ hbefore => cases hwriter.symm.trans hbefore
  | writes _ hsome | fails _ hsome => exact absurd hhand hsome

theorem carried_of_reads {client : Client} {taken : List Record} (huser : c.card.user ≠ none)
    (hwriter : c.writer = .live) (hshut : c.shut = false)
    (hclient : s.hub.registry.find? c.id = some client)
    (hbytes : c.outbox ++ c.inHand = taken.flatMap Record.encode) :
    (s.step m).Carried d ((taken ++ client.link.mailbox.queue) ++ s.queuedBy c.id m)
      (failed || s.writeFails c.id m) := by
  have huser' := hpassage.registered huser
  -- Whatever leaves the hub and the writer's place alone can only have put something behind.
  have hstill : (∀ μ ∈ s.calls m, μ.Spares c.id) → d.writer = c.writer → d.shut = c.shut →
      d.outbox ++ d.inHand = c.outbox ++ c.inHand →
        (s.step m).Carried d ((taken ++ client.link.mailbox.queue) ++ s.queuedBy c.id m)
          (failed || s.writeFails c.id m) := by
    intro hspared hwriter' hshut' hbytes'
    have hgrown := hs.grown_step hword hspared
    rw [hclient] at hgrown
    generalize hafter : (s.step m).hub.registry.find? c.id = after at hgrown
    cases hgrown with
    | somebody hprefix =>
      refine .reads huser' (hwriter'.trans hwriter) (hshut'.trans hshut) (hd ▸ hafter)
        (hbytes'.trans hbytes) ?_
      rw [queuedBy, hclient, hafter, List.append_assoc, queue_append_placed hprefix]
  cases hpassage with
  | aside hdesk _ hspared =>
    obtain ⟨-, hwriter', hhand', houtbox', hshut'⟩ := Connection.desk_eq hdesk
    exact hstill hspared hwriter' hshut' (by rw [houtbox', hhand'])
  | refused hbefore | comes hbefore => exact absurd hbefore huser
  | goes _ hdesk hcalls =>
    obtain ⟨-, hwriter', hhand', houtbox', hshut'⟩ := Connection.desk_eq hdesk
    have hafter := hs.find?_step_of_leave hword hcalls
    rw [hwriter, hclient] at hwriter'
    refine .drains huser' hwriter' (hshut'.trans hshut) (hd ▸ hafter)
      (by rw [houtbox', hhand', hbytes]) ?_
    rw [queuedBy, hafter, placed_none, List.append_nil]
  | @takes r hempty _ hnext hdesk hcalls =>
    obtain ⟨-, hwriter', hhand', houtbox', hshut'⟩ := Connection.desk_eq hdesk
    obtain ⟨after, hafter, hqueue⟩ := hs.find?_step_of_read hword hclient hcalls
    rw [nextToWrite?_of_live hwriter hclient] at hnext
    rw [hempty, List.append_nil] at hbytes
    -- The record goes from the front of the mailbox into the writer's hand.
    have hbytes' : d.outbox ++ d.inHand = (taken ++ [r]).flatMap Record.encode := by
      rw [houtbox', hhand', hbytes, List.flatMap_append, List.flatMap_singleton]
    refine .reads huser' (hwriter'.trans hwriter) (hshut'.trans hshut) (hd ▸ hafter) hbytes' ?_
    have hnone : s.queuedBy c.id m = [] := by
      rw [queuedBy, hclient, hafter, placed, hqueue, List.drop_eq_nil_iff, List.length_tail]
      exact Nat.sub_le _ 1
    rw [hnone, List.append_nil, hqueue, List.append_assoc, List.singleton_append,
      List.cons_head?_tail hnext]
  | drains _ hbefore | closes _ hbefore => cases hwriter.symm.trans hbefore
  | writes _ _ hdesk hcalls =>
    obtain ⟨-, hwriter', hhand', houtbox', hshut'⟩ := Connection.desk_eq hdesk
    refine hstill (HubMove.spares_of_nil hcalls _) hwriter' hshut' ?_
    rw [houtbox', hhand', List.append_assoc, List.take_append_drop]
  | fails hfails _ hdesk =>
    -- What waits is lost, but it stands behind everything that is in the socket.
    obtain ⟨-, hwriter', hhand', houtbox', hclosed⟩ := Connection.desk_eq hdesk
    refine .broken huser' hwriter' hhand' hclosed (by rw [hfails, Bool.or_true]) ?_
    rw [houtbox', List.append_assoc, List.flatMap_append, ← hbytes, List.append_assoc]
    exact List.prefix_append _ _

theorem carried_of_drains {mailbox : Mailbox} {taken : List Record} (huser : c.card.user ≠ none)
    (hwriter : c.writer = .draining mailbox) (hshut : c.shut = false)
    (hnobody : s.hub.registry.find? c.id = none)
    (hbytes : c.outbox ++ c.inHand = taken.flatMap Record.encode) :
    (s.step m).Carried d ((taken ++ mailbox.queue) ++ s.queuedBy c.id m)
      (failed || s.writeFails c.id m) := by
  have huser' := hpassage.registered huser
  obtain ⟨hafter, hq⟩ :=
    hs.nobody_of_passage hword hpassage huser (by rw [hwriter]; exact nofun) hnobody
  rw [← hd] at hafter
  rw [hq, List.append_nil]
  cases hpassage with
  | aside hdesk =>
    obtain ⟨-, hwriter', hhand', houtbox', hshut'⟩ := Connection.desk_eq hdesk
    exact .drains huser' (hwriter'.trans hwriter) (hshut'.trans hshut) hafter
      (by rw [houtbox', hhand', hbytes]) rfl
  | refused hbefore | comes hbefore => exact absurd hbefore huser
  | goes _ hdesk =>
    obtain ⟨-, hwriter', hhand', houtbox', hshut'⟩ := Connection.desk_eq hdesk
    rw [hwriter, hnobody] at hwriter'
    exact .drains huser' hwriter' (hshut'.trans hshut) hafter (by rw [houtbox', hhand', hbytes])
      rfl
  | takes _ hbefore => cases hwriter.symm.trans hbefore
  | @drains r mailbox' hempty hbefore hnext hdesk =>
    obtain ⟨-, hwriter', hhand', houtbox', hshut'⟩ := Connection.desk_eq hdesk
    obtain rfl := Writer.draining.inj (hwriter.symm.trans hbefore)
    rw [hempty, List.append_nil] at hbytes
    have hbytes' : d.outbox ++ d.inHand = (taken ++ [r]).flatMap Record.encode := by
      rw [houtbox', hhand', hbytes, List.flatMap_append, List.flatMap_singleton]
    refine .drains huser' hwriter' (hshut'.trans hshut) hafter hbytes' ?_
    show _ = taken ++ [r] ++ mailbox.queue.drop 1
    rw [List.append_assoc, List.singleton_append, List.drop_one, List.cons_head?_tail hnext]
  | closes hempty hbefore hnothing hdesk =>
    obtain ⟨-, hwriter', hhand', houtbox', hclosed⟩ := Connection.desk_eq hdesk
    obtain rfl := Writer.draining.inj (hwriter.symm.trans hbefore)
    rw [hempty, List.append_nil] at hbytes
    rw [hnothing, List.append_nil]
    exact .done huser' hwriter' (hhand'.trans hempty) hclosed hafter (houtbox'.trans hbytes)
  | writes _ _ hdesk =>
    obtain ⟨-, hwriter', hhand', houtbox', hshut'⟩ := Connection.desk_eq hdesk
    refine .drains huser' (hwriter'.trans hwriter) (hshut'.trans hshut) hafter ?_ rfl
    rw [houtbox', hhand', List.append_assoc, List.take_append_drop, hbytes]
  | fails hfails _ hdesk =>
    obtain ⟨-, hwriter', hhand', houtbox', hclosed⟩ := Connection.desk_eq hdesk
    refine .broken huser' hwriter' hhand' hclosed (by rw [hfails, Bool.or_true]) ?_
    rw [houtbox', List.flatMap_append, ← hbytes, List.append_assoc]
    exact List.prefix_append _ _

/-- One move takes the records as far as they have to come. -/
theorem carried_step (h : s.Carried c q failed) :
    (s.step m).Carried d (q ++ s.queuedBy c.id m) (failed || s.writeFails c.id m) := by
  cases h with
  | waits hdesk hshut hnobody hq =>
    subst hq
    exact hs.carried_of_waits hword hpassage hd hdesk hshut hnobody
  | reads huser hwriter hshut hclient hbytes hq =>
    subst hq
    exact hs.carried_of_reads hword hpassage hd huser hwriter hshut hclient hbytes
  | drains huser hwriter hshut hnobody hbytes hq =>
    subst hq
    exact hs.carried_of_drains hword hpassage hd huser hwriter hshut hnobody hbytes
  | done huser hwriter hhand hshut hnobody houtbox =>
    obtain ⟨hafter, hq⟩ :=
      hs.nobody_of_passage hword hpassage huser (by rw [hwriter]; exact nofun) hnobody
    obtain ⟨-, hwriter', hhand', houtbox', hshut'⟩ :=
      Connection.desk_eq (hpassage.of_done huser hwriter hhand)
    rw [hq, List.append_nil]
    exact .done (hpassage.registered huser) (hwriter'.trans hwriter) (hhand'.trans hhand)
      (hshut'.trans hshut) (hd ▸ hafter) (houtbox'.trans houtbox)
  | broken huser hwriter hhand hshut hfailed houtbox =>
    obtain ⟨-, hwriter', hhand', houtbox', hshut'⟩ :=
      Connection.desk_eq (hpassage.of_done huser hwriter hhand)
    refine .broken (hpassage.registered huser) (hwriter'.trans hwriter) (hhand'.trans hhand)
      (hshut'.trans hshut) (by rw [hfailed, Bool.true_or]) ?_
    rw [houtbox', List.flatMap_append]
    exact houtbox.trans (List.prefix_append _ _)

end Sound

/-! ## Runs -/

/-- The records for a connection have come as far as they can, whether or not it is there yet. -/
structure Accounted (s : Server) (id : Nat) (q : List Record) (failed : Bool) : Prop where
  absent : s.connection? id = none → q = []
  present : ∀ c, s.connection? id = some c → s.Carried c q failed

theorem Sound.accounted_step (hs : s.Sound) (hword : s.lastId + [m].count .accept < UInt64.size)
    (h : s.Accounted id q failed) :
    (s.step m).Accounted id (q ++ s.queuedBy id m) (failed || s.writeFails id m) := by
  cases hc : s.connection? id with
  | some c =>
    obtain ⟨-, rfl⟩ := connection?_some hc
    obtain ⟨d, hd, hpassage⟩ := hs.passage m hword hc
    have hid : d.id = c.id := (connection?_some hd).2
    refine ⟨fun hnone => ?_, fun e he => ?_⟩
    · rw [hd] at hnone
      cases hnone
    · obtain rfl : d = e := Option.some.inj (hd.symm.trans he)
      exact hs.carried_step hword hpassage hid (h.present c hc)
  | none =>
    obtain ⟨hafter, hq⟩ := hs.nobody_step hword (hs.nobody_of_absent hc) (spares_of_absent hc m)
    rw [h.absent hc, hq]
    refine ⟨fun _ => rfl, fun d hd => ?_⟩
    obtain rfl := hs.newcomer m hword hc hd
    exact .waits rfl nofun hafter rfl

theorem Steady.accounted_run (h : s.Steady settings) (moves : List Move)
    (hfew : s.lastId + moves.count .accept < UInt64.size) (hq : s.Accounted id q failed) :
    (s.run moves).Accounted id (q ++ s.queuedFor id moves) (failed || s.writeFailed id moves) := by
  refine h.run_induction
    (motive := fun s moves => ∀ q failed, s.Accounted id q failed →
      (s.run moves).Accounted id (q ++ s.queuedFor id moves) (failed || s.writeFailed id moves))
    ?_ ?_ moves hfew q failed hq
  · intro s _ q failed hq
    rw [queuedFor, writeFailed, List.append_nil, Bool.or_false]
    exact hq
  · intro s m moves h hword hrest q failed hq
    have hlater := hrest _ _ (h.sound.accounted_step hword hq)
    rw [List.append_assoc, Bool.or_assoc] at hlater
    exact hlater

/-- Once a writer is done, nothing comes to the socket any more. -/
theorem Steady.done_run (h : s.Steady settings) (moves : List Move)
    (hfew : s.lastId + moves.count .accept < UInt64.size) (hc : s.connection? id = some c)
    (huser : c.card.user ≠ none) (hwriter : c.writer = .done) (hhand : c.inHand = []) :
    ∃ d, (s.run moves).connection? id = some d ∧ d.desk = c.desk := by
  refine h.run_induction
    (motive := fun s moves => ∀ c, s.connection? id = some c → c.card.user ≠ none →
      c.writer = .done → c.inHand = [] →
        ∃ d, (s.run moves).connection? id = some d ∧ d.desk = c.desk)
    (fun _ _ c hc _ _ _ => ⟨c, hc, rfl⟩) ?_ moves hfew c hc huser hwriter hhand
  intro s m moves h hword hrest c hc huser hwriter hhand
  obtain ⟨-, rfl⟩ := connection?_some hc
  obtain ⟨d, hd, hpassage⟩ := h.sound.passage m hword hc
  have hsame := hpassage.of_done huser hwriter hhand
  obtain ⟨-, hwriter', hhand', -, -⟩ := Connection.desk_eq hsame
  obtain ⟨e, he, hsame'⟩ := hrest d hd (hpassage.registered huser) (hwriter'.trans hwriter)
    (hhand'.trans hhand)
  exact ⟨e, he, hsame'.trans hsame⟩

/-! ## The way to the end -/

/-- In how many pieces of `b` bytes `n` bytes are written. -/
def pieces (b n : Nat) : Nat := (n + b - 1) / b

theorem pieces_zero {b : Nat} (hb : 0 < b) : pieces b 0 = 0 :=
  Nat.div_eq_of_lt (by omega)

theorem pieces_le {b n k : Nat} (h : n ≤ k) : pieces b n ≤ pieces b k :=
  Nat.div_le_div_right (by omega)

theorem pieces_pos {b n : Nat} (hb : 0 < b) (hn : 0 < n) : 0 < pieces b n :=
  Nat.div_pos (by omega) hb

/-- One piece less is left when at least so many bytes are written. -/
theorem pieces_sub_lt {b n k : Nat} (hb : 0 < b) (hn : 0 < n) (hk : b ≤ k) :
    pieces b (n - k) < pieces b n := by
  rcases Nat.lt_or_ge n k with hall | hsome
  · rw [Nat.sub_eq_zero_of_le (Nat.le_of_lt hall), pieces_zero hb]
    exact pieces_pos hb hn
  · have hstep : (n - k + b - 1) / b + 1 ≤ (n + b - 1) / b := by
      rw [← Nat.add_div_right _ hb]
      exact Nat.div_le_div_right (by omega)
    exact hstep

/-- In how many rounds a writer that writes `b` bytes in each of them comes to its end when the
record of its client has gone. -/
def togo (b : Nat) (c : Connection) : Nat :=
  match c.writer with
  | .draining mailbox =>
    pieces b c.inHand.length + mailbox.queue.length * pieces b Record.size + 1
  | _ => 0

theorem togo_of_draining {mailbox : Mailbox} (b : Nat) (hwriter : c.writer = .draining mailbox) :
    togo b c = pieces b c.inHand.length + mailbox.queue.length * pieces b Record.size + 1 := by
  rw [togo, hwriter]

theorem togo_of_done (b : Nat) (hwriter : c.writer = .done) : togo b c = 0 := by
  rw [togo, hwriter]

/-- A connection whose client has come and gone, so that the writer is on its own. -/
structure Leaves (s : Server) (c : Connection) : Prop where
  user : c.card.user ≠ none
  nobody : s.hub.registry.find? c.id = none
  writer : c.writer.isDraining = true ∨ c.writer = .done ∧ c.inHand = []

theorem Leaves.not_live (h : s.Leaves c) : c.writer ≠ .live := by
  intro hlive
  rcases h.writer with hdraining | ⟨hdone, -⟩
  · rw [hlive] at hdraining
    cases hdraining
  · cases hlive.symm.trans hdone

/-- How far a writer comes in a move when it writes `b` bytes in each round. -/
structure Nearer (b : Nat) (m : Move) (c d : Connection) : Prop where
  /-- It is never farther away. -/
  le : togo b d ≤ togo b c
  /-- It has something in hand until that is written. -/
  hand : c.inHand ≠ [] → d.inHand ≠ [] ∨ togo b d < togo b c
  /-- When it looks into its mailbox it gets something into its hand, or that was the end. -/
  fetch : m = .fetch c.id → d.inHand ≠ [] ∨ togo b d = 0
  write {n : Nat} : m = .write c.id n → b ≤ n → c.inHand ≠ [] → togo b d < togo b c

/-- Nothing in hand was written. -/
theorem nearer_of_same {b : Nat} (hwriter : d.writer = c.writer) (hhand : d.inHand = c.inHand)
    (hrests : c.Rests m) (hwriter' : c.writer.isDraining = true) : Nearer b m c d where
  le := Nat.le_of_eq (by rw [togo, togo, hwriter, hhand])
  hand := fun hsome => .inl (hhand ▸ hsome)
  fetch := fun hm => by
    rw [hhand]
    rcases hrests.fetch hm with hsome | hnot
    · exact .inl hsome
    · cases hwriter'.symm.trans hnot
  write := fun hm _ hsome => absurd (hrests.write _ hm) hsome

/-- A writer that only writes what is left, and whose writes do not fail, comes nearer to its end.
-/
theorem Passage.nearer_of_draining {b : Nat} (hb : 0 < b) {μs : List HubMove}
    (hpassage : s.Passage m μs c d) (hhere : s.gone = false) (huser : c.card.user ≠ none)
    {mailbox : Mailbox} (hwriter : c.writer = .draining mailbox)
    (hok : s.writeFails c.id m = false) :
    (d.writer.isDraining = true ∨ d.writer = .done ∧ d.inHand = []) ∧ Nearer b m c d := by
  have hdraining : c.writer.isDraining = true := by
    rw [hwriter]
    rfl
  cases hpassage with
  | aside hdesk _ _ hrests =>
    obtain ⟨-, hwriter', hhand', -, -⟩ := Connection.desk_eq hdesk
    exact ⟨.inl (hwriter' ▸ hdraining), nearer_of_same hwriter' hhand' (hrests hhere) hdraining⟩
  | refused hbefore | comes hbefore => exact absurd hbefore huser
  | goes _ hdesk _ hm =>
    obtain ⟨-, hwriter', hhand', -, -⟩ := Connection.desk_eq hdesk
    have hsame : d.writer = c.writer := by rw [hwriter', hwriter]; rfl
    exact ⟨.inl (hsame ▸ hdraining),
      nearer_of_same hsame hhand' (c.rests_of_elsewhere hm) hdraining⟩
  | takes _ hbefore => cases hwriter.symm.trans hbefore
  | @drains r mailbox' hempty hbefore hnext hdesk =>
    obtain ⟨-, hwriter', hhand', -, -⟩ := Connection.desk_eq hdesk
    obtain rfl := Writer.draining.inj (hwriter.symm.trans hbefore)
    have hsome : d.inHand ≠ [] := by
      rw [hhand', ← List.length_pos_iff_ne_nil, r.length_encode]
      decide
    -- The record is in the hand now, and counts for as much there as it did in the mailbox.
    have hsame : togo b d = togo b c := by
      have hqueue : mailbox.queue.length = (mailbox.queue.drop 1).length + 1 := by
        rw [← List.cons_head?_tail hnext]
        rfl
      rw [togo_of_draining b hwriter', togo_of_draining b hwriter, hhand', hempty, r.length_encode,
        List.length_nil, pieces_zero hb, hqueue, Nat.succ_mul]
      show _ + (mailbox.queue.drop 1).length * _ + 1 = _
      omega
    refine ⟨.inl (by rw [hwriter']; rfl), ⟨Nat.le_of_eq hsame, ?_, ?_, ?_⟩⟩
    · exact fun _ => .inl hsome
    · exact fun _ => .inl hsome
    · exact fun _ _ hbusy => absurd hempty hbusy
  | closes hempty _ _ hdesk =>
    obtain ⟨-, hwriter', hhand', -, -⟩ := Connection.desk_eq hdesk
    have hzero := togo_of_done b hwriter'
    refine ⟨.inr ⟨hwriter', hhand'.trans hempty⟩, ⟨hzero ▸ Nat.zero_le _, ?_, ?_, ?_⟩⟩
    · exact fun hbusy => absurd hempty hbusy
    · exact fun _ => .inr hzero
    · exact fun _ _ hbusy => absurd hempty hbusy
  | @writes n hm hbusy hdesk =>
    obtain ⟨-, hwriter', hhand', -, -⟩ := Connection.desk_eq hdesk
    have hpos := List.length_pos_iff_ne_nil.2 hbusy
    have hlength : d.inHand.length = c.inHand.length - n := by rw [hhand', List.length_drop]
    have htogo := togo_of_draining b (hwriter'.trans hwriter)
    rw [hlength] at htogo
    have hbefore := togo_of_draining b hwriter
    refine ⟨.inl (hwriter' ▸ hdraining), ⟨?_, fun _ => ?_, ?_, ?_⟩⟩
    · have hle := pieces_le (b := b) (Nat.sub_le c.inHand.length n)
      omega
    · by_cases hall : d.inHand = []
      · have hzero : c.inHand.length - n = 0 := by rw [← hlength, hall]; rfl
        rw [hzero, pieces_zero hb] at htogo
        have hsome := pieces_pos hb hpos
        exact .inr (by omega)
      · exact .inl hall
    · intro hfetch
      cases hm.symm.trans hfetch
    · intro k hk hmany _
      obtain rfl : n = k := by
        cases hm.symm.trans hk
        rfl
      have hlt := pieces_sub_lt hb hpos hmany
      omega
  | fails hfails => cases hok.symm.trans hfails

theorem Leaves.step {b : Nat} (hb : 0 < b) (h : s.Leaves c) (hs : s.Sound)
    (hword : s.lastId + [m].count .accept < UInt64.size)
    (hpassage : s.Passage m (s.calls m) c d) (hd : d.id = c.id) (hhere : s.gone = false)
    (hok : s.writeFails c.id m = false) :
    (s.step m).Leaves d ∧ s.queuedBy c.id m = [] ∧ Nearer b m c d := by
  have huser := hpassage.registered h.user
  obtain ⟨hafter, hq⟩ := hs.nobody_of_passage hword hpassage h.user h.not_live h.nobody
  rw [← hd] at hafter
  rcases h.writer with hdraining | ⟨hdone, hhand⟩
  · obtain ⟨mailbox, hwriter⟩ := Writer.exists_of_isDraining hdraining
    obtain ⟨hwriter', hnearer⟩ := hpassage.nearer_of_draining hb hhere h.user hwriter hok
    exact ⟨⟨huser, hafter, hwriter'⟩, hq, hnearer⟩
  · obtain ⟨-, hwriter', hhand', -, -⟩ :=
      Connection.desk_eq (hpassage.of_done h.user hdone hhand)
    have hzero := togo_of_done b (hwriter'.trans hdone)
    refine ⟨⟨huser, hafter, .inr ⟨hwriter'.trans hdone, hhand'.trans hhand⟩⟩, hq, ?_⟩
    exact ⟨hzero ▸ Nat.zero_le _, fun hsome => absurd hhand hsome, fun _ => .inr hzero,
      fun _ _ hsome => absurd hhand hsome⟩

/-- The rounds of a writer: it looks into its mailbox, and then it writes so many bytes. -/
def rounds (id : Nat) (ns : List Nat) : List Move := ns.flatMap fun n => [.fetch id, .write id n]

theorem here_of_run {moves : List Move} (h : (s.run moves).gone = false) : s.gone = false := by
  rw [Bool.eq_false_iff]
  intro hgone
  rw [run_of_gone hgone] at h
  cases hgone.symm.trans h

/-- In a run a writer that is on its own comes one step nearer to its end with each of its rounds,
whatever happens between the moves of a round. -/
theorem Steady.rounds_run {b : Nat} (hb : 0 < b) (h : s.Steady settings) (moves : List Move)
    (hfew : s.lastId + moves.count .accept < UInt64.size) (hc : s.connection? id = some c)
    (hleaves : s.Leaves c) (hok : s.writeFailed id moves = false)
    (hhere : (s.run moves).gone = false) :
    s.queuedFor id moves = [] ∧ ∃ d, (s.run moves).connection? id = some d ∧
      (s.run moves).Leaves d ∧ ∀ ns : List Nat, (∀ n ∈ ns, b ≤ n) → (rounds id ns).Sublist moves →
        togo b d ≤ togo b c - ns.length := by
  -- A round that has begun has only its second half left, and something is in hand then.
  suffices hboth : s.queuedFor id moves = [] ∧ ∃ d, (s.run moves).connection? id = some d ∧
      (s.run moves).Leaves d ∧
      (∀ ns : List Nat, (∀ n ∈ ns, b ≤ n) → (rounds id ns).Sublist moves →
        togo b d ≤ togo b c - ns.length) ∧
      ∀ n ns, b ≤ n → (∀ n ∈ ns, b ≤ n) → (.write id n :: rounds id ns).Sublist moves →
        c.inHand ≠ [] → togo b d ≤ togo b c - (ns.length + 1) by
    obtain ⟨hq, d, hd, hleaves', hrounds, -⟩ := hboth
    exact ⟨hq, d, hd, hleaves', hrounds⟩
  refine h.run_induction
    (motive := fun s moves => ∀ c, s.connection? id = some c → s.Leaves c →
      s.writeFailed id moves = false → (s.run moves).gone = false → s.queuedFor id moves = [] ∧
        ∃ d, (s.run moves).connection? id = some d ∧ (s.run moves).Leaves d ∧
          (∀ ns : List Nat, (∀ n ∈ ns, b ≤ n) → (rounds id ns).Sublist moves →
            togo b d ≤ togo b c - ns.length) ∧
          ∀ n ns, b ≤ n → (∀ n ∈ ns, b ≤ n) → (.write id n :: rounds id ns).Sublist moves →
            c.inHand ≠ [] → togo b d ≤ togo b c - (ns.length + 1))
    ?_ ?_ moves hfew c hc hleaves hok hhere
  · intro s _ c hc hleaves _ _
    refine ⟨rfl, c, hc, hleaves, ?_, fun _ _ _ _ hsub => by cases hsub⟩
    intro ns _ hsub
    cases ns with
    | nil => exact Nat.le_refl _
    | cons => cases hsub
  · intro s m moves h hword hrest c hc hleaves hok hhere
    obtain ⟨-, rfl⟩ := connection?_some hc
    obtain ⟨hnow, hlater⟩ := Bool.or_eq_false_iff.1 hok
    obtain ⟨d, hd, hpassage⟩ := h.sound.passage m hword hc
    have hid : d.id = c.id := (connection?_some hd).2
    have hthere : s.gone = false := @here_of_run s (m :: moves) hhere
    obtain ⟨hleaves', hq, hnearer⟩ :=
      hleaves.step hb h.sound hword hpassage hid hthere hnow
    obtain ⟨hq', e, he, hleaves'', hwhole, hhalf⟩ := hrest d hd hleaves' hlater hhere
    have hle := hnearer.le
    refine ⟨?_, e, he, hleaves'', ?_, ?_⟩
    · rw [queuedFor, hq, hq']
      rfl
    · intro ns hns hsub
      cases ns with
      | nil => exact Nat.le_trans (hwhole [] (List.forall_mem_nil _) (List.nil_sublist _)) hle
      | cons n ns =>
        obtain ⟨hn, hns'⟩ := List.forall_mem_cons.1 hns
        cases hsub with
        | cons _ hsub => exact Nat.le_trans (hwhole _ hns hsub) (Nat.sub_le_sub_right hle _)
        | cons_cons _ hsub =>
          rcases hnearer.fetch rfl with hsome | hzero
          · exact Nat.le_trans (hhalf n ns hn hns' hsub hsome) (Nat.sub_le_sub_right hle _)
          · have hend := hwhole [] (List.forall_mem_nil _) (List.nil_sublist _)
            omega
    · intro n ns hn hns hsub hsome
      cases hsub with
      | cons _ hsub =>
        rcases hnearer.hand hsome with hsome' | hlt
        · exact Nat.le_trans (hhalf n ns hn hns hsub hsome') (Nat.sub_le_sub_right hle _)
        · have hend := hwhole ns hns ((List.sublist_cons_self _ _).trans hsub)
          omega
      | cons_cons _ hsub =>
        have hlt := hnearer.write rfl hn hsome
        have hend := hwhole ns hns hsub
        omega

/-! ## What is queued is what is written -/

/-- What has come of the records for a registered session in a run, and what will come of them. -/
structure Conveys (start : Server) (moves : List Move) (c : Connection) : Prop where
  /-- What is in the socket are the first of the records that were queued, in their order, and
  behind these at most the beginning of the next one. -/
  inOrder : ∃ written part rest, start.queuedFor c.id moves = written ++ rest ∧
    c.outbox = written.flatMap Record.encode ++ part ∧
    (part = [] ∨ ∃ r, rest.head? = some r ∧ part <+: r.encode ∧ part.length < Record.size)
  /-- If no write has failed, the writer has all others still before it, and the rest of the one
  that it is at in hand. -/
  waiting (hok : start.writeFailed c.id moves = false) :
    ∃ taken, start.queuedFor c.id moves = taken ++ (start.run moves).unwritten c ∧
      c.outbox ++ c.inHand = taken.flatMap Record.encode
  /-- Then the socket is not closed before the client's record has gone and everything is in it. -/
  complete (hok : start.writeFailed c.id moves = false) (hshut : c.shut = true) :
    (start.run moves).hub.registry.find? c.id = none ∧
      c.outbox = (start.queuedFor c.id moves).flatMap Record.encode
  /-- And it is closed, with all that was queued until the record had gone, when the writer has had
  as many rounds as there were pieces to write and one more, unless the process has ended. -/
  closes (hnobody : (start.run moves).hub.registry.find? c.id = none) {later : List Move}
    (hfew : (moves ++ later).count .accept < UInt64.size)
    (hok : start.writeFailed c.id (moves ++ later) = false)
    (hhere : (start.run (moves ++ later)).gone = false) {b : Nat} (hb : 0 < b) {ns : List Nat}
    (hns : ∀ n ∈ ns, b ≤ n) (hrounds : (rounds c.id ns).Sublist later)
    (hmany : pieces b c.inHand.length +
      ((start.run moves).unwritten c).length * pieces b Record.size < ns.length) :
    ∃ d, (start.run (moves ++ later)).connection? c.id = some d ∧ d.shut = true ∧
      d.outbox = (start.queuedFor c.id moves).flatMap Record.encode
  /-- Nothing is written to a socket that is closed. -/
  closed (hshut : c.shut = true) {later : List Move}
    (hfew : (moves ++ later).count .accept < UInt64.size) :
    ∃ d, (start.run (moves ++ later)).connection? c.id = some d ∧ d.shut = true ∧
      d.outbox = c.outbox

/-- What is in the socket is the beginning of what was queued. -/
theorem Carried.prefix (h : s.Carried c q failed) : c.outbox <+: q.flatMap Record.encode := by
  cases h with
  | waits hdesk =>
    rw [(Connection.desk_eq hdesk).2.2.2.1]
    exact List.nil_prefix
  | reads _ _ _ _ hbytes hq | drains _ _ _ _ hbytes hq =>
    rw [hq, List.flatMap_append, ← hbytes, List.append_assoc]
    exact List.prefix_append _ _
  | done _ _ _ _ _ houtbox => exact houtbox ▸ List.prefix_rfl
  | broken _ _ _ _ _ houtbox => exact houtbox

theorem Carried.waiting (h : s.Carried c q false) :
    ∃ taken, q = taken ++ s.unwritten c ∧ c.outbox ++ c.inHand = taken.flatMap Record.encode := by
  unfold unwritten
  cases h with
  | waits hdesk _ _ hq =>
    obtain ⟨-, hwriter, hhand, houtbox, -⟩ := Connection.desk_eq hdesk
    exact ⟨[], by rw [hwriter, hq]; rfl, by rw [hhand, houtbox]; rfl⟩
  | reads _ hwriter _ hclient hbytes hq => exact ⟨_, by rw [hwriter, hclient, hq]; rfl, hbytes⟩
  | drains _ hwriter _ _ hbytes hq => exact ⟨_, by rw [hwriter, hq], hbytes⟩
  | done _ hwriter hhand _ _ houtbox =>
    rw [hwriter, hhand, houtbox]
    exact ⟨q, (List.append_nil q).symm, List.append_nil _⟩
  | broken _ _ _ _ hfailed => cases hfailed

theorem Carried.complete (h : s.Carried c q false) (huser : c.card.user ≠ none)
    (hshut : c.shut = true) :
    s.hub.registry.find? c.id = none ∧ c.outbox = q.flatMap Record.encode := by
  cases h with
  | waits hdesk => exact absurd (Connection.desk_eq hdesk).1 huser
  | reads _ _ hopen | drains _ _ hopen =>
    rw [hopen] at hshut
    cases hshut
  | done _ _ _ _ hnobody houtbox => exact ⟨hnobody, houtbox⟩
  | broken _ _ _ _ hfailed => cases hfailed

theorem Carried.leaves (h : s.Carried c q false) (huser : c.card.user ≠ none)
    (hnobody : s.hub.registry.find? c.id = none) (b : Nat) :
    s.Leaves c ∧ togo b c ≤
      pieces b c.inHand.length + (s.unwritten c).length * pieces b Record.size + 1 := by
  unfold unwritten
  cases h with
  | waits hdesk => exact absurd (Connection.desk_eq hdesk).1 huser
  | reads _ _ _ hclient =>
    rw [hnobody] at hclient
    cases hclient
  | drains _ hwriter =>
    rw [togo_of_draining b hwriter, hwriter]
    exact ⟨⟨huser, hnobody, .inl (by rw [hwriter]; rfl)⟩, Nat.le_refl _⟩
  | done _ hwriter hhand =>
    rw [togo_of_done b hwriter]
    exact ⟨⟨huser, hnobody, .inr ⟨hwriter, hhand⟩⟩, Nat.zero_le _⟩
  | broken _ _ _ _ hfailed => cases hfailed

theorem Carried.writer_of_shut (h : s.Carried c q failed) (huser : c.card.user ≠ none)
    (hshut : c.shut = true) : c.writer = .done ∧ c.inHand = [] := by
  cases h with
  | waits hdesk => exact absurd (Connection.desk_eq hdesk).1 huser
  | reads _ _ hopen | drains _ _ hopen =>
    rw [hopen] at hshut
    cases hshut
  | done _ hwriter hhand | broken _ hwriter hhand => exact ⟨hwriter, hhand⟩

theorem Carried.of_done (h : s.Carried c q false) (hwriter : c.writer = .done) :
    c.shut = true ∧ c.outbox = q.flatMap Record.encode := by
  cases h with
  | waits hdesk => cases hwriter.symm.trans (Connection.desk_eq hdesk).2.1
  | reads _ hbefore | drains _ hbefore => cases hwriter.symm.trans hbefore
  | done _ _ _ hshut _ houtbox => exact ⟨hshut, houtbox⟩
  | broken _ _ _ _ hfailed => cases hfailed

/-- A writer that is on its own comes to its end when it has had its rounds. -/
theorem Steady.closes_run (h : s.Steady settings) (moves : List Move)
    (hfew : s.lastId + moves.count .accept < UInt64.size) (hq : s.Accounted id q false)
    (hc : s.connection? id = some c) (huser : c.card.user ≠ none)
    (hnobody : s.hub.registry.find? c.id = none) (hok : s.writeFailed id moves = false)
    (hhere : (s.run moves).gone = false) {b : Nat} (hb : 0 < b) {ns : List Nat}
    (hns : ∀ n ∈ ns, b ≤ n) (hrounds : (rounds id ns).Sublist moves)
    (hmany : pieces b c.inHand.length + (s.unwritten c).length * pieces b Record.size < ns.length) :
    ∃ d, (s.run moves).connection? id = some d ∧ d.shut = true ∧
      d.outbox = q.flatMap Record.encode := by
  obtain ⟨hleaves, htogo⟩ := (hq.present c hc).leaves huser hnobody b
  obtain ⟨hnothing, d, hd, hleaves', hend⟩ := h.rounds_run hb moves hfew hc hleaves hok hhere
  have hcarried := (h.accounted_run moves hfew hq).present d hd
  rw [hnothing, List.append_nil, hok] at hcarried
  have hdone : d.writer = .done := by
    rcases hleaves'.writer with hdraining | ⟨hdone, -⟩
    · obtain ⟨mailbox, hwriter⟩ := Writer.exists_of_isDraining hdraining
      have hleft := hend ns hns hrounds
      rw [togo_of_draining b hwriter] at hleft
      omega
    · exact hdone
  exact ⟨d, hd, hcarried.of_done hdone⟩

theorem accounted_of_create {clock : Clock} {start : Server}
    (hstart : create settings clock = .ok start) (moves : List Move)
    (hfew : moves.count .accept < UInt64.size) (id : Nat) :
    (start.run moves).Accounted id (start.queuedFor id moves) (start.writeFailed id moves) := by
  obtain ⟨-, hsessions, hlast⟩ := sound_of_create hstart
  have hnobody : start.connection? id = none := by
    have hconnections : start.connections = [] := List.map_eq_nil_iff.1 hsessions
    rw [connection?, hconnections]
    rfl
  have hnothing : start.Accounted id [] false := by
    refine ⟨fun _ => rfl, fun c hc => ?_⟩
    rw [hnobody] at hc
    cases hc
  exact (steady_of_create hstart).1.accounted_run moves (by omega) hnothing

/-- **What is queued is what is written.** However a registered session ends, and whatever else
happens: in its socket are the first of the records that were put into its mailbox, in their order
and each of them once, and behind these at most the beginning of the next one. As long as no write
to the socket fails, the rest is still before the writer; the socket is not closed before the
client's record has gone and nothing is left, and then it is closed as soon as the writer has had
its rounds, whether or not the session waits for that, unless the process ends before. To a socket
that is closed nothing is written. -/
theorem queued_is_written {clock : Clock} {start : Server}
    (hstart : create settings clock = .ok start) {moves : List Move}
    (hfew : moves.count .accept < UInt64.size) {c : Connection}
    (hc : (start.run moves).connection? c.id = some c) (huser : c.card.user ≠ none) :
    start.Conveys moves c := by
  have haccounted := accounted_of_create hstart moves hfew c.id
  have hcarried := haccounted.present c hc
  exact
    { inOrder := by
        obtain ⟨written, part, rest, hq, houtbox, hpart⟩ := exists_whole_of_prefix hcarried.prefix
        simp only [Record.length_encode] at hpart
        exact ⟨written, part, rest, hq, houtbox, hpart⟩
      waiting := by
        intro hok
        rw [hok] at hcarried
        exact hcarried.waiting
      complete := by
        intro hok
        rw [hok] at hcarried
        exact hcarried.complete huser
      closes := by
        intro hnobody later hfew' hok hhere b hb ns hns hrounds hmany
        obtain ⟨hsteady, hrest, hafter⟩ := steady_within hstart hfew'
        rw [writeFailed_append] at hok
        obtain ⟨hbefore, hlater⟩ := Bool.or_eq_false_iff.1 hok
        rw [hbefore] at haccounted
        rw [hafter] at hhere ⊢
        exact hsteady.closes_run later hrest haccounted hc huser hnobody hlater hhere hb hns hrounds
          hmany
      closed := by
        intro hshut later hfew'
        obtain ⟨hsteady, hrest, hafter⟩ := steady_within hstart hfew'
        obtain ⟨hwriter, hhand⟩ := hcarried.writer_of_shut huser hshut
        obtain ⟨d, hd, hsame⟩ := hsteady.done_run later hrest hc huser hwriter hhand
        obtain ⟨-, -, -, houtbox, hshut'⟩ := Connection.desk_eq hsame
        rw [hafter]
        exact ⟨d, hd, hshut'.trans hshut, houtbox⟩ }

/-- There is room for one record in each mailbox. The first client does not read; the notice that
the second has come waits for it, and the notice that the third has come finds no room, so the first
is told to leave. Its session does not wait for the writer. The writer has four rounds after that,
of 2000 bytes each, and what was waiting has come to the socket. -/
theorem queued_is_written_behind_the_session :
    let settings := { Settings.standard with poolSize := 3, mailboxSize := 1 }
    let moves : List Move :=
      [.accept, .accept, .accept, .look 0, .look 1, .look 2, .begin 1, .begin 2, .begin 3,
        .arrive 1 "ann\x00".toUTF8.toList, .handshake 1, .arrive 2 "bob\x00".toUTF8.toList,
        .handshake 2, .arrive 3 "cid\x00".toUTF8.toList, .handshake 3, .turn 1, .turn 1, .giveUp 1]
    let later : List Move :=
      [.fetch 1, .write 1 2000, .call, .announce, .fetch 1, .write 1 2000, .fetch 1, .fetch 1,
        .write 1 2000, .fetch 1, .write 1 2000]
    let left : Mailbox := { capacity := 1, queue := [.joinNotice "bob" 9], isOpen := true }
    let ann : Connection :=
      { card := ⟨1, some "ann", .deregistered⟩, stage := .ended, inbox := [], inboxEnd := none,
        framer := ⟨[]⟩, attention := .signal, subscribed := false, notice := false,
        writer := .draining left, inHand := [], outbox := [], shut := false, breach := none }
    ∃ start, create settings ⟨9, 0⟩ = .ok start ∧ moves.count .accept < UInt64.size ∧
      (start.run moves).connection? ann.id = some ann ∧ ann.card.user ≠ none ∧
      start.Conveys moves ann ∧ start.queuedFor 1 moves = [.joinNotice "bob" 9] ∧
      ∃ d, (start.run (moves ++ later)).connection? 1 = some d ∧ d.shut = true ∧
        d.outbox = (Record.joinNotice "bob" 9).encode := by
  intro settings moves later left ann
  obtain ⟨start, hstart⟩ : ∃ start, create settings ⟨9, 0⟩ = .ok start := ⟨_, rfl⟩
  have hfew : moves.count .accept < UInt64.size := by decide +kernel
  have hfew' : (moves ++ later).count .accept < UInt64.size := by decide +kernel
  have hann : (start.run moves).connection? ann.id = some ann := by
    cases hstart
    decide +kernel
  have hqueued : start.queuedFor 1 moves = [.joinNotice "bob" 9] := by
    cases hstart
    decide +kernel
  have hnobody : (start.run moves).hub.registry.find? ann.id = none := by
    cases hstart
    decide +kernel
  have hok : start.writeFailed ann.id (moves ++ later) = false := by
    cases hstart
    decide +kernel
  have hhere : (start.run (moves ++ later)).gone = false := by
    cases hstart
    decide +kernel
  have hrounds : (rounds ann.id (List.replicate 4 2000)).Sublist later := by decide +kernel
  have hns : ∀ n ∈ List.replicate 4 2000, 2000 ≤ n := by decide
  have hmany : pieces 2000 ann.inHand.length + left.queue.length * pieces 2000 Record.size <
      (List.replicate 4 2000).length := by decide
  have hconveys : start.Conveys moves ann := queued_is_written hstart hfew hann nofun
  obtain ⟨d, hd, hshut, houtbox⟩ :=
    hconveys.closes hnobody hfew' hok hhere (b := 2000) (by decide) hns hrounds hmany
  refine ⟨start, hstart, hfew, hann, nofun, hconveys, hqueued, d, hd, hshut, ?_⟩
  rw [houtbox, show start.queuedFor ann.id moves = _ from hqueued, List.flatMap_singleton]

theorem length_flatMap_encode (written : List Record) :
    (written.flatMap Record.encode).length = written.length * Record.size := by
  simp [List.length_flatMap, Record.length_encode]

/-- Two sessions are told that the server closes, and leave. No write fails, but the peer of the
first reads slowly, and nobody waits for its writer any longer. The server is closed and the process
ends. By then a hundred bytes of the first of two records have been written, which are no whole
number of records, and nothing comes after them. -/
theorem a_server_that_ends_leaves_records_unwritten :
    let settings := { Settings.standard with poolSize := 2 }
    let moves : List Move :=
      [.accept, .accept, .look 0, .look 1, .begin 1, .begin 2, .arrive 1 "ann\x00".toUTF8.toList,
        .handshake 1, .arrive 2 "bob\x00".toUTF8.toList, .handshake 2, .fetch 1, .write 1 100,
        .close, .announce, .turn 2, .dismiss, .turn 1, .giveUp 2, .giveUp 1, .look 0, .look 1,
        .finishClosing, .exit]
    ∃ start, create settings ⟨9, 0⟩ = .ok start ∧ (start.run moves).closing = .finished ∧
      start.writeFailed 1 moves = false ∧ (start.run moves).hub.registry.find? 1 = none ∧
      start.queuedFor 1 moves = [.joinNotice "bob" 9, .leaveNotice "bob" 9] ∧
      ∀ later, ((start.run (moves ++ later)).connection? 1).map (·.outbox) =
        some ((Record.joinNotice "bob" 9).encode.take 100) ∧
      ∀ written : List Record,
        (Record.joinNotice "bob" 9).encode.take 100 ≠ written.flatMap Record.encode := by
  intro settings moves
  obtain ⟨start, hstart⟩ : ∃ start, create settings ⟨9, 0⟩ = .ok start := ⟨_, rfl⟩
  have hgone : (start.run moves).gone = true := by
    cases hstart
    decide +kernel
  have houtbox : ((start.run moves).connection? 1).map (·.outbox) =
      some ((Record.joinNotice "bob" 9).encode.take 100) := by
    cases hstart
    decide +kernel
  refine ⟨start, hstart, ?_, ?_, ?_, ?_, fun later => ⟨?_, fun written hwritten => ?_⟩⟩
  · cases hstart
    decide +kernel
  · cases hstart
    decide +kernel
  · cases hstart
    decide +kernel
  · cases hstart
    decide +kernel
  · have hrun : start.run (moves ++ later) = (start.run moves).run later := List.foldl_append ..
    rw [hrun, run_of_gone hgone]
    exact houtbox
  · have hlength := congrArg List.length hwritten
    rw [length_flatMap_encode, List.length_take, Record.length_encode, Record.size] at hlength
    omega

end Server

end ChatHub
