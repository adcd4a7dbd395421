import ChatHub.Proofs.Server.Order
/-!
# Every session lives by the rules

A session has many ways to end: the server may be closing when a worker takes it, there are several
ways for its handshake to fail, and half a dozen for a registered session to stop. Whichever it is,
the session must leave everything that it had come into and nothing that it had not.

By now a server is known to be in order after every run, and what the hub has seen of a session is
told by where the session is. So this module only asks what that says about one connection
(`Lives`). What is left are the sessions that have not come: their moves leave the hub alone.
-/

namespace ChatHub

namespace Server

open Session

variable {s : Server} {came : Nat} {μs : List HubMove} {last : Nat} {σs σs' : List Session}
  {σ τ : Session}

/-! ## The hub and the sessions -/

theorem contains_of_seats {h : Hub} (hseats : h.registry.names.Perm (seats σs))
    (hs : (σs.map Session.id).Nodup) (hσ : σ ∈ σs) (hproper : σ.Proper) :
    h.registry.contains σ.id = σ.card.phase.isRegistered := by
  rw [hproper.isRegistered_eq, Bool.eq_iff_iff, Registry.contains_iff,
    (hseats.map Prod.fst).mem_iff]
  exact mem_seats_iff hs hσ

/-- A hub that has the sessions of a server tracks its connections, also while one of them is on the
way to or from a session that it has. -/
theorem tracks_of_seats {front back : List Session}
    (hseats : s.hub.registry.names.Perm (seats (front ++ τ :: back)))
    (hs : ((front ++ τ :: back).map Session.id).Nodup)
    (hproper : ∀ ρ ∈ front ++ τ :: back, ρ.Proper)
    (hagree : s.hub.Agree) (hsplit : s.sessions = front ++ σ :: back) (hid : σ.id = τ.id)
    (hphase : σ.card.phase.isRegistered = τ.card.phase.isRegistered) {c : Connection}
    (hc : c ∈ s.connections) : s.Tracks c := by
  have hregistry : s.hub.registry.contains c.session.id = c.session.card.phase.isRegistered := by
    have hmem : c.session ∈ s.sessions := List.mem_map_of_mem hc
    rw [hsplit] at hmem
    rcases mem_middle.1 hmem with heq | hmem
    · have hτ : τ ∈ front ++ τ :: back := mem_middle.2 (.inl rfl)
      rw [heq, hid, hphase]
      exact contains_of_seats hseats hs hτ (hproper _ hτ)
    · have hρ : c.session ∈ front ++ τ :: back := mem_middle.2 (.inr hmem)
      exact contains_of_seats hseats hs hρ (hproper _ hρ)
  exact ⟨hregistry, (hagree.contains_roster c.id).trans hregistry⟩

/-! ## One session -/

/-- No session is lost, and the phase of each goes on as it may. -/
theorem Course.leads (h : Course last σs came μs σs') (hσ : σ ∈ σs) :
    ∃ τ ∈ σs', τ.id = σ.id ∧ σ.card.phase.Leads τ.card.phase := by
  cases h with
  | same => exact ⟨σ, hσ, rfl, .refl⟩
  | accepted => exact ⟨σ, List.mem_append_left _ hσ, rfl, .refl⟩
  | step hsplit hstep =>
    rw [hsplit] at hσ
    rcases mem_middle.1 hσ with rfl | hσ
    · exact ⟨_, mem_middle.2 (.inl rfl), hstep.id_eq, hstep.leads⟩
    · exact ⟨σ, mem_middle.2 (.inr hσ), rfl, .refl⟩

theorem Course.of_visit {μ : HubMove} (h : Course last σs came [μ] σs') (hμ : μ.isVisit = true) :
    ∃ front σ τ back, σs = front ++ σ :: back ∧ σs' = front ++ τ :: back ∧ σ.Step [μ] τ := by
  cases h with
  | same hμs =>
    rw [hμs μ List.mem_cons_self] at hμ
    cases hμ
  | step hsplit hstep => exact ⟨_, _, _, _, hsplit, rfl, hstep⟩

namespace Sound

variable {c : Connection} (hs : s.Sound)
include hs

/-- The hub still tracks the connections when one of them shows another phase that is registered if
and only if the last one was. -/
theorem tracks_of_split {front back : List Session} {w : Server} (hhub : w.hub = s.hub)
    (hsplit : s.sessions = front ++ τ :: back) (hw : w.sessions = front ++ σ :: back)
    (hid : σ.id = τ.id) (hphase : σ.card.phase.isRegistered = τ.card.phase.isRegistered)
    (hc : c ∈ w.connections) : w.Tracks c := by
  have hseats := hs.seats
  have hagree := hs.agree
  have hnodup := hs.nodup
  have hproper := hs.proper
  rw [hsplit] at hseats hnodup hproper
  rw [← hhub] at hseats hagree
  exact tracks_of_seats hseats hnodup hproper hagree hw hid hphase hc

theorem tracks (hc : c ∈ s.connections) : s.Tracks c := by
  have hσ : c.session ∈ s.sessions := List.mem_map_of_mem hc
  obtain ⟨front, back, hsplit⟩ := List.append_of_mem hσ
  exact hs.tracks_of_split rfl hsplit hsplit rfl rfl hc

theorem tracks_of_passes {m : Move} {w : Server} (hw : s.Passes m w) (hc : c ∈ w.connections) :
    w.Tracks c := by
  have hcourse : ∀ {μ}, s.calls m = [μ] → Course s.lastId s.sessions 0 [μ] (s.step m).sessions := by
    intro μ hm
    have haccept : m ≠ .accept := by
      rintro rfl
      rw [calls_accept] at hm
      cases hm
    exact hm ▸ (hs.change haccept).course
  cases hw with
  | @registered _ _ _ user _ d e hd hm he =>
    have hid : e.id = d.id := by
      show e.card.id = d.id
      rw [he]
      rfl
    obtain ⟨hseats, hagree⟩ := (hcourse hm).hub hs.ids hs.word hs.seats hs.agree
    have hproper := (hcourse hm).proper hs.proper
    have hids := (hcourse hm).ids hs.ids
    obtain ⟨front, σ, τ, back, hsplit, hafter, hstep⟩ := (hcourse hm).of_visit rfl
    cases hstep
    rw [hafter] at hseats hproper hids
    rw [← hm] at hseats hagree
    let w := (s.withHub (s.hub.run (s.calls m))).put e
    have hw : w.sessions = front ++ e.session :: back := sessions_put hs.nodup hsplit hid
    refine tracks_of_seats (s := w) hseats (hids ▸ List.nodup_range') hproper hagree hw hid ?_ hc
    show e.card.phase.isRegistered = true
    rw [he]
    rfl
  | @disconnecting _ user d e hd hm he =>
    have hid : e.id = d.id := by
      show e.card.id = d.id
      rw [he]
      rfl
    obtain ⟨front, σ, τ, back, hsplit, -, hstep⟩ := (hcourse hm).of_visit rfl
    cases hstep
    refine hs.tracks_of_split rfl hsplit (sessions_put hs.nodup hsplit hid) hid ?_ hc
    show e.card.phase.isRegistered = true
    rw [he]
    rfl

theorem stage_of_pending (hc : c ∈ s.connections) (hpending : c.id ∈ s.hall.pending) :
    c.stage = .queued := by
  rw [hs.staffed.pending] at hpending
  obtain ⟨σ, hσ, hqueued⟩ := List.mem_filterMap.1 hpending
  unfold queued? at hqueued
  split at hqueued
  · rename_i hstage
    have hid : σ.id = c.session.id := Option.some.inj hqueued
    have hσc : σ = c.session :=
      List.inj_on_of_nodup_map hs.nodup hσ (List.mem_map_of_mem hc) hid
    exact (congrArg Session.stage hσc).symm.trans hstage
  · cases hqueued

/-- Whatever happens next, the session is still there, and its phase has gone on as it may. -/
theorem leads_step (hc : c ∈ s.connections) (m : Move) :
    ∃ d ∈ (s.step m).connections, d.id = c.id ∧ c.card.phase.Leads d.card.phase := by
  by_cases hm : m = .accept
  · subst hm
    refine ⟨c, ?_, rfl, .refl⟩
    refine step_cases (motive := fun _ s' => c ∈ s'.connections) .accept hc ?_
    show c ∈ s.accept.connections
    unfold accept
    split
    · dsimp only
      split
      · exact List.mem_append_left _ hc
      · exact hc
    · exact hc
  · obtain ⟨τ, hτ, hid, hleads⟩ := (hs.change hm).course.leads (List.mem_map_of_mem hc)
    obtain ⟨d, hd, rfl⟩ := List.mem_map.1 hτ
    exact ⟨d, hd, hid, hleads⟩

end Sound

/-! ## Sessions that never registered -/

section

variable {c : Connection}

theorem handshakeCalls_of_not_coming (h : HubMove.visits c.id (s.handshakeCalls c) = []) :
    s.handshakeCalls c = [] := by
  unfold handshakeCalls at h ⊢
  split_ifs at h ⊢ with hready hempty
  · rfl
  · cases hparse : Identity.parse (c.inbox.take identitySpace) s.hall.settings.maxUserBytes with
    | ok i => simp [hparse, HubMove.visits, HubMove.visitOf?] at h
    | error e => rfl
  · rfl

theorem Attends.calls_of_out {w : Server} {m : Move} (h : s.Attends c m μs w)
    (hout : c.stage.user? = none) : μs = [] := by
  cases h with
  | rests | looks => rfl
  | leaves hstage | deals _ hstage =>
    rw [hstage] at hout
    cases hout

/-- A writer is not in the hub, or it finds no mailbox there. -/
theorem Writes.run_of_out {w : Server} {m : Move} (h : s.Writes c m μs w)
    (hout : s.hub.registry.find? c.id = none) : s.hub.run μs = s.hub := by
  cases h with
  | takes _ hwriter hnext =>
    simp [nextToWrite?, hwriter, hout] at hnext
  | fails =>
    have hsame : ∀ (f : Client → Client) (keeps : ∀ d, (f d).id = d.id),
        { s.hub with registry := s.hub.registry.update c.id f keeps } = s.hub := by
      intro f keeps
      rw [Registry.update_of_absent hout]
    unfold failureCalls
    cases c.writer with
    | live =>
      have hsignal : s.hub.act (.signal c.id) = s.hub := hsame _ Client.signal_id
      have hhangUp : s.hub.act (.far c.id .hangUp) = s.hub :=
        hsame (·.farEnd .hangUp) fun _ => rfl
      simp only [Hub.run, List.foldl_cons, List.foldl_nil, hsignal, hhangUp]
    | _ => rfl
  | _ => rfl

end

/-- A session that the hub has not seen, and that does not come either, leaves the hub alone. -/
theorem Sound.run_of_unseen (hs : s.Sound) {m : Move} {id : Nat} (hrunner : s.runner? m = some id)
    (hunseen : ∀ σ ∈ s.sessions, σ.id = id → σ.visits = [])
    (hcalls : HubMove.visits id (s.calls m) = []) : s.hub.run (s.calls m) = s.hub := by
  cases hgone : s.gone with
  | true =>
    rw [calls_of_gone hgone]
    rfl
  | false =>
    rw [calls_of_here hgone] at hcalls ⊢
    have hout : ∀ c, s.connection? id = some c →
        c.stage.user? = none ∧ s.hub.registry.find? c.id = none := by
      intro c hc
      obtain ⟨hmem, hid⟩ := connection?_some hc
      have hproper := hs.proper_of_connection? hc
      have hstage := hproper.user?_of_visits (hunseen _ (session_mem hc) hid)
      refine ⟨hstage, ?_⟩
      have hphase : c.card.phase.isRegistered = c.stage.user?.isSome := hproper.isRegistered_eq
      have hcontains := (hs.tracks hmem).1
      rw [hphase, show c.stage.user? = none from hstage] at hcontains
      exact Option.isNone_iff_eq_none.1 (Option.isSome_eq_false_iff.1 hcontains)
    -- A move at a connection, if that is there.
    have hat : ∀ calls : Connection → List HubMove,
        (∀ c, s.connection? id = some c → c.id = id → s.hub.run (calls c) = s.hub) →
          s.hub.run ((s.connection? id).elim [] calls) = s.hub := by
      intro calls h
      cases hc : s.connection? id with
      | none => rfl
      | some c => exact h c hc (connection?_some hc).2
    cases m with
    | look | begin | handshakeTimeout | conclude | giveUp => rfl
    | handshake other =>
      cases hrunner
      refine hat _ fun c hc hid => ?_
      subst hid
      have hcalls' : HubMove.visits c.id ((s.connection? c.id).elim [] s.handshakeCalls) = [] :=
        hcalls
      rw [hc] at hcalls'
      rw [handshakeCalls_of_not_coming hcalls']
      rfl
    | turn other =>
      cases hrunner
      refine hat _ fun c hc _ => ?_
      rw [(s.attends_turn c).calls_of_out (hout c hc).1]
      rfl
    | idle other =>
      cases hrunner
      refine hat _ fun c hc _ => ?_
      rw [(s.attends_idle c (.idle c.id)).calls_of_out (hout c hc).1]
      rfl
    | fetch other =>
      cases hrunner
      exact hat _ fun c hc _ => (s.writes_fetch c).run_of_out (hout c hc).2
    | write other n =>
      cases hrunner
      exact hat _ fun c hc _ => (s.writes_write c n).run_of_out (hout c hc).2
    | writeFailure other =>
      cases hrunner
      exact hat _ fun c hc _ => (s.writes_failure c).run_of_out (hout c hc).2
    | _ => cases hrunner

/-! ## The whole life -/

/-- What there is to say about a connection after a run. -/
structure Lives (start : Server) (moves : List Move) (c : Connection) : Prop where
  /-- Its session never asked for a phase that may not follow. -/
  unbroken : c.breach = none
  /-- It will not do so either: whatever happens next, its phase goes on as it may. -/
  onward (m : Move) : ∃ d ∈ ((start.run moves).step m).connections,
    d.id = c.id ∧ c.card.phase.Leads d.card.phase
  /-- The hub has it exactly while its phase says so. -/
  tracked : (start.run moves).Tracks c
  /-- It comes into the hub at most once, and goes only after it has come. -/
  visits : HubMove.visits c.id (start.trace moves) <+: [.came, .went]
  /-- When it is over, nobody waits for it or has it any more. -/
  cleared : c.stage = .ended → c.card.phase = .deregistered ∧
    c.id ∉ (start.run moves).hall.pending ∧
    (start.run moves).hub.registry.contains c.id = false ∧
    (start.run moves).hub.roster.contains c.id = false
  /-- By then it has gone as often as it came. -/
  parted : c.stage = .ended → HubMove.visits c.id (start.trace moves) = [] ∨
    HubMove.visits c.id (start.trace moves) = [.came, .went]
  /-- The hub had it exactly while its phase said so on the way through each move, too. -/
  passed {before after : List Move} {m : Move} (h : moves = before ++ m :: after) {w : Server}
    (hw : (start.run before).Passes m w) {d : Connection} (hd : d ∈ w.connections)
    (hid : d.id = c.id) : w.Tracks d
  /-- If it has not come, none of its own moves has done anything in the hub. -/
  unseen (h : HubMove.visits c.id (start.trace moves) = []) {before after : List Move} {m : Move}
    (hm : moves = before ++ m :: after) (hrunner : (start.run before).runner? m = some c.id) :
    ((start.run before).step m).hub.indoors = (start.run before).hub.indoors

section

variable {settings : Settings} {clock : Clock} {start : Server}
  (hstart : create settings clock = .ok start) {before after : List Move} {m : Move}
  (hfew : (before ++ m :: after).count .accept < UInt64.size)
include hstart hfew

theorem sound_before : (start.run before).Sound ∧
    Recorded (start.run before).sessions (start.trace before) ∧
    (start.run before).lastId + [m].count .accept < UInt64.size := by
  rw [List.count_append, count_accept_cons] at hfew
  obtain ⟨hs, hrecorded, hlast⟩ := sound_of_run hstart before (by omega)
  exact ⟨hs, hrecorded, by omega⟩

/-- All that a move does in the hub is what it calls there. -/
theorem indoors_step : ((start.run before).step m).hub.indoors =
    ((start.run before).hub.run ((start.run before).calls m)).indoors := by
  obtain ⟨hs, -, hword⟩ := sound_before hstart hfew
  obtain ⟨came, -, hchange⟩ := hs.exists_change m hword
  exact hchange.hub

theorem run_of_unseen {id : Nat}
    (hunseen : HubMove.visits id (start.trace (before ++ m :: after)) = [])
    (hrunner : (start.run before).runner? m = some id) :
    (start.run before).hub.run ((start.run before).calls m) = (start.run before).hub := by
  obtain ⟨hs, hrecorded, -⟩ := sound_before hstart hfew
  have htrace : start.trace (before ++ m :: after) = start.trace before ++
      ((start.run before).calls m ++ ((start.run before).step m).trace after) :=
    start.trace_append ..
  rw [htrace, HubMove.visits_append, HubMove.visits_append, List.append_eq_nil_iff,
    List.append_eq_nil_iff] at hunseen
  refine hs.run_of_unseen hrunner (fun σ hσ hid => ?_) hunseen.2.1
  rw [← hrecorded.known σ hσ, hid]
  exact hunseen.1

end

/-- Every connection that was accepted lives by the rules, whatever the moves of a run, and all that
they do in the hub is what they call there.

The counter of connections is a word. After that many connections it would come round and give out
numbers that are in use. -/
theorem session_lifecycle {settings : Settings} {clock : Clock} {start : Server}
    (hstart : create settings clock = .ok start) {moves : List Move}
    (hfew : moves.count .accept < UInt64.size) :
    (∀ c ∈ (start.run moves).connections, start.Lives moves c) ∧
      ∀ before m after, moves = before ++ m :: after →
        ((start.run before).step m).hub.indoors =
          ((start.run before).hub.run ((start.run before).calls m)).indoors := by
  obtain ⟨hs, hrecorded, -⟩ := sound_of_run hstart moves hfew
  refine ⟨fun c hc => ?_, ?_⟩
  · have hσ : c.session ∈ (start.run moves).sessions := List.mem_map_of_mem hc
    have hproper := hs.proper _ hσ
    have hvisits : HubMove.visits c.id (start.trace moves) = c.session.visits :=
      hrecorded.known _ hσ
    have htracked := hs.tracks hc
    exact
      { unbroken := hproper.breach_eq
        onward := hs.leads_step hc
        tracked := htracked
        visits := by
          rw [hvisits]
          exact hproper.visits_isPrefix
        cleared := by
          intro hended
          have hphase : c.card.phase = .deregistered := by
            have hstage : c.card.phase = c.stage.phase := hproper.phase_eq
            rwa [hended] at hstage
          unfold Tracks at htracked
          rw [hphase] at htracked
          refine ⟨hphase, fun hpending => ?_, htracked⟩
          have hqueued := hs.stage_of_pending hc hpending
          rw [hended] at hqueued
          cases hqueued
        parted := by
          intro hended
          rw [hvisits]
          exact hproper.visits_of_ended hended
        passed := by
          rintro before after m rfl w hw d hd -
          exact (sound_before hstart hfew).1.tracks_of_passes hw hd
        unseen := by
          rintro hunseen before after m rfl hrunner
          rw [indoors_step hstart hfew, run_of_unseen hstart hfew hunseen hrunner] }
  · rintro before m after rfl
    exact indoors_step hstart hfew

/-- The only worker has three sessions. The first registers and leaves when the peer's input ends,
and nobody waits for its writer. The peer of the second says nothing for too long. The third has
waited until the server closes. -/
theorem session_lifecycle_of_three_ends :
    let settings := { Settings.standard with poolSize := 1 }
    let moves : List Move :=
      [.accept, .accept, .accept, .look 0, .begin 1, .arrive 1 "ann\x00".toUTF8.toList,
        .handshake 1, .endInput 1 .closed, .turn 1, .turn 1, .turn 1, .giveUp 1, .look 0, .begin 2,
        .handshakeTimeout 2, .close, .look 0, .begin 3]
    ∃ start, create settings ⟨9, 0⟩ = .ok start ∧ moves.count .accept < UInt64.size ∧
      (start.run (moves.take 8)).connections.map (·.card.phase) = [.active, .queued, .queued] ∧
      (start.run moves).connections.map (·.stage) = [.ended, .ended, .ended] ∧
      [1, 2, 3].map (HubMove.visits · (start.trace moves)) = [[.came, .went], [], []] ∧
      ∀ c ∈ (start.run moves).connections,
        c.breach = none ∧ c.card.phase = .deregistered ∧
          (start.run moves).hub.registry.contains c.id = false := by
  intro settings moves
  obtain ⟨start, hstart⟩ : ∃ start, create settings ⟨9, 0⟩ = .ok start := ⟨_, rfl⟩
  have hfew : moves.count .accept < UInt64.size := by decide
  obtain ⟨hlives, -⟩ := session_lifecycle hstart hfew
  have hended : (start.run moves).connections.map (·.stage) = [.ended, .ended, .ended] := by
    cases hstart
    decide +kernel
  refine ⟨start, hstart, hfew, ?_, hended, ?_, fun c hc => ?_⟩
  · cases hstart
    decide +kernel
  · cases hstart
    decide +kernel
  · have hstage : c.stage = .ended := by
      have hmem : c.stage ∈ [Stage.ended, .ended, .ended] := hended ▸ List.mem_map_of_mem hc
      simpa using hmem
    obtain ⟨hphase, -, hregistry, -⟩ := (hlives c hc).cleared hstage
    exact ⟨(hlives c hc).unbroken, hphase, hregistry⟩

end Server

end ChatHub
