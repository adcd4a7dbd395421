import ChatHub.Proofs.Server.Closing
/-!
# Whoever is told to stop deals with at most one record more

A session is told to stop in two ways: by the notice that the server closes, and by its own signal.
Each has room for one word only, so what must be shown is that the word is not missed and not lost.
The notice goes to whoever listens, and a session listens from before it looks at the flag until it
has left (`Steady.alert`). The signal is given to whoever is in the hub, and only the session itself
takes it away (`Hub.signalled_act`).

A session looks at one thing after another, first at the notice, then at its signal, then at what
the peer has sent, and others get on in between. So the word may come when the session has just
looked past it, and then the round goes on: the record that it finds, if there is one, is dealt
with. At the beginning of the next round the word is there. That makes one record at most, and none
for whoever has not looked past the word when it comes (`Steady.dealt_run`).
-/

namespace ChatHub

theorem HubMove.vacates_of_not_isVisit {μ : HubMove} (hμ : μ.isVisit = false) :
    μ.vacates = none := by
  cases μ with
  | join | leave => cases hμ
  | _ => rfl

theorem Session.Step.vacates_other {σ τ : Session} {μs : List HubMove} (h : σ.Step μs τ) {id : Nat}
    (hid : σ.id ≠ id) : ∀ μ ∈ μs, μ.vacates ≠ some id := by
  intro μ hμ
  cases h with
  | registers | leaves =>
    rw [List.mem_singleton.1 hμ]
    exact fun hsome => hid (Option.some.inj hsome)
  | _ => cases hμ

/-- Whoever is in the hub or has left it only gets further away from it. -/
theorem Session.Step.left {σ τ : Session} {μs : List HubMove} (h : σ.Step μs τ)
    (hσ : (∃ user, σ.stage = .serving user) ∨ σ.stage = .closing ∨ σ.stage = .ended) :
    τ.stage = .closing ∨ τ.stage = .ended := by
  cases h with
  | leaves => exact .inl rfl
  | turnedAway | refused | concludes => exact .inr rfl
  | isTaken | begins | registers => simp [Session.of] at hσ

theorem Session.Step.length_le {σ τ : Session} {μs : List HubMove} (h : σ.Step μs τ) :
    μs.length ≤ 1 := by
  cases h <;> simp

theorem Hub.signalled_run {h : Hub} {μs : List HubMove} {id : Nat} (ha : h.Attended)
    (hμs : ∀ μ ∈ μs, μ.hushes = false) (hids : ∀ μ ∈ μs, μ.vacates ≠ some id)
    (hsignalled : h.signalled id = true) : (h.run μs).signalled id = true := by
  induction μs generalizing h with
  | nil => exact hsignalled
  | cons μ μs ih =>
    have hμ := hμs μ List.mem_cons_self
    have hid := hids μ List.mem_cons_self
    exact ih (ha.act hμ) (fun ν hν => hμs ν (List.mem_cons_of_mem _ hν))
      (fun ν hν => hids ν (List.mem_cons_of_mem _ hν)) (signalled_act ha hμ hid hsignalled)

/-! ## What is asked of a server -/

/-- What tells a session to stop. -/
inductive Summons where
  /-- The notice that the server closes. -/
  | notice
  /-- Its own signal. -/
  | signal
deriving Repr, DecidableEq

/-- Whether a session that attends to this next has looked for a word to stop already in this
round. -/
def Attention.isPast : Attention → Summons → Bool
  | notice, _ | signal, .signal => false
  | _, _ => true

/-- Whether it is booked by a move that a record has come from a session. -/
def HubMove.isReceiptOf (id : Nat) : HubMove → Bool
  | recordReceived _ other => other == id
  | _ => false

namespace Server

variable {s : Server} {settings : Settings} {id : Nat} {m : Move}

/-- What whoever calls for the end is told: whether it begins now. Nobody is told anything when
nobody calls. -/
def answer? (s : Server) (m : Move) : Option Bool :=
  if !s.gone && s.endCalled m then some (!s.hall.closing) else none

/-- All answers that are given in a run. -/
def answers (s : Server) : List Move → List Bool
  | [] => []
  | m :: ms => (s.answer? m).toList ++ (s.step m).answers ms

/-- Whether the sessions are told of the end in a move. -/
def announces (s : Server) (m : Move) : Bool := !s.gone && s.announcing && m = .announce

/-- How often the sessions are told of the end in a run. -/
def announcements (s : Server) : List Move → Nat
  | [] => 0
  | m :: ms => (s.announces m).toNat + (s.step m).announcements ms

/-- How many records of a session are dealt with in a run. -/
def dealt (s : Server) (id : Nat) (moves : List Move) : Nat :=
  (s.trace moves).countP (·.isReceiptOf id)

/-- Whether a session is in the hub and has looked past a word to stop in this round. -/
def isPast (s : Server) (k : Summons) (id : Nat) : Bool :=
  (s.connection? id).any fun c => c.stage.user?.isSome && c.attention.isPast k

/-- No record that came in is dealt with in a move, and none is booked. -/
structure HandlesNothing (s : Server) (m : Move) : Prop where
  calls : ∀ μ ∈ s.calls m, μ.isDealing = false
  tally : (s.step m).hub.tally.received = s.hub.tally.received
  gauges : (s.step m).hub.gauges.received = s.hub.gauges.received

/-- The signal of a session is given in a move: by a delivery that fails, by somebody who tells it
to end, together with everybody's, or by its writer. -/
def Fires (s : Server) (id : Nat) (m : Move) : Prop :=
  ∃ front μ back, s.calls m = front ++ μ :: back ∧ μ.Fires (s.hub.run front) id

/-- A session has been told to stop by its own signal, or has left by now. -/
inductive Told (s : Server) (id : Nat) : Prop where
  | signalled {σ : Session} {user : String} (hσ : σ ∈ s.sessions) (hid : σ.id = id)
      (hstage : σ.stage = .serving user) (hsignalled : s.isSignalled id = true)
  | left {σ : Session} (hσ : σ ∈ s.sessions) (hid : σ.id = id)
      (hstage : σ.stage = .closing ∨ σ.stage = .ended)

/-- How the sessions of a server heed what they are told in a run. -/
structure Heeds (start : Server) (moves : List Move) : Prop where
  /-- Of all who call for the end, the first is told that it begins now. -/
  answers : start.answers moves = [] ∨
    ∃ n, start.answers moves = true :: List.replicate n false
  /-- The server is closing once somebody has been told so. -/
  flag : (start.run moves).hall.closing = true ↔ true ∈ start.answers moves
  /-- Whoever has been told so tells the sessions, once; nobody else does. -/
  announcements : start.announcements moves + (start.run moves).announcing.toNat =
    (start.answers moves).count true
  /-- Whoever listens is given the notice then. -/
  notices {before after : List Move} {m : Move} (hmoves : moves = before ++ m :: after)
    (hannounces : (start.run before).announces m = true) :
    ((start.run before).step m).connections =
      (start.run before).connections.map Connection.noticing
  /-- Nothing else gives it. -/
  unasked {before after : List Move} {m : Move} (hmoves : moves = before ++ m :: after)
    (hannounces : (start.run before).announces m = false) :
    ∀ d ∈ ((start.run before).step m).connections, d.stage.listens = true → d.notice = true →
      ∃ c ∈ (start.run before).connections, c.id = d.id ∧ c.notice = true
  /-- Whoever has begun and not left has a notice that nobody has read, once the sessions were
  told. -/
  alert : (start.run moves).isAnnounced = true →
    ∀ c ∈ (start.run moves).connections, c.stage.listens = true →
      c.subscribed = true ∧ c.notice = true
  /-- A record is dealt with in a turn of the session that it came from. -/
  inTurns {id : Nat} {m : Move} (hdealt : (start.run moves).dealt id [m] ≠ 0) : m = .turn id
  /-- All else deals with nothing. -/
  elsewhere {m : Move} (hdealt : ∀ id, (start.run moves).dealt id [m] = 0) :
    (start.run moves).HandlesNothing m
  /-- From when the sessions were told, each of them deals with no record any more, or with one if
  it had looked past the notice in that round. -/
  stopped {before after : List Move} (hmoves : moves = before ++ after)
    (htold : (start.run before).isAnnounced = true) (id : Nat) :
    (start.run before).dealt id after ≤ ((start.run before).isPast .notice id).toNat
  /-- Whenever the signal of a session is given, it is there. -/
  fired {id : Nat} {before after : List Move} {m : Move} (hmoves : moves = before ++ m :: after)
    (hfires : (start.run before).Fires id m) :
    ((start.run before).step m).isSignalled id = true
  /-- From then on the session deals with no record any more, or with one if it had looked past its
  signal in that round. -/
  signalled {id : Nat} {before after : List Move} (hmoves : moves = before ++ after)
    (hsignalled : (start.run before).isSignalled id = true) :
    (start.run before).dealt id after ≤ ((start.run before).isPast .signal id).toNat
  /-- A session that had not looked whether the server is closing when it was so already never
  registers. -/
  barred {id : Nat} {before after : List Move} (hmoves : moves = before ++ after)
    (hflag : (start.run before).hall.closing = true)
    (hwaiting : ∀ c ∈ (start.run before).connections, c.id = id →
      c.stage = .queued ∨ c.stage = .taken) :
    (start.run moves).hub.registry.contains id = false

/-! ## Answers -/

/-- What an answer says, and what comes of it. -/
theorem Sound.step_of_answer (hs : s.Sound) {told : Bool} (h : s.answer? m = some told) :
    told = !s.hall.closing ∧ (s.step m).hall.closing = true ∧
      (s.step m).announcing = (s.announcing || told) ∧ s.announces m = false := by
  unfold answer? at h
  split at h
  · rename_i hcalls
    obtain ⟨hgone, hcalled⟩ := Bool.and_eq_true_iff.1 hcalls
    have hcalling := hs.calling_act m
    rw [if_pos hcalled] at hcalling
    rw [step_of_here (by simpa using hgone)]
    obtain rfl := Option.some.inj h
    refine ⟨rfl, congrArg Prod.fst hcalling, congrArg Prod.snd hcalling, ?_⟩
    cases m with
    | announce => cases hcalled
    | _ => simp [announces]
  · cases h

/-- Where nobody calls for the end, nothing is different but that the sessions may have been told.
-/
theorem Sound.step_of_unasked (hs : s.Sound) (h : s.answer? m = none) :
    (s.step m).hall.closing = s.hall.closing ∧
      (s.announces m).toNat + (s.step m).announcing.toNat = s.announcing.toNat := by
  unfold answer? at h
  cases hgone : s.gone with
  | true =>
    rw [step_of_gone hgone]
    simp [announces, hgone]
  | false =>
    rw [hgone] at h
    split at h
    · cases h
    · rename_i hcalls
      have hcalling := hs.calling_act m
      rw [if_neg (by simpa using hcalls)] at hcalling
      rw [step_of_here hgone]
      refine ⟨congrArg Prod.fst hcalling, ?_⟩
      rw [show (s.act m).announcing = _ from congrArg Prod.snd hcalling]
      by_cases hm : m = .announce <;> cases hannouncing : s.announcing <;>
        simp [announces, hgone, hm, hannouncing]

/-- Of all who call for the end in a run, only the first is told that it begins, and not even the
first if it has begun before. -/
theorem Steady.answers_run (h : s.Steady settings) (moves : List Move)
    (hfew : s.lastId + moves.count .accept < UInt64.size) :
    s.answers moves = [] ∧ (s.run moves).hall.closing = s.hall.closing ∨
      (s.run moves).hall.closing = true ∧
        ∃ n, s.answers moves = (!s.hall.closing) :: List.replicate n false := by
  refine h.run_induction
    (motive := fun s moves => s.answers moves = [] ∧ (s.run moves).hall.closing = s.hall.closing ∨
      (s.run moves).hall.closing = true ∧
        ∃ n, s.answers moves = (!s.hall.closing) :: List.replicate n false)
    (fun _ _ => .inl ⟨rfl, rfl⟩) ?_ moves hfew
  intro s m moves h _ hrest
  show (s.answer? m).toList ++ (s.step m).answers moves = [] ∧
      ((s.step m).run moves).hall.closing = s.hall.closing ∨
    ((s.step m).run moves).hall.closing = true ∧
      ∃ n, (s.answer? m).toList ++ (s.step m).answers moves =
        (!s.hall.closing) :: List.replicate n false
  cases hanswer : s.answer? m with
  | none =>
    rw [(h.sound.step_of_unasked hanswer).1] at hrest
    exact hrest
  | some told =>
    obtain ⟨rfl, hflag, -⟩ := h.sound.step_of_answer hanswer
    rw [hflag] at hrest
    right
    rcases hrest with ⟨hnone, hflag'⟩ | ⟨hflag', n, hanswers⟩
    · exact ⟨hflag', 0, congrArg ((!s.hall.closing) :: ·) hnone⟩
    · exact ⟨hflag', n + 1, congrArg ((!s.hall.closing) :: ·) hanswers⟩

/-- The sessions are told as often as somebody was told that the end begins, or will be. -/
theorem Steady.announcements_run (h : s.Steady settings) (moves : List Move)
    (hfew : s.lastId + moves.count .accept < UInt64.size) :
    s.announcements moves + (s.run moves).announcing.toNat =
      (s.answers moves).count true + s.announcing.toNat := by
  refine h.run_induction
    (motive := fun s moves => s.announcements moves + (s.run moves).announcing.toNat =
      (s.answers moves).count true + s.announcing.toNat)
    (fun s _ => rfl) ?_ moves hfew
  intro s m moves h _ hrest
  show (s.announces m).toNat + (s.step m).announcements moves +
      ((s.step m).run moves).announcing.toNat =
    ((s.answer? m).toList ++ (s.step m).answers moves).count true + s.announcing.toNat
  rw [Nat.add_assoc, hrest, List.count_append]
  cases hanswer : s.answer? m with
  | none =>
    have hduty := (h.sound.step_of_unasked hanswer).2
    simp only [Option.toList_none, List.count_nil]
    omega
  | some told =>
    obtain ⟨htold, -, hannouncing, hsilent⟩ := h.sound.step_of_answer hanswer
    -- Whoever is still to tell the sessions has called before, so nobody is told `true` now.
    have hone : (s.announcing || told).toNat = told.toNat + s.announcing.toNat := by
      cases hduty : s.announcing with
      | true =>
        rw [htold, h.calling hduty]
        rfl
      | false => cases told <;> rfl
    have hcount : [told].count true = told.toNat := by cases told <;> rfl
    rw [hannouncing, hsilent, hone, Option.toList_some, hcount]
    simp only [Bool.toNat_false]
    omega

/-- What has been announced stays announced. -/
theorem Sound.announced_step (hs : s.Sound) (h : s.isAnnounced = true) (m : Move) :
    (s.step m).isAnnounced = true := by
  have hflag := flag_of_announced h
  have hduty : s.announcing = false := by simpa [isAnnounced, hflag] using h
  rw [isAnnounced, hs.flag_step hflag m]
  cases hanswer : s.answer? m with
  | none =>
    have hnone := (hs.step_of_unasked hanswer).2
    rw [hduty, Bool.toNat_false] at hnone
    have hzero : (s.step m).announcing.toNat = 0 := by omega
    rw [Bool.toNat_eq_zero.1 hzero]
    rfl
  | some told =>
    obtain ⟨htold, -, hannouncing, -⟩ := hs.step_of_answer hanswer
    rw [hannouncing, hduty, htold, hflag]
    rfl

theorem connections_of_announces (h : s.announces m = true) :
    (s.step m).connections = s.connections.map Connection.noticing := by
  unfold announces at h
  simp only [Bool.and_eq_true, decide_eq_true_eq, Bool.not_eq_true'] at h
  obtain ⟨⟨hhere, htold⟩, rfl⟩ := h
  rw [step_of_here hhere]
  show s.announce.connections = _
  rw [announce_eq htold]

theorem Sound.of_mem_step_of_silent (hs : s.Sound) {d : Connection}
    (hsilent : s.announces m = false) (hword : s.lastId + [m].count .accept < UInt64.size)
    (hd : d ∈ (s.step m).connections) :
    (∃ c ∈ s.connections, d.id = c.id ∧ s.Onward c d) ∨ d = .accepted (s.lastId + 1) := by
  cases hgone : s.gone with
  | true =>
    rw [step_of_gone hgone] at hd
    exact .inl ⟨d, hd, rfl, .refl s d⟩
  | false =>
    refine hs.of_mem_step ?_ hword hd
    rintro rfl
    simpa [announces, hgone] using hsilent

/-- Who has the notice after a move in which it is not given had it before. -/
theorem Sound.notice_of_step (hs : s.Sound) (hannounces : s.announces m = false)
    (hword : s.lastId + [m].count .accept < UInt64.size) :
    ∀ d ∈ (s.step m).connections, d.stage.listens = true → d.notice = true →
      ∃ c ∈ s.connections, c.id = d.id ∧ c.notice = true := by
  intro d hd hlistens hnotice
  rcases hs.of_mem_step_of_silent hannounces hword hd with ⟨c, hc, hid, honward⟩ | rfl
  · refine ⟨c, hc, hid.symm, ?_⟩
    cases honward with
    | still _ hears | begins _ _ _ hears | registers _ _ hears =>
      exact (ears_eq hears).2.1.symm.trans hnotice
    | looks _ hlooks =>
      obtain ⟨framer, inbox, attention, rfl⟩ := hlooks.eq
      exact hnotice
    | deals _ _ hafter =>
      subst hafter
      exact hnotice
    | isTaken _ hafter | departs _ hafter | ends hafter =>
      rw [hafter] at hlistens
      cases hlistens
  · cases hlistens

/-! ## Nothing is dealt with -/

theorem Sound.handlesNothing (hs : s.Sound) (hcalls : ∀ μ ∈ s.calls m, μ.isDealing = false) :
    s.HandlesNothing m := by
  by_cases hm : m = .accept
  · subst hm
    obtain ⟨htally, hgauges⟩ : (s.step .accept).hub.tally.received = s.hub.tally.received ∧
        (s.step .accept).hub.gauges.received = s.hub.gauges.received :=
      step_cases (motive := fun _ s' => s'.hub.tally.received = s.hub.tally.received ∧
        s'.hub.gauges.received = s.hub.gauges.received) .accept ⟨rfl, rfl⟩ (by
          obtain ⟨-, -, -, -, heffort⟩ := s.accept_kept
          exact ⟨congrArg Effort.received heffort, congrArg Effort.noted heffort⟩)
    exact ⟨hcalls, htally, hgauges⟩
  · have hhub := (hs.change hm).hub
    have heffort := Hub.effort_run
      (fun μ hμ => HubMove.isReceipt_of_not_isDealing (hcalls μ hμ)) s.hub
    exact
      { calls := hcalls
        tally := (congrArg (·.tally.received) hhub).trans (congrArg Effort.received heffort)
        gauges := (congrArg (·.gauges.received) hhub).trans (congrArg Effort.noted heffort) }

/-- Each record that is dealt with is booked once, for the session that it came from. -/
theorem countP_dealings (t : Clock) (limit other : Nat) (user : String) (r : Record) (id : Nat) :
    (Hub.dealings t limit other user r).countP (·.isReceiptOf id) =
      if other = id then 1 else 0 := by
  unfold Hub.dealings
  by_cases hid : other = id <;> cases r.kind <;> simp [HubMove.isReceiptOf, hid]

theorem dealt_one (s : Server) (id : Nat) (m : Move) :
    s.dealt id [m] = (s.calls m).countP (·.isReceiptOf id) := by
  rw [dealt, trace, trace, List.append_nil]

theorem dealt_cons (s : Server) (id : Nat) (m : Move) (moves : List Move) :
    s.dealt id (m :: moves) = s.dealt id [m] + (s.step m).dealt id moves := by
  rw [dealt_one, dealt, dealt, ← List.countP_append]
  rfl

theorem here_of_called {μ : HubMove} (hμ : μ ∈ s.calls m) : s.gone = false := by
  cases hgone : s.gone with
  | true =>
    rw [calls_of_gone hgone] at hμ
    cases hμ
  | false => rfl

/-- A session that has a record and takes a turn deals with that one. -/
theorem Sound.dealt_of_record (hs : s.Sound) {c : Connection} {user : String} {r : Record}
    (hhere : s.gone = false) (hc : c ∈ s.connections) (hstage : c.stage = .serving user)
    (hattention : c.attention = .record r) (id : Nat) :
    s.dealt id [.turn c.id] = if c.id = id then 1 else 0 := by
  have hcalls : s.calls (.turn c.id) =
      Hub.dealings s.clock s.hall.settings.maxPayloadBytes c.id user r := by
    rw [calls_of_here hhere]
    show (s.connection? c.id).elim [] s.turnCalls = _
    rw [connection?_of_mem hs.nodup hc, Option.elim_some, turnCalls, hstage, hattention]
  rw [dealt_one, hcalls, countP_dealings]

/-- There is no other way for a record to be dealt with. -/
theorem Sound.of_dealt (hs : s.Sound) (h : s.dealt id [m] ≠ 0) :
    m = .turn id ∧ s.dealt id [m] = 1 ∧ s.gone = false ∧
      ∃ c user r, s.connection? id = some c ∧ c.stage = .serving user ∧
        c.attention = .record r := by
  rw [dealt_one] at h
  obtain ⟨μ, hμ, hreceipt⟩ := List.countP_pos_iff.1 (Nat.pos_of_ne_zero h)
  cases s.called_of_mem μ hμ with
  | @deals c user r _ hm hc hstage hattention =>
    have hhere := here_of_called hμ
    have hdealt := hs.dealt_of_record hhere hc hstage hattention id
    rw [← dealt_one, hm, hdealt] at h
    obtain rfl : c.id = id := by simpa using h
    refine ⟨hm, ?_, hhere, c, user, r, connection?_of_mem hs.nodup hc, hstage, hattention⟩
    rw [hm, hdealt, if_pos rfl]
  | _ => cases hreceipt

theorem Sound.handlesNothing_of_dealt (hs : s.Sound) (h : ∀ id, s.dealt id [m] = 0) :
    s.HandlesNothing m := by
  refine hs.handlesNothing fun μ hμ => ?_
  cases s.called_of_mem μ hμ with
  | @deals c user r _ hm hc hstage hattention =>
    have hdealt := hs.dealt_of_record (here_of_called hμ) hc hstage hattention c.id
    rw [← hm, h, if_pos rfl] at hdealt
    cases hdealt
  | _ => rfl

/-! ## One record more -/

/-- Whether a session that is in the hub has been told to stop. -/
def Heard (s : Server) (c : Connection) : Summons → Prop
  | .notice => c.notice = true
  | .signal => s.isSignalled c.id = true

/-- Nobody looks past a word that is there. -/
theorem Looks.isPast {c d : Connection} {k : Summons} (h : s.Looks c d) (hheard : s.Heard c k)
    (hd : d.attention.isPast k = true) : c.attention.isPast k = true := by
  cases h with
  | pastNotice hattention hnotice =>
    cases k with
    | notice => cases hnotice.symm.trans hheard
    | signal => cases hd
  | pastSignal hattention hsignal =>
    cases k with
    | notice =>
      rw [hattention]
      rfl
    | signal => cases hsignal.symm.trans hheard
  | finds hattention =>
    rw [hattention]
    cases k <;> rfl
  | again => cases hd

/-- Whoever has been told to stop comes no nearer to dealing with a record. -/
theorem Steady.isPast_of_onward (h : s.Steady settings) {c d : Connection} {k : Summons}
    (hc : c ∈ s.connections) (honward : s.Onward c d)
    (hheard : ∀ user, c.stage = .serving user → s.Heard c k)
    (hd : (d.stage.user?.isSome && d.attention.isPast k) = true) :
    (c.stage.user?.isSome && c.attention.isPast k) = true := by
  obtain ⟨hin, hpast⟩ := Bool.and_eq_true_iff.1 hd
  cases honward with
  | still hsession hears =>
    rw [show c.stage = d.stage from (congrArg Session.stage hsession).symm,
      ← (ears_eq hears).2.2]
    exact hd
  | registers hbefore _ hears =>
    have hfresh := (h.alert c hc).fresh (by rw [hbefore]; rfl)
    rw [(ears_eq hears).2.2, hfresh] at hpast
    cases hpast
  | looks hstage hlooks =>
    rw [hlooks.isPast (hheard _ hstage) hpast, hstage]
    rfl
  | deals _ _ hafter =>
    subst hafter
    cases hpast
  | isTaken _ hafter | begins _ _ hafter | departs _ hafter | ends hafter =>
    rw [hafter] at hin
    cases hin

theorem isPast_iff {k : Summons} : s.isPast k id = true ↔
    ∃ c, s.connection? id = some c ∧ (c.stage.user?.isSome && c.attention.isPast k) = true := by
  unfold isPast
  cases s.connection? id with
  | none => simp
  | some c => simp

theorem Steady.isPast_of_step (h : s.Steady settings) {k : Summons}
    (hheard : ∀ c user, s.connection? id = some c → c.stage = .serving user → s.Heard c k)
    (hword : s.lastId + [m].count .accept < UInt64.size)
    (hpast : (s.step m).isPast k id = true) : s.isPast k id = true := by
  obtain ⟨d, hd, hafter⟩ := isPast_iff.1 hpast
  obtain ⟨hmem, rfl⟩ := connection?_some hd
  have hback : ∀ c ∈ s.connections, c.id = d.id → s.connection? d.id = some c :=
    fun c hc hid => hid ▸ connection?_of_mem h.sound.nodup hc
  cases hannounces : s.announces m with
  | true =>
    rw [connections_of_announces hannounces] at hmem
    obtain ⟨c, hc, rfl⟩ := List.mem_map.1 hmem
    exact isPast_iff.2 ⟨c, hback c hc rfl, hafter⟩
  | false =>
    rcases h.sound.of_mem_step_of_silent hannounces hword hmem with ⟨c, hc, hid, honward⟩ | rfl
    · have hfound := hback c hc hid.symm
      refine isPast_iff.2 ⟨c, hfound, h.isPast_of_onward hc honward ?_ hafter⟩
      exact fun user => hheard c user hfound
    · cases hafter

theorem turn_eq_of_record {c : Connection} {user : String} {r : Record}
    (hstage : c.stage = .serving user) (hattention : c.attention = .record r) :
    s.turn c = (s.put { c with attention := .notice }).withHub
      (s.hub.dispatch s.clock s.hall.settings.maxPayloadBytes c.id user r) := by
  unfold turn
  rw [hstage, hattention]

/-- A session that has looked past a word to stop can use that up, and whoever has been told cannot
do so again. -/
theorem Steady.dealt_step (h : s.Steady settings) {k : Summons}
    (hheard : ∀ c user, s.connection? id = some c → c.stage = .serving user → s.Heard c k)
    (m : Move) (hword : s.lastId + [m].count .accept < UInt64.size) :
    s.dealt id [m] + ((s.step m).isPast k id).toNat ≤ (s.isPast k id).toNat := by
  by_cases hdealt : s.dealt id [m] = 0
  · rw [hdealt, Nat.zero_add]
    cases hpast : (s.step m).isPast k id with
    | false => exact Nat.zero_le _
    | true =>
      have hbefore := h.isPast_of_step hheard hword hpast
      exact Nat.le_of_eq (congrArg Bool.toNat hbefore.symm)
  · obtain ⟨rfl, hone, hhere, c, user, r, hc, hstage, hattention⟩ := h.sound.of_dealt hdealt
    obtain ⟨-, rfl⟩ := connection?_some hc
    have hbefore : s.isPast k c.id = true := by
      refine isPast_iff.2 ⟨c, hc, ?_⟩
      rw [hstage, hattention]
      cases k <;> rfl
    have hafter : (s.step (.turn c.id)).isPast k c.id = false := by
      have hturn : s.step (.turn c.id) = s.turn c := by
        rw [step_of_here hhere]
        show s.atConnection c.id s.turn = _
        rw [atConnection, hc]
      have hfound : (s.turn c).connection? c.id = some { c with attention := .notice } := by
        rw [turn_eq_of_record hstage hattention]
        exact connection?_of_put hc rfl rfl
      rw [hturn, isPast, hfound]
      simp [Attention.isPast]
    rw [hone, hbefore, hafter]
    exact Nat.le_refl _

/-- Where a session has been told to stop, and stays so, it deals with one more record at most, and
only if it has looked past the word. -/
theorem Steady.dealt_run {k : Summons} {p : Server → Prop}
    (hkept : ∀ s m, s.Steady settings → s.lastId + [m].count .accept < UInt64.size → p s →
      p (s.step m))
    (hheard : ∀ s c user, s.Steady settings → p s → s.connection? id = some c →
      c.stage = .serving user → s.Heard c k)
    (h : s.Steady settings) (hp : p s) (moves : List Move)
    (hfew : s.lastId + moves.count .accept < UInt64.size) :
    s.dealt id moves ≤ (s.isPast k id).toNat := by
  refine h.run_induction (motive := fun s moves => p s → s.dealt id moves ≤ (s.isPast k id).toNat)
    (fun _ _ _ => Nat.zero_le _) ?_ moves hfew hp
  intro s m moves h hword hrest hp
  have hstep := h.dealt_step (fun c user => hheard s c user h hp) m hword
  have hlater := hrest (hkept s m h hword hp)
  rw [dealt_cons]
  omega

/-! ## The signal -/

theorem Change.isSignalled_eq {s' : Server} {came : Nat} {μs : List HubMove}
    (h : s.Change came μs s') (id : Nat) : s'.isSignalled id = (s.hub.run μs).signalled id := by
  have hregistry := Hub.registry_of_indoors h.hub
  show s'.hub.signalled id = _
  unfold Hub.signalled
  rw [hregistry]

/-- Nobody goes after anything else in a move. -/
theorem Course.stays_behind {last came : Nat} {σs σs' : List Session} {μs front back : List HubMove}
    {μ : HubMove} (h : Course last σs came μs σs') (hμs : μs = front ++ μ :: back) :
    ∀ ν ∈ back, ν.vacates ≠ some id := by
  intro ν hν
  cases h with
  | same hvisits =>
    have hν' : ν ∈ μs := hμs ▸ List.mem_append_right _ (List.mem_cons_of_mem _ hν)
    rw [HubMove.vacates_of_not_isVisit (hvisits ν hν')]
    nofun
  | accepted =>
    have hlength := congrArg List.length hμs
    simp at hlength
  | step _ hstep =>
    have hlength := hstep.length_le
    rw [hμs, List.length_append, List.length_cons] at hlength
    have hpos := List.length_pos_of_mem hν
    omega

/-- A signal that is given in a move is there after it. -/
theorem Steady.signalled_step (h : s.Steady settings) {m : Move} (hfires : s.Fires id m) :
    (s.step m).isSignalled id = true := by
  obtain ⟨front, μ, back, hcalls, hμ⟩ := hfires
  have hm : m ≠ .accept := by
    rintro rfl
    simp [calls_accept] at hcalls
  have hchange := h.sound.change hm
  have hstays : ∀ ν ∈ back, ν.vacates ≠ some id := hchange.course.stays_behind hcalls
  have hhushes := s.hushes_calls m
  rw [hchange.isSignalled_eq]
  rw [hcalls] at hhushes ⊢
  have hattended : (s.hub.run front).Attended :=
    h.attended.run fun ν hν => hhushes ν (List.mem_append_left _ hν)
  have hgiven : ((s.hub.run front).act μ).signalled id = true :=
    Hub.signalled_of_fires hattended hμ
  have hrun : s.hub.run (front ++ μ :: back) = ((s.hub.run front).act μ).run back :=
    List.foldl_append ..
  rw [hrun]
  exact Hub.signalled_run (hattended.act (hhushes μ (by simp)))
    (fun ν hν => hhushes ν (by simp [hν])) hstays hgiven

/-! ## Told once -/

theorem Sound.told_of_signalled (hs : s.Sound) (hid : s.isSignalled id = true) : s.Told id := by
  obtain ⟨c, hc, hcid, user, hstage⟩ := hs.exists_serving (Hub.contains_of_signalled hid)
  exact .signalled (List.mem_map_of_mem hc) hcid hstage hid

theorem Sound.signalled_of_told (hs : s.Sound) (h : s.Told id) {c : Connection} {user : String}
    (hc : s.connection? id = some c) (hstage : c.stage = .serving user) :
    s.isSignalled c.id = true := by
  obtain ⟨hmem, rfl⟩ := connection?_some hc
  cases h with
  | signalled _ _ _ hsignalled => exact hsignalled
  | left hσ hid hleft =>
    have hσc := List.inj_on_of_nodup_map hs.nodup hσ (session_mem hc) hid
    have hserving : c.session.stage = .serving user := hstage
    rw [hσc, hserving] at hleft
    simp at hleft

/-- In a move a session gets on, or nobody goes or comes under its id. -/
theorem Course.of_mem {last came : Nat} {σs σs' : List Session} {μs : List HubMove}
    (h : Course last σs came μs σs') (hnodup : (σs.map Session.id).Nodup) {σ : Session}
    (hσ : σ ∈ σs) :
    (σ ∈ σs' ∧ ∀ μ ∈ μs, μ.vacates ≠ some σ.id) ∨ ∃ τ ∈ σs', σ.Step μs τ := by
  cases h with
  | same hvisits =>
    refine .inl ⟨hσ, fun μ hμ => ?_⟩
    rw [HubMove.vacates_of_not_isVisit (hvisits μ hμ)]
    nofun
  | accepted => exact .inl ⟨List.mem_append_left _ hσ, List.forall_mem_nil _⟩
  | @step front back ρ τ _ hsplit hstep =>
    by_cases hid : ρ.id = σ.id
    · have hρ : ρ ∈ σs := hsplit ▸ mem_middle.2 (.inl rfl)
      obtain rfl : ρ = σ := List.inj_on_of_nodup_map hnodup hρ hσ hid
      exact .inr ⟨τ, mem_middle.2 (.inl rfl), hstep⟩
    · refine .inl ⟨?_, hstep.vacates_other hid⟩
      rw [hsplit] at hσ
      rcases mem_middle.1 hσ with rfl | hσ
      · exact absurd rfl hid
      · exact mem_middle.2 (.inr hσ)

/-- Whoever has been told to stop is not told otherwise by a move. -/
theorem Steady.told_step (h : s.Steady settings) (htold : s.Told id) (m : Move)
    (hword : s.lastId + [m].count .accept < UInt64.size) : (s.step m).Told id := by
  obtain ⟨came, -, hchange⟩ := h.sound.exists_change m hword
  cases htold with
  | @signalled σ user hσ hid hstage hsignalled =>
    subst hid
    rcases hchange.course.of_mem h.sound.nodup hσ with ⟨hσ', hstays⟩ | ⟨τ, hτ, hstep⟩
    · refine .signalled hσ' rfl hstage ?_
      rw [hchange.isSignalled_eq]
      exact Hub.signalled_run h.attended (s.hushes_calls m) hstays hsignalled
    · exact .left hτ hstep.id_eq (hstep.left (.inl ⟨user, hstage⟩))
  | @left σ hσ hid hleft =>
    subst hid
    rcases hchange.course.of_mem h.sound.nodup hσ with ⟨hσ', -⟩ | ⟨τ, hτ, hstep⟩
    · exact .left hσ' rfl hleft
    · exact .left hτ hstep.id_eq (hstep.left (.inr hleft))

/-- Once the sessions were told of the end, a session deals with one record at most. -/
theorem Steady.dealt_of_announced (h : s.Steady settings) (moves : List Move)
    (hfew : s.lastId + moves.count .accept < UInt64.size) (htold : s.isAnnounced = true)
    (id : Nat) :
    s.dealt id moves ≤ (s.isPast .notice id).toNat := by
  refine Steady.dealt_run (p := fun s => s.isAnnounced = true)
    (fun s m h _ hannounced => h.sound.announced_step hannounced m) ?_ h htold moves hfew
  intro s c user h hannounced hc hstage
  exact (h.alert c (connection?_some hc).1).notice (by rw [hstage]; rfl) hannounced

/-- So does a session that was signalled. -/
theorem Steady.dealt_of_signalled (h : s.Steady settings) (moves : List Move)
    (hfew : s.lastId + moves.count .accept < UInt64.size) (hsignalled : s.isSignalled id = true) :
    s.dealt id moves ≤ (s.isPast .signal id).toNat :=
  Steady.dealt_run (k := .signal) (p := (·.Told id))
    (fun _ m h hword htold => h.told_step htold m hword)
    (fun _ _ _ h htold hc hstage => h.sound.signalled_of_told htold hc hstage) h
    (h.sound.told_of_signalled hsignalled) moves hfew

/-! ## Runs -/

section

variable {clock : Clock} {start : Server} (hstart : create settings clock = .ok start)
include hstart

/-- The server is closing once somebody who called for the end was told that it begins. -/
theorem flag_iff_told {moves : List Move} (hfew : moves.count .accept < UInt64.size) :
    (start.run moves).hall.closing = true ↔ true ∈ start.answers moves := by
  obtain ⟨-, -, hzero⟩ := sound_of_create hstart
  obtain ⟨hfresh, -, hopen, -⟩ := steady_of_create hstart
  have hanswers := hfresh.answers_run moves (by omega)
  rw [hopen] at hanswers
  rcases hanswers with ⟨hnone, hflag⟩ | ⟨hflag, n, hsome⟩
  · simp [hnone, hflag]
  · simp [hsome, hflag]

/-- **A session that was told to stop deals with at most one record more.** Whatever happens, and
however often and from wherever the end is called for: the first call is told that it begins, and no
other; whoever made it gives the notice to everybody who listens, once, and whoever has begun and
not left has it from then on. From when it was given, or from when the signal of a session was
given, a session deals with no record any more unless it had looked past the word in that round, and
then with one; and a session that had not looked yet whether the server is closing is never
registered. -/
theorem told_to_stop_handles_one_more {moves : List Move}
    (hfew : moves.count .accept < UInt64.size) : start.Heeds moves := by
  obtain ⟨-, -, hzero⟩ := sound_of_create hstart
  obtain ⟨hfresh, -, hopen, hnobody, -⟩ := steady_of_create hstart
  have hfew' : start.lastId + moves.count .accept < UInt64.size := by omega
  have h := steady_of_run hstart moves hfew
  exact
    { answers := by
        have hanswers := hfresh.answers_run moves hfew'
        rw [hopen] at hanswers
        rcases hanswers with ⟨hnone, -⟩ | ⟨-, n, hsome⟩
        · exact .inl hnone
        · exact .inr ⟨n, hsome⟩
      flag := flag_iff_told hstart hfew
      announcements := by
        have hcount := hfresh.announcements_run moves hfew'
        rwa [hnobody] at hcount
      notices := fun _ hannounces => connections_of_announces hannounces
      unasked := by
        rintro before after m rfl hannounces
        obtain ⟨hbefore, hrest, -⟩ := steady_within hstart hfew
        rw [count_accept_cons] at hrest
        exact hbefore.sound.notice_of_step hannounces (by omega)
      alert := fun hannounced c hc hlistens =>
        have halert := h.alert c hc
        ⟨halert.subscribed (.inr hlistens), halert.notice hlistens hannounced⟩
      inTurns := fun hdealt => (h.sound.of_dealt hdealt).1
      elsewhere := fun hdealt => h.sound.handlesNothing_of_dealt hdealt
      stopped := by
        rintro before after rfl htold id
        obtain ⟨hbefore, hrest, -⟩ := steady_within hstart hfew
        exact hbefore.dealt_of_announced after hrest htold id
      fired := by
        rintro id before after m rfl hfires
        exact (steady_within hstart hfew).1.signalled_step hfires
      signalled := by
        rintro id before after rfl hsignalled
        obtain ⟨hbefore, hrest, -⟩ := steady_within hstart hfew
        exact hbefore.dealt_of_signalled after hrest hsignalled
      barred := by
        rintro id before after rfl hflag hwaiting
        obtain ⟨hbefore, hrest, hafter⟩ := steady_within hstart hfew
        refine h.sound.not_contains_of_barred ?_
        rw [hafter]
        exact hbefore.barred_run hflag (hbefore.sound.barred_of_waiting hwaiting) after hrest }

end

/-- Four workers. The first session loses its client to a full mailbox, with a record unread. The
second has dealt with one record and has another, and has looked past both words when the notice
comes. The fourth is in its handshake and the fifth waits when the end is called for, three times.
-/
theorem told_to_stop_handles_one_more_amid_records :
    let settings := { Settings.standard with poolSize := 4, mailboxSize := 1 }
    let record : List UInt8 := 1 :: List.replicate 4183 0
    let before : List Move :=
      [.accept, .accept, .accept, .accept, .accept, .look 0, .look 1, .look 2, .look 3, .begin 1,
        .begin 2, .begin 3, .begin 4, .arrive 1 "ann\x00".toUTF8.toList, .handshake 1,
        .arrive 2 "bob\x00".toUTF8.toList, .handshake 2, .arrive 3 "cyd\x00".toUTF8.toList,
        .arrive 1 record, .arrive 2 (record ++ record), .turn 2, .turn 2, .turn 2, .turn 2,
        .handshake 3, .turn 2, .turn 2, .call, .announce]
    let after : List Move :=
      [.call, .close, .turn 1, .turn 2, .turn 2, .turn 2, .giveUp 1, .look 0, .begin 5]
    let moves := before ++ after
    ∃ start, create settings ⟨9, 0⟩ = .ok start ∧ moves.count .accept < UInt64.size ∧
      start.answers moves = [true, false, false] ∧
      (start.run before).connections.map (·.stage) =
        [.serving "ann", .serving "bob", .serving "cyd", .handshake, .queued] ∧
      [1, 2].map (start.run before).isSignalled = [true, false] ∧
      [1, 2].map ((start.run before).isPast .notice) = [false, true] ∧
      (start.run moves).connections.map (·.stage) =
        [.ended, .closing, .serving "cyd", .handshake, .ended] ∧
      [1, 2].map ((start.run before).dealt · after) = [0, 1] ∧ start.Heeds moves := by
  intro settings record before after moves
  obtain ⟨start, hstart⟩ : ∃ start, create settings ⟨9, 0⟩ = .ok start := ⟨_, rfl⟩
  have hfew : moves.count .accept < UInt64.size := by decide +kernel
  refine ⟨start, hstart, hfew, ?_, ?_, ?_, ?_, ?_, ?_,
    told_to_stop_handles_one_more hstart hfew⟩ <;> cases hstart <;> decide +kernel

/-- The server is closing, and its session does not know yet: the call comes before the notice. Then
the session is told to stop in both ways at a moment when it has looked past both, and deals with
the record that it finds. -/
theorem a_session_deals_with_a_record_after_it_was_told :
    let record : List UInt8 := 1 :: List.replicate 4183 0
    let called : List Move :=
      [.accept, .look 0, .begin 1, .arrive 1 "ann\x00".toUTF8.toList, .handshake 1,
        .arrive 1 record, .turn 1, .turn 1, .call]
    let told : List Move := called ++ [.announce, .signal 1]
    ∃ start, create Settings.standard ⟨9, 0⟩ = .ok start ∧
      (start.run called).hall.closing = true ∧
      (start.run called).connections.map (fun c => (c.stage, c.notice)) =
        [(.serving "ann", false)] ∧
      start.answers told = [true] ∧ (start.run told).isAnnounced = true ∧
      (start.run told).isSignalled 1 = true ∧ (start.run told).dealt 1 [.turn 1, .turn 1] = 1 := by
  intro record called told
  obtain ⟨start, hstart⟩ : ∃ start, create Settings.standard ⟨9, 0⟩ = .ok start := ⟨_, rfl⟩
  refine ⟨start, hstart, ?_, ?_, ?_, ?_, ?_, ?_⟩ <;> cases hstart <;> decide +kernel

end Server

end ChatHub
