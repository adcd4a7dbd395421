import Mathlib.Logic.Relation
import ChatHub.Proofs.Hub.Moves
import ChatHub.Proofs.WorkPool.Workers
import ChatHub.Server.Connection
/-!
# The life of a session, by itself

A session that keeps its own rules is in one of six places: in the queue, just taken from it, in its
handshake, in the hub, behind it, or at its end. `Session.Proper` says what its card shows at each
of them, and `Session.Step` has all the ways from one to the next, with the moves of the hub that
each of them takes. There are only seven, and only two of them come near the hub.

Everything that is to be shown about the life of sessions is read off these seven: the phases follow
each other as they may, a session that comes goes once, and the workers have the sessions that are
past the queue and not at their end (`StaffedBy`).
-/

namespace ChatHub

/-! ## Phases on the way -/

/-- One phase leads to another in steps that are allowed. -/
def Phase.Leads : Phase → Phase → Prop :=
  Relation.ReflTransGen fun a b => a.canAdvance b = true

theorem Phase.Leads.one {a b : Phase} (h : a.canAdvance b = true) : a.Leads b := .single h

theorem Phase.Leads.two {a b c : Phase} (hab : a.canAdvance b = true)
    (hbc : b.canAdvance c = true) : a.Leads c := .head hab (.single hbc)

namespace Stage

/-- The phase of a session that waits at this stage. -/
def phase : Stage → Phase
  | queued | taken => .queued
  | handshake => .admitted
  | serving _ => .active
  | closing | ended => .deregistered

/-- The user whose session is in the hub. -/
def user? : Stage → Option String
  | serving user => some user
  | _ => none

end Stage

/-! ## Coming and going -/

/-- What the hub sees of a session: that it comes and that it goes. -/
inductive Visit where
  | came
  | went
deriving Repr, DecidableEq

namespace HubMove

/-- What a move of the hub is to the session with an id. -/
def visitOf? (id : Nat) : HubMove → Option Visit
  | join _ _ other _ _ _ => if other = id then some .came else none
  | leave _ other _ => if other = id then some .went else none
  | _ => none

/-- Whether somebody comes or goes by a move. -/
def isVisit : HubMove → Bool
  | join .. | leave .. => true
  | _ => false

/-- The coming and going of one session. -/
def visits (id : Nat) (μs : List HubMove) : List Visit := μs.filterMap (visitOf? id)

theorem visitOf?_of_not_isVisit {μ : HubMove} (h : μ.isVisit = false) (id : Nat) :
    μ.visitOf? id = none := by
  cases μ with
  | join | leave => cases h
  | _ => rfl

theorem visits_of_not_isVisit {μs : List HubMove} (h : ∀ μ ∈ μs, μ.isVisit = false) (id : Nat) :
    visits id μs = [] := by
  apply List.filterMap_eq_nil_iff.2
  intro μ hμ
  exact visitOf?_of_not_isVisit (h μ hμ) id

theorem visits_append (id : Nat) (μs νs : List HubMove) :
    visits id (μs ++ νs) = visits id μs ++ visits id νs := List.filterMap_append

end HubMove

/-! ## A session and its steps -/

/-- What a connection shows of the life of its session. -/
structure Session where
  card : SessionCard
  stage : Stage
  breach : Option Fault
deriving Repr, DecidableEq

def Connection.session (c : Connection) : Session :=
  { card := c.card, stage := c.stage, breach := c.breach }

namespace Session

def id (σ : Session) : Nat := σ.card.id

/-- A session whose card shows the phase of its stage, and that has broken no rule. -/
def of (id : Nat) (user : Option String) (stage : Stage) : Session :=
  { card := { id, user, phase := stage.phase }, stage, breach := none }

@[simp] theorem id_of (id : Nat) (user : Option String) (stage : Stage) :
    (of id user stage).id = id := rfl

/-- The places where a session can be. -/
inductive Proper : Session → Prop where
  | queued (id : Nat) : Proper (.of id none .queued)
  | taken (id : Nat) : Proper (.of id none .taken)
  | handshake (id : Nat) : Proper (.of id none .handshake)
  | serving (id : Nat) (user : String) : Proper (.of id (some user) (.serving user))
  | closing (id : Nat) (user : String) : Proper (.of id (some user) .closing)
  | ended (id : Nat) (user : Option String) : Proper (.of id user .ended)

/-- How a session gets on, and what it has the hub do. -/
inductive Step : Session → List HubMove → Session → Prop where
  /-- A worker takes it. -/
  | isTaken (id : Nat) : Step (.of id none .queued) [] (.of id none .taken)
  | begins (id : Nat) : Step (.of id none .taken) [] (.of id none .handshake)
  /-- The server is closing. -/
  | turnedAway (id : Nat) : Step (.of id none .taken) [] (.of id none .ended)
  /-- There was no identity. -/
  | refused (id : Nat) : Step (.of id none .handshake) [] (.of id none .ended)
  | registers (t : Clock) (now id : Nat) (user : String) (addr : Option String) (capacity : Nat) :
      Step (.of id none .handshake) [.join t now id user addr capacity]
        (.of id (some user) (.serving user))
  | leaves (t : Clock) (id : Nat) (user : String) :
      Step (.of id (some user) (.serving user)) [.leave t id user] (.of id (some user) .closing)
  /-- The writer is done, or was waited for long enough. -/
  | concludes (id : Nat) (user : String) :
      Step (.of id (some user) .closing) [] (.of id (some user) .ended)

/-- What the hub has seen of a session in this place. -/
def visits (σ : Session) : List Visit :=
  match σ.card.user, σ.stage with
  | none, _ => []
  | some _, .serving _ => [.came]
  | some _, _ => [.came, .went]

variable {σ τ : Session} {μs : List HubMove}

theorem Proper.of_queued (h : σ.Proper) (hstage : σ.stage = .queued) :
    σ = of σ.id none .queued := by
  cases h with
  | queued => rfl
  | _ => cases hstage

theorem Proper.of_taken (h : σ.Proper) (hstage : σ.stage = .taken) : σ = of σ.id none .taken := by
  cases h with
  | taken => rfl
  | _ => cases hstage

theorem Proper.of_handshake (h : σ.Proper) (hstage : σ.stage = .handshake) :
    σ = of σ.id none .handshake := by
  cases h with
  | handshake => rfl
  | _ => cases hstage

theorem Proper.of_serving (h : σ.Proper) {user : String} (hstage : σ.stage = .serving user) :
    σ = of σ.id (some user) (.serving user) := by
  cases h with
  | serving =>
    cases hstage
    rfl
  | _ => cases hstage

theorem Proper.of_closing (h : σ.Proper) (hstage : σ.stage = .closing) :
    ∃ user, σ = of σ.id (some user) .closing := by
  cases h with
  | closing _ user => exact ⟨user, rfl⟩
  | _ => cases hstage

theorem Proper.isRegistered_eq (h : σ.Proper) :
    σ.card.phase.isRegistered = σ.stage.user?.isSome := by
  cases h <;> rfl

theorem Proper.breach_eq (h : σ.Proper) : σ.breach = none := by
  cases h <;> rfl

theorem Proper.phase_eq (h : σ.Proper) : σ.card.phase = σ.stage.phase := by
  cases h <;> rfl

theorem Proper.visits_isPrefix (h : σ.Proper) : σ.visits <+: [.came, .went] := by
  cases h with
  | ended id user => cases user <;> simp [visits, of]
  | _ => simp [visits, of]

theorem Proper.visits_of_ended (h : σ.Proper) (hstage : σ.stage = .ended) :
    σ.visits = [] ∨ σ.visits = [.came, .went] := by
  cases h with
  | ended id user =>
    cases user with
    | none => exact .inl rfl
    | some user => exact .inr rfl
  | _ => cases hstage

theorem Proper.user?_of_visits (h : σ.Proper) (hunseen : σ.visits = []) :
    σ.stage.user? = none := by
  cases h with
  | serving => cases hunseen
  | _ => rfl

theorem Step.proper_right (h : σ.Step μs τ) : τ.Proper := by
  cases h with
  | isTaken id => exact .taken id
  | begins id => exact .handshake id
  | turnedAway id | refused id => exact .ended id none
  | registers _ _ id user => exact .serving id user
  | leaves _ id user => exact .closing id user
  | concludes id user => exact .ended id (some user)

theorem Step.id_eq (h : σ.Step μs τ) : τ.id = σ.id := by
  cases h <;> rfl

theorem Step.leads (h : σ.Step μs τ) : σ.card.phase.Leads τ.card.phase := by
  cases h with
  | isTaken | concludes => exact .refl
  | begins | turnedAway | refused => exact .one rfl
  | registers => exact .two (b := .registered) rfl rfl
  | leaves => exact .two (b := .disconnecting) rfl rfl

theorem Step.visits_eq (h : σ.Step μs τ) : τ.visits = σ.visits ++ HubMove.visits σ.id μs := by
  cases h with
  | registers t now id user =>
    show [Visit.came] = [] ++ HubMove.visits id _
    simp [HubMove.visits, HubMove.visitOf?]
  | leaves t id user =>
    show [Visit.came, Visit.went] = [Visit.came] ++ HubMove.visits id _
    simp [HubMove.visits, HubMove.visitOf?]
  | _ => rfl

theorem Step.visits_other (h : σ.Step μs τ) {other : Nat} (hother : other ≠ σ.id) :
    HubMove.visits other μs = [] := by
  cases h with
  | registers t now id user =>
    have hne : id ≠ other := Ne.symm hother
    simp [HubMove.visits, HubMove.visitOf?, hne]
  | leaves t id user =>
    have hne : id ≠ other := Ne.symm hother
    simp [HubMove.visits, HubMove.visitOf?, hne]
  | _ => rfl

/-! ## Who waits, who is served and who is in the hub -/

def queued? (σ : Session) : Option Nat := if σ.stage = .queued then some σ.id else none

def served? (σ : Session) : Option Nat := if σ.stage.isServed then some σ.id else none

def seat? (σ : Session) : Option (Nat × String) := σ.stage.user?.map (σ.id, ·)

/-- The ids of the sessions in the queue, in the order of the list. -/
def waiting (σs : List Session) : List Nat := σs.filterMap queued?

/-- The ids of the sessions that need a worker. -/
def served (σs : List Session) : List Nat := σs.filterMap served?

/-- The sessions in the hub, and whose they are. -/
def seats (σs : List Session) : List (Nat × String) := σs.filterMap seat?

variable {σs : List Session}

theorem exists_of_mem_seats {seat : Nat × String} (h : seat ∈ seats σs) :
    ∃ τ ∈ σs, τ.id = seat.1 ∧ τ.stage.user? = some seat.2 := by
  obtain ⟨τ, hτ, hseat⟩ := List.mem_filterMap.1 h
  obtain ⟨user, huser, rfl⟩ := Option.map_eq_some_iff.1 hseat
  exact ⟨τ, hτ, rfl, huser⟩

theorem mem_seats_iff (hs : (σs.map id).Nodup) (hσ : σ ∈ σs) :
    σ.id ∈ (seats σs).map Prod.fst ↔ σ.stage.user?.isSome = true := by
  constructor
  · intro h
    obtain ⟨seat, hseat, hid⟩ := List.mem_map.1 h
    obtain ⟨τ, hτ, hτid, huser⟩ := exists_of_mem_seats hseat
    have hτσ : τ = σ := List.inj_on_of_nodup_map hs hτ hσ (hτid.trans hid)
    rw [← hτσ, huser]
    rfl
  · intro h
    obtain ⟨user, huser⟩ := Option.isSome_iff_exists.1 h
    refine List.mem_map.2 ⟨(σ.id, user), List.mem_filterMap.2 ⟨σ, hσ, ?_⟩, rfl⟩
    rw [seat?, huser]
    rfl

end Session

theorem mem_middle {α : Type} {front back : List α} {a b : α} :
    b ∈ front ++ a :: back ↔ b = a ∨ b ∈ front ++ back := by
  rw [List.perm_middle.mem_iff, List.mem_cons]

/-- What one entry of a list contributes can be told first. -/
theorem filterMap_middle {α β : Type} (f : α → Option β) (front back : List α) (a : α) :
    ((front ++ a :: back).filterMap f).Perm ((f a).toList ++ (front ++ back).filterMap f) := by
  have hcons : ∀ l, (a :: l).filterMap f = (f a).toList ++ l.filterMap f := by
    intro l
    rw [List.filterMap_cons]
    cases f a <;> rfl
  rw [← hcons]
  exact List.Perm.filterMap f List.perm_middle

theorem Session.waiting_sublist (σs : List Session) :
    (waiting σs).Sublist (σs.map Session.id) := by
  induction σs with
  | nil => exact .slnil
  | cons σ σs ih =>
    by_cases hσ : σ.stage = .queued
    · have hcons : waiting (σ :: σs) = σ.id :: waiting σs := by simp [waiting, queued?, hσ]
      rw [hcons]
      exact ih.cons_cons σ.id
    · have hcons : waiting (σ :: σs) = waiting σs := by simp [waiting, queued?, hσ]
      rw [hcons]
      exact ih.cons σ.id

/-! ## Workers and sessions -/

/-- The workers of a pool have the sessions that need one, the others wait for one in the order of
the list, and those who wait are pending. -/
structure StaffedBy (σs : List Session) (p : WorkPool Nat) (pending : List Nat) : Prop where
  pool : p.Sound
  queue : p.queue = Session.waiting σs
  pending : pending = Session.waiting σs
  tasks : p.tasks.Perm (Session.served σs)

namespace StaffedBy

open Session

variable {σs front back : List Session} {σ τ : Session} {p q : WorkPool Nat} {pending : List Nat}

theorem waiting_split (front back : List Session) (σ : Session) :
    waiting (front ++ σ :: back) = waiting front ++ (σ.queued?.toList ++ waiting back) := by
  rw [waiting, List.filterMap_append, List.filterMap_cons]
  cases σ.queued? <;> rfl

theorem swap (h : StaffedBy (front ++ σ :: back) p pending) (hqueued : τ.queued? = σ.queued?)
    (hserved : τ.served? = σ.served?) : StaffedBy (front ++ τ :: back) p pending := by
  have hwaiting : waiting (front ++ τ :: back) = waiting (front ++ σ :: back) := by
    rw [waiting_split, waiting_split, hqueued]
  have hserved' : (served (front ++ σ :: back)).Perm (served (front ++ τ :: back)) := by
    refine (filterMap_middle served? front back σ).trans ?_
    rw [← hserved]
    exact (filterMap_middle served? front back τ).symm
  refine { pool := h.pool, queue := ?_, pending := ?_, tasks := h.tasks.trans hserved' }
  · rw [hwaiting]
    exact h.queue
  · rw [hwaiting]
    exact h.pending

theorem enqueue (h : StaffedBy σs p pending) (hopen : p.stopped = false) (id : Nat) :
    ∃ q, p.enqueue id = .ok q ∧ q.stopped = false ∧
      StaffedBy (σs ++ [.of id none .queued]) q (pending ++ [id]) := by
  have hq := WorkPool.enqueue_of_open hopen id
  have hwaiting : waiting (σs ++ [.of id none .queued]) = waiting σs ++ [id] := by
    rw [waiting_split]
    rfl
  refine ⟨_, hq, by rw [WorkPool.stopped_callOne]; exact hopen, h.pool.enqueue hq, ?_, ?_, ?_⟩
  · rw [WorkPool.queue_callOne, hwaiting, ← h.queue]
  · rw [hwaiting, h.pending]
  · rw [WorkPool.tasks_callOne]
    refine h.tasks.trans ?_
    have hserved := filterMap_middle served? σs [] (.of id none .queued)
    rw [List.append_nil] at hserved
    exact hserved.symm

theorem shutdown (h : StaffedBy σs p pending) : StaffedBy σs p.shutdown.2 pending where
  pool := h.pool.shutdown
  queue := h.queue
  pending := h.pending
  tasks := (WorkPool.tasks_stop p).symm ▸ h.tasks

/-- A worker that finds nothing parks or goes home. -/
theorem look_of_nobody (h : StaffedBy σs p pending) {i : Nat} (hi : p.workers[i]? = some .awake)
    (hqueue : p.queue = []) :
    (p.look i).taskOf? i = none ∧ StaffedBy σs (p.look i) pending := by
  have hlt := (List.getElem?_eq_some_iff.1 hi).1
  have hsound := h.pool.look i
  have hlooked := p.looked i
  generalize p.look i = q at hsound hlooked
  cases hlooked with
  | notAwake hnot => exact absurd hi hnot
  | takes _ hcons =>
    rw [hqueue] at hcons
    cases hcons
  | leaves =>
    have htasks := (WorkPool.tasks_setWorker hi .gone).trans h.tasks
    exact ⟨by simp [WorkPool.taskOf?, WorkPool.setWorker, hlt], hsound, h.queue, h.pending, htasks⟩
  | parks =>
    have htasks := (WorkPool.tasks_setWorker hi .parked).trans h.tasks
    exact ⟨by simp [WorkPool.taskOf?, WorkPool.setWorker, hlt], hsound, h.queue, h.pending, htasks⟩

/-- A worker that finds somebody takes whoever has waited longest. -/
theorem look_of_waiting (h : StaffedBy σs p pending) {i id : Nat} {rest : List Nat}
    (hi : p.workers[i]? = some .awake) (hqueue : p.queue = id :: rest) (hnodup : p.queue.Nodup) :
    ∃ front σ back, σs = front ++ σ :: back ∧ σ.id = id ∧ σ.stage = .queued ∧
      (p.look i).workers[i]? = some (.busy id) ∧
      ∀ τ : Session, τ.queued? = none → τ.served? = some id →
        StaffedBy (front ++ τ :: back) (p.look i) (pending.filter (· != id)) := by
  have hsound := h.pool.look i
  obtain ⟨front, σ, back, rfl, hfront, hσ, hback⟩ :=
    List.filterMap_eq_cons_iff.1 (h.queue.symm.trans hqueue)
  have hstage : σ.stage = .queued ∧ σ.id = id := by
    unfold queued? at hσ
    split at hσ
    · rename_i hq
      exact ⟨hq, Option.some.inj hσ⟩
    · cases hσ
  have hlook : p.look i =
      { p.setWorker i (.busy id) with permit := false, queue := rest, active := p.active + 1 } := by
    simp only [WorkPool.look, hi, hqueue]
    rfl
  rw [hlook] at hsound ⊢
  refine ⟨front, σ, back, rfl, hstage.2, hstage.1, ?_, fun τ hτ hserved => ?_⟩
  · exact List.getElem?_set_self (List.getElem?_eq_some_iff.1 hi).1
  · have hwaiting : waiting (front ++ τ :: back) = rest := by
      rw [waiting_split, hτ]
      show waiting front ++ waiting back = rest
      rw [waiting, List.filterMap_eq_nil_iff.2 hfront]
      exact hback
    have hσserved : σ.served? = none := by
      rw [served?, hstage.1]
      rfl
    refine ⟨hsound, hwaiting.symm, ?_, ?_⟩
    · -- Nobody waits twice, so taking the id out takes out the first of them only.
      rw [hwaiting, h.pending, ← h.queue, hqueue]
      rw [hqueue, List.nodup_cons] at hnodup
      rw [List.filter_cons_of_neg (by simp), List.filter_eq_self]
      intro other hother
      exact bne_iff_ne.2 fun he => hnodup.1 (he ▸ hother)
    · have htasks : (p.setWorker i (.busy id)).tasks.Perm (id :: p.tasks) :=
        WorkPool.tasks_setWorker hi (.busy id)
      have hbefore : p.tasks.Perm (served (front ++ back)) := by
        have hsplit := filterMap_middle served? front back σ
        rw [hσserved] at hsplit
        exact h.tasks.trans hsplit
      have hafter := filterMap_middle served? front back τ
      rw [hserved] at hafter
      exact (htasks.trans (hbefore.cons id)).trans hafter.symm

theorem finish (h : StaffedBy (front ++ σ :: back) p pending) {i : Nat}
    (hi : p.workers[i]? = some (.busy σ.id)) (hqueued : σ.queued? = none)
    (hserved : σ.served? = some σ.id) (hτ : τ.queued? = none) (hτ' : τ.served? = none) :
    StaffedBy (front ++ τ :: back) (p.finish i) pending := by
  have hsound := h.pool.finish i
  rw [WorkPool.finish_of_busy hi] at hsound ⊢
  have hwaiting : waiting (front ++ τ :: back) = waiting (front ++ σ :: back) := by
    rw [waiting_split, waiting_split, hτ, hqueued]
  refine ⟨hsound, ?_, ?_, ?_⟩
  · rw [hwaiting]
    exact h.queue
  · rw [hwaiting]
    exact h.pending
  · have htasks : (σ.id :: (p.setWorker i .awake).tasks).Perm p.tasks :=
      WorkPool.tasks_setWorker hi .awake
    have hbefore := filterMap_middle served? front back σ
    rw [hserved] at hbefore
    have hafter := filterMap_middle served? front back τ
    rw [hτ'] at hafter
    exact ((htasks.trans h.tasks).trans hbefore).cons_inv.trans hafter.symm

end StaffedBy

end ChatHub
