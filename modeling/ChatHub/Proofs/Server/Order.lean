import ChatHub.Proofs.Server.Changes
/-!
# A server in order stays in order

What a move does to the sessions is known (`Course`), and so is what it does to the hub, so this
module only has to go through the three kinds of course. The ids stay apart, every session stays in
a proper place, and the hub has those whose sessions are in it (`Sound.of_change`). What the hub has
seen of each session by then is told by where the session is (`Recorded`). A run keeps both from the
server that nobody has connected to (`sound_of_run`).
-/

namespace ChatHub

namespace Server

open Session

variable {s s' : Server} {came : Nat} {μs : List HubMove} {last : Nat} {σs σs' : List Session}

/-! ## What a course keeps -/

theorem Course.ids (h : Course last σs came μs σs')
    (hids : σs.map Session.id = List.range' 1 last) :
    σs'.map Session.id = List.range' 1 (last + came) := by
  cases h with
  | same => exact hids
  | accepted =>
    rw [List.map_append, hids, List.range'_concat, Nat.one_mul, Nat.add_comm 1 last]
    rfl
  | step hσs hstep =>
    rw [hσs] at hids
    refine Eq.trans ?_ hids
    rw [List.map_append, List.map_append, List.map_cons, List.map_cons, hstep.id_eq]

theorem Course.proper (h : Course last σs came μs σs') (hσs : ∀ σ ∈ σs, σ.Proper) :
    ∀ σ ∈ σs', σ.Proper := by
  cases h with
  | same => exact hσs
  | accepted =>
    intro σ hσ
    rcases List.mem_append.1 hσ with hσ | hσ
    · exact hσs σ hσ
    · rw [List.mem_singleton.1 hσ]
      exact .queued _
  | step hsplit hstep =>
    intro σ hσ
    rcases mem_middle.1 hσ with rfl | hσ
    · exact hstep.proper_right
    · rw [hsplit] at hσs
      exact hσs σ (mem_middle.2 (.inr hσ))

/-- What the hub has seen of the sessions is told by where they are. -/
structure Recorded (σs : List Session) (νs : List HubMove) : Prop where
  known : ∀ σ ∈ σs, HubMove.visits σ.id νs = σ.visits
  unknown : ∀ id ∉ σs.map Session.id, HubMove.visits id νs = []

theorem Course.recorded (h : Course last σs came μs σs')
    (hids : σs.map Session.id = List.range' 1 last) {νs : List HubMove} (hνs : Recorded σs νs) :
    Recorded σs' (νs ++ μs) := by
  cases h with
  | same hμs =>
    have hsame : ∀ id, HubMove.visits id (νs ++ μs) = HubMove.visits id νs := by
      intro id
      rw [HubMove.visits_append, HubMove.visits_of_not_isVisit hμs, List.append_nil]
    exact ⟨fun σ hσ => (hsame _).trans (hνs.known σ hσ),
      fun id hid => (hsame _).trans (hνs.unknown id hid)⟩
  | accepted =>
    rw [List.append_nil]
    refine ⟨fun σ hσ => ?_, fun id hid => ?_⟩
    · rcases List.mem_append.1 hσ with hσ | hσ
      · exact hνs.known σ hσ
      · rw [List.mem_singleton.1 hσ]
        apply hνs.unknown
        rw [hids, List.mem_range'_1, id_of]
        omega
    · rw [List.map_append, List.mem_append, not_or] at hid
      exact hνs.unknown id hid.1
  | @step front back σ τ _ hsplit hstep =>
    subst hsplit
    have hnodup : (σ.id :: (front ++ back).map Session.id).Nodup :=
      (List.perm_middle.map Session.id).nodup_iff.1 (hids ▸ List.nodup_range')
    have hother : ∀ id, id ≠ σ.id →
        HubMove.visits id (νs ++ μs) = HubMove.visits id νs := by
      intro id hid
      rw [HubMove.visits_append, hstep.visits_other hid, List.append_nil]
    refine ⟨fun ρ hρ => ?_, fun id hid => ?_⟩
    · rcases mem_middle.1 hρ with rfl | hρ
      · have hσ := hνs.known σ (mem_middle.2 (.inl rfl))
        rw [hstep.id_eq, HubMove.visits_append, hσ, hstep.visits_eq]
      · have hne : ρ.id ≠ σ.id := fun he =>
          (List.nodup_cons.1 hnodup).1 (he ▸ List.mem_map_of_mem hρ)
        exact (hother _ hne).trans (hνs.known ρ (mem_middle.2 (.inr hρ)))
    · have hids' : (front ++ τ :: back).map Session.id = (front ++ σ :: back).map Session.id := by
        rw [List.map_append, List.map_append, List.map_cons, List.map_cons, hstep.id_eq]
      rw [hids'] at hid
      have hne : id ≠ σ.id := by
        rintro rfl
        exact hid (List.mem_map_of_mem (mem_middle.2 (.inl rfl)))
      exact (hother _ hne).trans (hνs.unknown id hid)

/-! ## The hub and the sessions -/

theorem not_contains_of_seats {h : Hub} (hseats : h.registry.names.Perm (seats σs)) {id : Nat}
    (hid : id ∉ σs.map Session.id) : h.registry.contains id = false := by
  rw [Bool.eq_false_iff, ne_eq, Registry.contains_iff, (hseats.map Prod.fst).mem_iff]
  intro hin
  obtain ⟨seat, hseat, rfl⟩ := List.mem_map.1 hin
  obtain ⟨τ, hτ, hτid, -⟩ := exists_of_mem_seats hseat
  exact hid (hτid ▸ List.mem_map_of_mem hτ)

/-- The hub comes to have those whose sessions are in it then, and keeps its books on them. -/
theorem Course.hub (h : Course last σs came μs σs')
    (hids : σs.map Session.id = List.range' 1 last) (hlast : last < UInt64.size) {hub : Hub}
    (hseats : hub.registry.names.Perm (seats σs)) (hagree : hub.Agree) :
    (hub.run μs).registry.names.Perm (seats σs') ∧ (hub.run μs).Agree := by
  cases h with
  | same hμs =>
    refine ⟨?_, hagree.run (Hub.orderly_of_not_isVisit hμs hub)⟩
    rw [Hub.names_run hμs]
    exact hseats
  | accepted =>
    refine ⟨hseats.trans ?_, hagree⟩
    rw [seats, seats, List.filterMap_append]
    exact (List.append_nil _).symm ▸ List.Perm.refl _
  | @step front back σ τ _ hsplit hstep =>
    subst hsplit
    have hnodup : (σ.id :: (front ++ back).map Session.id).Nodup :=
      (List.perm_middle.map Session.id).nodup_iff.1 (hids ▸ List.nodup_range')
    have hnotin := (List.nodup_cons.1 hnodup).1
    have hbefore := hseats.trans (filterMap_middle seat? front back σ)
    have hafter := filterMap_middle seat? front back τ
    cases hstep with
    | registers t now id user addr capacity =>
      have hnew : hub.registry.contains id = false := not_contains_of_seats hbefore hnotin
      have hfits : hub.registry.size + 1 < UInt64.size := by
        have hseated : hub.registry.size ≤ (front ++ back).length := by
          rw [Registry.size_eq, hbefore.length_eq]
          exact List.length_filterMap_le ..
        have hlength := congrArg List.length hids
        rw [List.length_map, List.length_range', List.perm_middle.length_eq, List.length_cons]
          at hlength
        omega
      show (hub.act (.join t now id user addr capacity)).registry.names.Perm _ ∧
        (hub.act (.join t now id user addr capacity)).Agree
      rw [HubMove.names_act]
      have hinsert := Registry.names_insert (c := .arriving now id user addr capacity) hnew
      exact ⟨(hinsert.trans (hbefore.cons _)).trans hafter.symm, hagree.act ⟨hnew, hfits⟩⟩
    | leaves t id user =>
      show (hub.act (.leave t id user)).registry.names.Perm _ ∧ (hub.act (.leave t id user)).Agree
      rw [HubMove.names_act]
      have hrest : ((id, user) :: seats (front ++ back)).filter (·.1 != id) =
          seats (front ++ back) := by
        rw [List.filter_cons_of_neg (by simp), List.filter_eq_self]
        intro seat hseat
        obtain ⟨τ, hτ, hτid, -⟩ := exists_of_mem_seats hseat
        exact bne_iff_ne.2 fun he => hnotin (List.mem_map.2 ⟨τ, hτ, hτid.trans he⟩)
      have hfiltered := hbefore.filter (·.1 != id)
      rw [← Registry.names_remove] at hfiltered
      refine ⟨hfiltered.trans ?_, hagree.act trivial⟩
      show (((id, user) :: seats (front ++ back)).filter (·.1 != id)).Perm _
      rw [hrest]
      exact hafter.symm
    | _ => exact ⟨hbefore.trans hafter.symm, hagree⟩

/-! ## A server in order stays in order -/

theorem Sound.of_change (hs : s.Sound) (h : s.Change came μs s')
    (hword : s.lastId + came < UInt64.size) : s'.Sound := by
  obtain ⟨hseats, hagree⟩ := h.course.hub hs.ids hs.word hs.seats hs.agree
  have hregistry := Hub.registry_of_indoors h.hub
  exact
    { ids := by
        rw [h.lastId]
        exact h.course.ids hs.ids
      word := by
        rw [h.lastId]
        exact hword
      proper := h.course.proper hs.proper
      staffed := h.staffed
      taking := h.taking
      seats := by
        rw [hregistry]
        exact hseats
      agree := hagree.frame (congrArg Registry.names hregistry) (Hub.books_of_indoors h.hub) }

theorem sound_of_create {settings : Settings} {clock : Clock} {start : Server}
    (h : create settings clock = .ok start) :
    start.Sound ∧ start.sessions = [] ∧ start.lastId = 0 := by
  unfold Server.create Hall.create at h
  cases hhub : Hub.create settings.cacheCapacity settings.timeQuantumMs with
  | error e =>
    rw [hhub] at h
    cases h
  | ok hub =>
    cases hpool : WorkPool.create (τ := Nat) settings.poolSize with
    | error e =>
      rw [hhub, hpool] at h
      cases h
    | ok pool =>
      rw [hhub, hpool] at h
      cases h
      have hsound := WorkPool.Sound.create hpool
      have hfresh : pool.queue = [] ∧ pool.active = 0 ∧ pool.stopped = false := by
        unfold WorkPool.create at hpool
        split at hpool
        · cases hpool
        · cases hpool
          exact ⟨rfl, rfl, rfl⟩
      obtain ⟨hqueue, hactive, hopen⟩ := hfresh
      have htasks : pool.tasks = [] :=
        List.length_eq_zero_iff.1 (hsound.active.symm.trans hactive)
      have hempty := Hub.eq_empty_of_create hhub
      subst hempty
      refine ⟨?_, rfl, rfl⟩
      exact
        { ids := rfl
          word := (by decide : 0 < UInt64.size)
          proper := List.forall_mem_nil _
          staffed :=
            { pool := hsound
              queue := hqueue
              pending := rfl
              tasks := by
                rw [htasks]
                exact .refl _ }
          taking := fun _ => hopen
          seats := .refl _
          agree := .empty _ }

/-! ## Runs -/

theorem count_accept_cons (m : Move) (moves : List Move) :
    (m :: moves).count .accept = [m].count .accept + moves.count .accept := by
  rw [← List.count_append]
  rfl

theorem Sound.run (hs : s.Sound) {νs : List HubMove} (hνs : Recorded s.sessions νs)
    (moves : List Move) (hfew : s.lastId + moves.count .accept < UInt64.size) :
    (s.run moves).Sound ∧ Recorded (s.run moves).sessions (νs ++ s.trace moves) ∧
      (s.run moves).lastId ≤ s.lastId + moves.count .accept := by
  induction moves generalizing s νs with
  | nil => exact ⟨hs, (List.append_nil νs).symm ▸ hνs, Nat.le_add_right ..⟩
  | cons m moves ih =>
    rw [count_accept_cons] at hfew ⊢
    obtain ⟨came, hcame, hchange⟩ := hs.exists_change m (by omega)
    have hs' := hs.of_change hchange (by omega)
    have hνs' := hchange.course.recorded hs.ids hνs
    have hlast := hchange.lastId
    obtain ⟨hsound, hrecorded, hle⟩ := ih hs' hνs' (by omega)
    refine ⟨hsound, List.append_assoc νs _ _ ▸ hrecorded, Nat.le_trans hle ?_⟩
    omega

/-- What holds of every server that a run leads to, as long as the counter of connections has not
come round. -/
theorem sound_of_run {settings : Settings} {clock : Clock} {start : Server}
    (hstart : create settings clock = .ok start) (moves : List Move)
    (hfew : moves.count .accept < UInt64.size) :
    (start.run moves).Sound ∧ Recorded (start.run moves).sessions (start.trace moves) ∧
      (start.run moves).lastId ≤ moves.count .accept := by
  obtain ⟨hsound, hsessions, hlast⟩ := sound_of_create hstart
  have hnothing : Recorded start.sessions [] := by
    rw [hsessions]
    exact ⟨List.forall_mem_nil _, fun _ _ => rfl⟩
  have hrun := hsound.run hnothing moves (by omega)
  rwa [hlast, Nat.zero_add] at hrun

end Server

end ChatHub
