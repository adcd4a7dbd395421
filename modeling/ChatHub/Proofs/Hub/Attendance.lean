import ChatHub.Proofs.Hub.Moves
import ChatHub.Proofs.Roster.Rotation
/-!
# Who is there

Four records say who is connected: the registry, the rotation, a word among the totals and a
monitoring gauge. They are kept by different lines of `Hub.join`, `Hub.leave` and
`Hub.refreshTally`, and clients are retired in the middle of joining and leaving, when a notice
cannot be delivered. The theorem here is that the four never disagree.

Retiring is what makes one fear otherwise, and it turns out to be harmless for the simplest of
reasons: a retired client stays in the registry. What a round does to a client changes no id and no
user, and it does not come near the other three records, so the only moves that need an argument are
the two that begin a stay and end one.
-/

namespace ChatHub

/-! ## Names in the rotation -/

namespace Roster

/-- Who takes turns: the ids with the users they belong to. -/
def names (r : Roster) : List (Nat × String) := r.members.map fun m => (m.id, m.user)

theorem mem_ids_iff {r : Roster} {id : Nat} : id ∈ r.ids ↔ id ∈ r.names.map Prod.fst := by
  rw [names, List.map_map]
  rfl

theorem names_next {r : Roster} (h : r.Sound) (now : Nat) : (r.next now).2.names = r.names := by
  rcases h.split with ⟨-, hc⟩ | ⟨front, m, back, hm, hc⟩
  · rw [next_of_nobody hc]
  · rw [next_of_split hm hc, names, names, hm]
    simp only [List.map_append, List.map_cons]

theorem names_add {r : Roster} {id : Nat} (hid : id ∉ r.ids) (user : String) :
    (r.add id user).2.names = r.names ++ [(id, user)] := by
  rw [add_of_absent hid, names, names, List.map_append]
  rfl

theorem names_remove {r : Roster} (h : r.Sound) (id : Nat) :
    (r.remove id).2.names = r.names.filter (·.1 != id) := by
  by_cases hid : id ∈ r.ids
  · obtain ⟨xs, m, ys, hm, rfl⟩ := exists_split_of_mem hid
    rw [remove_of_split h hm, names, names, hm]
    have hu := h.unique
    rw [ids, hm, List.map_append, List.map_cons] at hu
    -- Nobody on either side has the id of the one in the middle.
    have hxs : ∀ x ∈ xs, x.id ≠ m.id := fun x hx =>
      (List.nodup_append.1 hu).2.2 _ (List.mem_map_of_mem hx) _ List.mem_cons_self
    have hys : ∀ y ∈ ys, y.id ≠ m.id := fun y hy he =>
      (List.nodup_cons.1 (List.nodup_append.1 hu).2.1).1 (he ▸ List.mem_map_of_mem hy)
    rw [List.map_append, List.map_append, List.map_cons, List.filter_append,
      List.filter_cons_of_neg (by simp), List.filter_eq_self.2, List.filter_eq_self.2]
    · intro p hp
      obtain ⟨y, hy, rfl⟩ := List.mem_map.1 hp
      exact bne_iff_ne.2 (hys y hy)
    · intro p hp
      obtain ⟨x, hx, rfl⟩ := List.mem_map.1 hp
      exact bne_iff_ne.2 (hxs x hx)
  · rw [remove_of_absent hid, List.filter_eq_self.2]
    intro p hp
    exact bne_iff_ne.2 fun he => hid (mem_ids_iff.2 (he ▸ List.mem_map_of_mem hp))

end Roster

/-! ## The size of the registry -/

namespace Registry

theorem size_insert {r : Registry} {c : Client} (h : r.contains c.id = false) :
    (r.insert c).size = r.size + 1 := by
  rw [size_eq, size_eq, (names_insert h).length_eq, List.length_cons]

theorem size_remove_of_present {r : Registry} {id : Nat} {c : Client} (h : r.find? id = some c) :
    (r.remove id).2.size + 1 = r.size := by
  obtain ⟨hc, rfl⟩ := find?_some h
  have hone : r.clients.countP (·.id == c.id) = 1 := by
    have hcount := List.count_eq_one_of_mem r.ids_nodup (List.mem_map_of_mem hc)
    rwa [ids, List.count, List.countP_map] at hcount
  have hsplit := List.length_eq_countP_add_countP (·.id == c.id) (l := r.clients)
  rw [hone] at hsplit
  show (r.clients.filter (·.id != c.id)).length + 1 = r.clients.length
  rw [hsplit, ← List.countP_eq_length_filter, Nat.add_comm]
  simp [bne, beq_eq_decide]

end Registry

/-! ## The other three records -/

/-- What is written down about who is there, apart from the registry. -/
structure Books where
  roster : Roster
  clients : UInt64
  connected : Int

namespace Hub

def books (h : Hub) : Books :=
  { roster := h.roster, clients := h.tally.clients, connected := h.gauges.connected }

theorem books_welcome (h : Hub) (c : Client) :
    (h.welcome c).books =
      { roster := (h.roster.add c.id c.user).2
        clients := h.tally.clients + 1
        connected := h.gauges.connected + 1 } := by
  unfold welcome enrol
  rcases h.roster.add c.id c.user with ⟨added, roster⟩
  cases added <;> rfl

theorem books_strike (h : Hub) (id : Nat) :
    (h.strike id).2.books = { h.books with roster := (h.roster.remove id).2 } := by
  unfold strike
  rcases h.roster.remove id with ⟨removed, roster⟩
  cases removed <;> rfl

theorem books_dismiss_of_present {h : Hub} {id : Nat} {c : Client}
    (hc : h.registry.find? id = some c) :
    (h.dismiss id).books =
      { roster := (h.roster.remove id).2
        clients := Tally.decrement h.tally.clients
        connected := h.gauges.connected - 1 } := by
  have hstrike := h.books_strike id
  rw [dismiss_of_present hc]
  injection hstrike with hroster hclients hconnected
  show Books.mk _ (Tally.decrement _) _ = Books.mk _ _ _
  rw [hroster, hclients, hconnected]
  rfl

@[simp] theorem books_lose (h : Hub) (id : Nat) : (h.lose id).books = h.books := by
  unfold lose
  rcases h.registry.retire id with ⟨_ | user, registry⟩ <;> rfl

theorem books_foldl_lose (h : Hub) (ids : List Nat) : (ids.foldl lose h).books = h.books := by
  induction ids generalizing h with
  | nil => rfl
  | cons id ids ih => rw [List.foldl_cons, ih, books_lose]

@[simp] theorem books_broadcast (h : Hub) (t : Clock) (m : Record) (excluding : Option Nat) :
    (h.broadcast t m excluding).2.books = h.books :=
  books_foldl_lose _ _

@[simp] theorem books_lookup (h : Hub) (id : String) : (h.lookup id).2.books = h.books := by
  show Books.mk h.roster h.tally.clients
    (if (h.cache.lookup id).1.isSome then { h.gauges with hits := h.gauges.hits + 1 }
      else { h.gauges with misses := h.gauges.misses + 1 }).connected = h.books
  split <;> rfl

@[simp] theorem books_probeRecent (h : Hub) (t : Clock) (id : String) :
    (h.probeRecent t id).books = h.books := by
  show (if (h.lookup id).1.isSome then (h.lookup id).2.refresh t id
    else (h.lookup id).2).books = h.books
  split
  · exact h.books_lookup id
  · exact h.books_lookup id

end Hub

@[simp] theorem HubMove.books_afterwards (h : Hub) (μ : HubMove) :
    (μ.afterwards h).books = h.books := by
  cases μ with
  | relayText t id user m =>
    show ((((h.probeRecent t _).probeRecent t _).probeRecent t _)).books = h.books
    simp only [Hub.books_probeRecent]
  | _ => rfl

/-! ## Agreement -/

namespace Hub

/-- The four records of who is there agree. -/
structure Agree (h : Hub) : Prop where
  /-- The registry and the rotation hold the same ids with the same users, each of them once. -/
  members : h.registry.names.Perm h.roster.names
  /-- The total is the number of records in the registry. -/
  clients : h.tally.clients.toNat = h.registry.size
  /-- So is the gauge. -/
  connected : h.gauges.connected = h.registry.size
  /-- The rotation is in order. -/
  sound : h.roster.Sound

theorem Agree.empty (capacity : Nat) : (empty capacity).Agree :=
  { members := .nil, clients := rfl, connected := rfl, sound := .empty }

theorem Agree.of_books {h : Hub} {b : Books} (hb : h.books = b)
    (hmembers : h.registry.names.Perm b.roster.names) (hclients : b.clients.toNat = h.registry.size)
    (hconnected : b.connected = h.registry.size) (hsound : b.roster.Sound) : h.Agree := by
  subst hb
  exact { members := hmembers, clients := hclients, connected := hconnected, sound := hsound }

/-- What changes neither a name in the registry nor the other records keeps them in agreement. -/
theorem Agree.frame {h h' : Hub} (ha : h.Agree) (hnames : h'.registry.names = h.registry.names)
    (hbooks : h'.books = h.books) : h'.Agree := by
  have hsize : h'.registry.size = h.registry.size := by
    rw [Registry.size_eq, Registry.size_eq, hnames]
  refine .of_books hbooks ?_ ?_ ?_ ha.sound
  · rw [hnames]
    exact ha.members
  · rw [hsize]
    exact ha.clients
  · rw [hsize]
    exact ha.connected

/-- Registry and rotation have the same sessions. -/
theorem Agree.contains_roster {h : Hub} (ha : h.Agree) (id : Nat) :
    h.roster.contains id = h.registry.contains id := by
  rw [Bool.eq_iff_iff, Registry.contains_iff, Roster.contains_iff, Roster.mem_ids_iff,
    (ha.members.map Prod.fst).mem_iff]

theorem Agree.not_mem_ids {h : Hub} (ha : h.Agree) {id : Nat}
    (hid : h.registry.contains id = false) : id ∉ h.roster.ids := by
  intro hin
  rw [Roster.mem_ids_iff, ← (ha.members.map Prod.fst).mem_iff, Registry.names, List.map_map] at hin
  obtain ⟨c, hc, hcid⟩ := List.mem_map.1 hin
  exact Registry.not_contains hid c hc hcid

theorem Agree.welcome {h : Hub} (ha : h.Agree) {c : Client}
    (hnew : h.registry.contains c.id = false) (hfits : h.registry.size + 1 < UInt64.size) :
    (h.welcome c).Agree := by
  have hid := ha.not_mem_ids hnew
  refine .of_books (h.books_welcome c) ?_ ?_ ?_ (ha.sound.add c.id c.user)
  · rw [registry_welcome]
    show (h.registry.insert c).names.Perm (h.roster.add c.id c.user).2.names
    rw [Roster.names_add hid]
    exact (Registry.names_insert hnew).trans
      ((ha.members.cons _).trans (List.perm_append_singleton _ _).symm)
  · show (h.tally.clients + 1).toNat = _
    rw [registry_welcome, Registry.size_insert hnew, UInt64.toNat_add, ha.clients]
    exact Nat.mod_eq_of_lt hfits
  · show h.gauges.connected + 1 = _
    rw [registry_welcome, Registry.size_insert hnew, ha.connected]
    rfl

/-- Somebody goes, or says so without having been there. -/
theorem Agree.dismiss {h : Hub} (ha : h.Agree) (id : Nat) : (h.dismiss id).Agree := by
  have hmembers : (h.dismiss id).registry.names.Perm (h.roster.remove id).2.names := by
    rw [registry_dismiss, Registry.names_remove, Roster.names_remove ha.sound]
    exact ha.members.filter _
  have hsound := ha.sound.remove id
  cases hgone : h.registry.find? id with
  | none =>
    -- Who is in no record can be taken out of all four.
    have hbooks := h.books_strike id
    rw [← dismiss_of_absent hgone] at hbooks
    have hsize : (h.dismiss id).registry.size = h.registry.size := by
      rw [registry_dismiss, Registry.remove_of_absent hgone]
    refine .of_books hbooks hmembers ?_ ?_ hsound
    · rw [hsize]
      exact ha.clients
    · rw [hsize]
      exact ha.connected
  | some c =>
    have hsize : (h.dismiss id).registry.size + 1 = h.registry.size := by
      rw [registry_dismiss]
      exact Registry.size_remove_of_present hgone
    refine .of_books (books_dismiss_of_present hgone) hmembers ?_ ?_ hsound
    · show (Tally.decrement h.tally.clients).toNat = _
      have hcount := ha.clients
      have hpos : h.tally.clients ≠ 0 := by
        intro hzero
        rw [hzero, ← hsize] at hcount
        exact absurd hcount (by simp)
      -- The word stops at 0 instead of wrapping, but it stands for a registry with somebody in it.
      have hone : (1 : UInt64) ≤ h.tally.clients := by
        rw [UInt64.le_iff_toNat_le, hcount, ← hsize]
        exact Nat.le_add_left _ _
      rw [Tally.decrement, if_neg hpos, UInt64.toNat_sub_of_le _ _ hone, hcount, ← hsize]
      rfl
    · show h.gauges.connected - 1 = _
      rw [ha.connected, ← hsize]
      omega

theorem Agree.round {ρ : Round} (ha : ρ.hub.Agree) : ρ.outcome.2.Agree := by
  refine ha.frame ?_ (ρ.hub.books_broadcast ρ.clock ρ.record ρ.excluding)
  rw [Round.outcome, registry_broadcast]
  exact Registry.names_mapClients _ _ _ (Client.afterRound_user _ _)

/-- Bringing the totals up to date sets one of the four records to what it is already. -/
theorem Agree.refreshTally {h : Hub} (ha : h.Agree) : h.refreshTally.Agree := by
  have hsize : h.registry.size.toUInt64.toNat = h.registry.size := by
    rw [← ha.clients]
    simp
  exact { members := ha.members, clients := hsize, connected := ha.connected, sound := ha.sound }

end Hub

/-! ## Runs -/

namespace HubMove

/-- Whoever joins has an id that nobody has at that moment, and the registry does not outgrow a
word: a machine can hold no more records than that, and the total could not tell their number. -/
def Orderly (h : Hub) : HubMove → Prop
  | join _ _ id _ _ _ => h.registry.contains id = false ∧ h.registry.size + 1 < UInt64.size
  | _ => True

instance Orderly.decidable (h : Hub) (μ : HubMove) : Decidable (μ.Orderly h) := by
  unfold Orderly
  split <;> infer_instance

end HubMove

namespace Hub

/-- Every move of a run is orderly when its time comes. -/
def Orderly (h : Hub) : List HubMove → Prop
  | [] => True
  | μ :: μs => μ.Orderly h ∧ (h.act μ).Orderly μs

instance Orderly.decidable : ∀ (h : Hub) (μs : List HubMove), Decidable (h.Orderly μs)
  | _, [] => inferInstanceAs (Decidable True)
  | h, μ :: μs =>
    have := Orderly.decidable (h.act μ) μs
    inferInstanceAs (Decidable (μ.Orderly h ∧ (h.act μ).Orderly μs))

/-- The hub in which a round is made agrees if the hub before the move does. -/
theorem Agree.staged {h : Hub} (ha : h.Agree) {μ : HubMove} (hμ : μ.Orderly h) {ρ : Round}
    (hρ : μ.round? h = some ρ) : ρ.hub.Agree := by
  cases μ with
  | join t now id user addr capacity =>
    cases hρ
    exact ha.welcome hμ.1 hμ.2
  | leave t id user =>
    cases hρ
    exact ha.dismiss id
  | broadcast t m excluding =>
    cases hρ
    exact ha
  | relayText t id user m =>
    cases hρ
    exact ha.frame rfl (h.books_lookup _)
  | _ => cases hρ

theorem Agree.act {h : Hub} (ha : h.Agree) {μ : HubMove} (hμ : μ.Orderly h) : (h.act μ).Agree := by
  cases hρ : μ.round? h with
  | some ρ =>
    rw [HubMove.act_of_round hρ]
    refine (ha.staged hμ hρ).round.frame ?_ (HubMove.books_afterwards _ μ)
    rw [HubMove.registry_afterwards]
  | none =>
    have hnames : (h.act μ).registry.names = (μ.seated h.registry).names := by
      rw [HubMove.registry_act]
      exact Registry.names_mapClients _ _ _ (μ.effect_user h)
    cases μ with
    | join t now id user addr capacity => cases hρ
    | leave t id user => cases hρ
    | broadcast t m excluding => cases hρ
    | relayText t id user m => cases hρ
    | refreshTally => exact ha.refreshTally
    | report => exact ha.refreshTally
    | replyStatus t id => exact ha.refreshTally.frame hnames rfl
    | nextTurn t =>
      refine { members := ?_, clients := ha.clients, connected := ha.connected,
               sound := ha.sound.next t.ms }
      show h.registry.names.Perm (h.roster.next t.ms).2.names
      rw [Roster.names_next ha.sound]
      exact ha.members
    | lookup id => exact ha.frame hnames (h.books_lookup id)
    | _ => exact ha.frame hnames rfl

theorem Agree.run {h : Hub} (ha : h.Agree) {μs : List HubMove} (hμs : h.Orderly μs) :
    (h.run μs).Agree := by
  induction μs generalizing h with
  | nil => exact ha
  | cons μ μs ih => exact ih (ha.act hμs.1) hμs.2

/-- In every hub that an orderly run leads to, the registry and the rotation hold the same ids with
the same users, and the total and the gauge both tell their number. -/
theorem agree_of_orderly {capacity quantum : Nat} {start : Hub} {μs : List HubMove}
    (hstart : create capacity quantum = .ok start) (hμs : start.Orderly μs) :
    (start.run μs).Agree := by
  have hagree : start.Agree := eq_empty_of_create hstart ▸ Agree.empty capacity
  exact hagree.run hμs

/-- The second client has no room for the notice of the third and is retired by it, leaves twice,
and comes back; the first has hung up by then; the last to leave was never there. -/
theorem agree_of_orderly_amid_losses :
    let μs : List HubMove :=
      [.join ⟨7, 0⟩ 0 1 "ann" none 4, .join ⟨7, 1⟩ 1 2 "bob" none 0, .join ⟨8, 2⟩ 2 3 "cy" none 1,
        .nextTurn ⟨8, 3⟩, .leave ⟨9, 4⟩ 2 "bob", .leave ⟨9, 5⟩ 2 "bob", .far 1 .hangUp,
        .refreshTally, .join ⟨9, 6⟩ 6 2 "bob" none 0, .leave ⟨9, 7⟩ 5 "eve"]
    create 2 5 = .ok (Hub.empty 2) ∧ (Hub.empty 2).Orderly μs ∧ ((Hub.empty 2).run μs).Agree ∧
      ((Hub.empty 2).run μs).registry.names = [(1, "ann"), (2, "bob"), (3, "cy")] ∧
      ((Hub.empty 2).run μs).registry.isActive 1 = false := by
  intro μs
  have hstart : create 2 5 = .ok (Hub.empty 2) := rfl
  have hμs : (Hub.empty 2).Orderly μs := by decide
  exact ⟨hstart, hμs, agree_of_orderly hstart hμs, by decide, by decide⟩

end Hub

end ChatHub
