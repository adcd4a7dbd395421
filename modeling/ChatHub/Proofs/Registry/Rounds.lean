import Mathlib.Data.List.Nodup
import ChatHub.Registry
/-!
# One message going round, client by client

The registry hands a message out and reports who could not take it; those clients are retired
afterwards, one at a time and by their ids. Both halves together come to a single function on
clients, `Client.afterRound`: whoever is in the audience has the message at the end of the queue or
is retired, and nobody else is touched. That the ids in the report find the same clients again rests
on no two clients sharing an id.

The rest of the module says where a client is found after each operation on the registry, and under
which name.
-/

namespace ChatHub

namespace Client

/-- What one message going round makes of a client. -/
def afterRound (m : Record) (excluding : Option Nat) (c : Client) : Client :=
  if Registry.isAudience excluding c then
    if (c.deliver m).1 then (c.deliver m).2 else c.retire
  else c

/-- A client who cannot take a record is left as they were. -/
theorem deliver_of_refused {c : Client} {m : Record} (h : (c.deliver m).1 = false) :
    (c.deliver m).2 = c := by
  unfold deliver Mailbox.offer at h ⊢
  by_cases hroom : c.link.mailbox.hasRoom
  · simp [hroom] at h
  · simp [hroom]

@[simp] theorem deliver_active (c : Client) (m : Record) : (c.deliver m).2.active = c.active := rfl

theorem retire_retire (c : Client) : c.retire.retire = c.retire := rfl

@[simp] theorem deliver_isOpen (c : Client) (m : Record) :
    (c.deliver m).2.link.mailbox.isOpen = c.link.mailbox.isOpen := by
  unfold deliver Mailbox.offer
  by_cases hroom : c.link.mailbox.hasRoom <;> simp [hroom]

/-- A record is taken if there is room for it. -/
theorem deliver_fst (c : Client) (m : Record) : (c.deliver m).1 = c.link.mailbox.hasRoom := by
  unfold deliver Mailbox.offer
  cases c.link.mailbox.hasRoom <;> rfl

theorem deliver_eq (c : Client) (m : Record) :
    (c.deliver m).2 =
      { c with
        link := { c.link with
          mailbox := { c.link.mailbox with
            queue := c.link.mailbox.queue ++
              if c.link.mailbox.hasRoom = true then [m] else [] } } } := by
  unfold deliver Mailbox.offer
  cases hroom : c.link.mailbox.hasRoom <;> simp

theorem deliver_queue (c : Client) (m : Record) :
    (c.deliver m).2.link.mailbox.queue =
      c.link.mailbox.queue ++ if (c.deliver m).1 then [m] else [] := by
  unfold deliver Mailbox.offer
  by_cases hroom : c.link.mailbox.hasRoom <;> simp [hroom]

theorem refused_of_shut {c : Client} (hshut : c.link.mailbox.isOpen = false) (m : Record) :
    (c.deliver m).1 = false := by
  simp [deliver, Mailbox.offer, Mailbox.hasRoom, hshut]

/-- A round passes a client by, or reaches them, or retires them. -/
theorem afterRound_cases (m : Record) (excluding : Option Nat) (c : Client) :
    (Registry.isAudience excluding c = false ∧ c.afterRound m excluding = c) ∨
      (Registry.isAudience excluding c = true ∧ (c.deliver m).1 = true ∧
        c.afterRound m excluding = (c.deliver m).2) ∨
      (Registry.isAudience excluding c = true ∧ (c.deliver m).1 = false ∧
        c.afterRound m excluding = c.retire) := by
  unfold afterRound
  cases haud : Registry.isAudience excluding c with
  | false => exact Or.inl ⟨rfl, if_neg nofun⟩
  | true =>
    cases htaken : (c.deliver m).1 with
    | true => exact Or.inr (Or.inl ⟨rfl, rfl, rfl⟩)
    | false => exact Or.inr (Or.inr ⟨rfl, rfl, rfl⟩)

theorem queue_afterRound (c : Client) (m : Record) (excluding : Option Nat) :
    (c.afterRound m excluding).link.mailbox.queue = c.link.mailbox.queue ++
      if Registry.isAudience excluding c = true ∧ c.link.mailbox.hasRoom = true then [m]
      else [] := by
  rcases c.afterRound_cases m excluding with ⟨haud, h⟩ | ⟨haud, hroom, h⟩ | ⟨haud, hroom, h⟩
  · simp [h, haud]
  · rw [deliver_fst] at hroom
    simp [h, haud, hroom, deliver_queue, deliver_fst]
  · rw [deliver_fst] at hroom
    simp [h, haud, hroom, retire, signal]

@[simp] theorem afterRound_id (m : Record) (excluding : Option Nat) (c : Client) :
    (c.afterRound m excluding).id = c.id := by
  unfold afterRound
  split
  · split <;> rfl
  · rfl

@[simp] theorem afterRound_user (m : Record) (excluding : Option Nat) (c : Client) :
    (c.afterRound m excluding).user = c.user := by
  unfold afterRound
  split
  · split <;> rfl
  · rfl

end Client

namespace Registry

/-- No two clients share an id. -/
theorem ids_nodup (r : Registry) : r.ids.Nodup :=
  List.pairwise_map.2 (r.ascending.imp fun {_ _} hlt => Nat.ne_of_lt hlt)

theorem eq_of_id (r : Registry) {c d : Client} (hc : c ∈ r.clients) (hd : d ∈ r.clients)
    (h : c.id = d.id) : c = d :=
  List.inj_on_of_nodup_map r.ids_nodup hc hd h

theorem ext_clients {r s : Registry} (h : r.clients = s.clients) : r = s := by
  cases r
  cases s
  cases h
  rfl

theorem isAudience_iff {excluding : Option Nat} {c : Client} :
    isAudience excluding c = true ↔ c.active = true ∧ excluding ≠ some c.id := by
  simp [isAudience]

/-! ## Where a client is found -/

theorem find?_some {r : Registry} {id : Nat} {c : Client} (h : r.find? id = some c) :
    c ∈ r.clients ∧ c.id = id :=
  ⟨List.mem_of_find?_eq_some h, by simpa using List.find?_some h⟩

theorem find?_of_mem {r : Registry} {c : Client} (h : c ∈ r.clients) : r.find? c.id = some c := by
  cases hf : r.find? c.id with
  | none => exact absurd (List.find?_eq_none.1 hf c h) (by simp)
  | some d =>
    obtain ⟨hd, hid⟩ := find?_some hf
    rw [r.eq_of_id hd h hid]

theorem find?_mapClients (r : Registry) (f : Client → Client) (keeps : ∀ c, (f c).id = c.id)
    (id : Nat) : (r.mapClients f keeps).find? id = (r.find? id).map f := by
  show (r.clients.map f).find? (·.id == id) = (r.clients.find? (·.id == id)).map f
  rw [List.find?_map]
  simp only [Function.comp_def, keeps]

theorem update_update (r : Registry) (id : Nat) (f g : Client → Client)
    (hf : ∀ c, (f c).id = c.id) (hg : ∀ c, (g c).id = c.id) :
    (r.update id f hf).update id g hg =
      r.update id (fun c => g (f c)) fun c => (hg (f c)).trans (hf c) := by
  refine ext_clients ?_
  show (r.clients.map fun c => if c.id = id then f c else c).map _ = r.clients.map _
  rw [List.map_map]
  refine List.map_congr_left fun c _ => ?_
  by_cases hc : c.id = id
  · simp [hc, hf]
  · simp [hc]

theorem find?_update (r : Registry) (id : Nat) {f : Client → Client}
    (keeps : ∀ c, (f c).id = c.id) (other : Nat) :
    (r.update id f keeps).find? other =
      (r.find? other).map fun c => if c.id = id then f c else c :=
  r.find?_mapClients _ _ other

theorem find?_insertInto (c : Client) (id : Nat) (cs : List Client) :
    (insertInto c cs).find? (·.id == id) =
      if c.id = id then some c else cs.find? (·.id == id) := by
  induction cs with
  | nil => by_cases h : c.id = id <;> simp [insertInto, h]
  | cons d ds ih =>
    unfold insertInto
    split
    · by_cases h : c.id = id <;> simp [h]
    · split
      · rename_i heq
        by_cases h : c.id = id
        · simp [h]
        · simp [h, heq ▸ h]
      · rename_i hlt hne
        by_cases hd : d.id = id
        · have hc : c.id ≠ id := fun h => hne (h.trans hd.symm)
          simp [hd, hc]
        · simp [hd, ih]

theorem find?_insert (r : Registry) (c : Client) (id : Nat) :
    (r.insert c).find? id = if c.id = id then some c else r.find? id :=
  find?_insertInto c id r.clients

theorem find?_remove (r : Registry) (gone id : Nat) :
    (r.remove gone).2.find? id = if id = gone then none else r.find? id := by
  show (r.clients.filter (·.id != gone)).find? (·.id == id) = _
  rw [List.find?_filter]
  by_cases h : id = gone
  · rw [if_pos h, List.find?_eq_none]
    intro c _
    simp [h]
  · rw [if_neg h]
    refine congrArg (fun p => List.find? p r.clients) (funext fun c => ?_)
    by_cases hc : c.id = id
    · simp [hc, h]
    · simp [hc]

theorem remove_of_absent {r : Registry} {id : Nat} (h : r.find? id = none) :
    (r.remove id).2 = r := by
  refine ext_clients (List.filter_eq_self.2 fun c hc => ?_)
  simpa using List.find?_eq_none.1 h c hc

theorem update_of_absent {r : Registry} {id : Nat} (h : r.find? id = none) (f : Client → Client)
    (keeps : ∀ c, (f c).id = c.id) : r.update id f keeps = r := by
  refine ext_clients ((List.map_congr_left fun c hc => ?_).trans (List.map_id _))
  exact if_neg (by simpa using List.find?_eq_none.1 h c hc)

/-! ## Names -/

/-- Who is connected: the ids with the users they belong to. -/
def names (r : Registry) : List (Nat × String) := r.clients.map fun c => (c.id, c.user)

theorem names_mapClients (r : Registry) (f : Client → Client) (keeps : ∀ c, (f c).id = c.id)
    (hf : ∀ c, (f c).user = c.user) : (r.mapClients f keeps).names = r.names := by
  show (r.clients.map f).map _ = r.clients.map _
  simp only [List.map_map, Function.comp_def, keeps, hf]

theorem insertInto_perm {c : Client} {cs : List Client} (h : ∀ d ∈ cs, d.id ≠ c.id) :
    (insertInto c cs).Perm (c :: cs) := by
  induction cs with
  | nil => exact .refl _
  | cons d ds ih =>
    unfold insertInto
    split
    · exact .refl _
    · rw [if_neg (Ne.symm (h d List.mem_cons_self))]
      have hds := ih fun e he => h e (List.mem_cons_of_mem _ he)
      exact (hds.cons d).trans (.swap c d ds)

theorem not_contains {r : Registry} {id : Nat} (h : r.contains id = false) :
    ∀ d ∈ r.clients, d.id ≠ id := by
  intro d hd hid
  rw [contains, ← hid, find?_of_mem hd] at h
  exact absurd h (by simp)

theorem names_insert {r : Registry} {c : Client} (h : r.contains c.id = false) :
    (r.insert c).names.Perm ((c.id, c.user) :: r.names) :=
  (insertInto_perm (not_contains h)).map _

theorem names_remove (r : Registry) (gone : Nat) :
    (r.remove gone).2.names = r.names.filter (·.1 != gone) := by
  show (r.clients.filter _).map _ = (r.clients.map _).filter _
  rw [List.filter_map]
  rfl

theorem contains_iff {r : Registry} {id : Nat} :
    r.contains id = true ↔ id ∈ r.names.map Prod.fst := by
  rw [contains, Option.isSome_iff_exists, names, List.map_map]
  constructor
  · rintro ⟨c, hc⟩
    obtain ⟨hmem, rfl⟩ := find?_some hc
    exact List.mem_map_of_mem (f := Prod.fst ∘ fun c : Client => (c.id, c.user)) hmem
  · intro h
    obtain ⟨c, hc, rfl⟩ := List.mem_map.1 h
    exact ⟨c, find?_of_mem hc⟩

theorem size_eq (r : Registry) : r.size = r.names.length := (List.length_map _).symm

/-! ## The round -/

/-- Retiring ids one after the other retires whoever has one of them. -/
theorem foldl_retire (r : Registry) (ids : List Nat) :
    (ids.foldl (fun r id => (r.retire id).2) r).clients =
      r.clients.map fun c => if c.id ∈ ids then c.retire else c := by
  induction ids generalizing r with
  | nil => simp
  | cons id ids ih =>
    rw [List.foldl_cons, ih]
    show (r.clients.map fun c => if c.id = id then c.retire else c).map _ = _
    rw [List.map_map]
    refine List.map_congr_left fun c _ => ?_
    by_cases hc : c.id = id
    · by_cases hin : id ∈ ids <;>
        simp [hc, hin, Client.retire_id, Client.retire_retire]
    · simp [hc]

/-- A client is reported exactly when they were in the audience and could not take the message. -/
theorem mem_failed {r : Registry} {c : Client} (hc : c ∈ r.clients) (m : Record)
    (excluding : Option Nat) :
    c.id ∈ (r.fanOut m excluding).1.failed ↔
      isAudience excluding c = true ∧ (c.deliver m).1 = false := by
  show c.id ∈ ((r.clients.filter (isAudience excluding)).filter
    fun c => !(c.deliver m).1).map (·.id) ↔ _
  constructor
  · intro h
    obtain ⟨d, hd, hid⟩ := List.mem_map.1 h
    obtain ⟨hd, hfail⟩ := List.mem_filter.1 hd
    obtain ⟨hd, haud⟩ := List.mem_filter.1 hd
    rw [← r.eq_of_id hd hc hid]
    exact ⟨haud, by simpa using hfail⟩
  · rintro ⟨haud, hfail⟩
    exact List.mem_map.2 ⟨c, List.mem_filter.2 ⟨List.mem_filter.2 ⟨hc, haud⟩, by simp [hfail]⟩, rfl⟩

theorem failed_nodup (r : Registry) (m : Record) (excluding : Option Nat) :
    (r.fanOut m excluding).1.failed.Nodup := by
  have hascending := (r.ascending.filter (isAudience excluding)).filter fun c => !(c.deliver m).1
  exact List.pairwise_map.2 (hascending.imp fun {a b} hlt => Nat.ne_of_lt hlt)

theorem count_failed {r : Registry} {c : Client} (hc : c ∈ r.clients) (m : Record)
    (excluding : Option Nat) :
    (r.fanOut m excluding).1.failed.count c.id =
      if isAudience excluding c = true ∧ (c.deliver m).1 = false then 1 else 0 := by
  by_cases hfailed : isAudience excluding c = true ∧ (c.deliver m).1 = false
  · have hin := (mem_failed hc m excluding).2 hfailed
    rw [if_pos hfailed]
    exact List.count_eq_one_of_mem (r.failed_nodup m excluding) hin
  · rw [if_neg hfailed]
    exact List.count_eq_zero_of_not_mem fun hin => hfailed ((mem_failed hc m excluding).1 hin)

/-- Handing a message out and retiring whoever was reported is one round. -/
theorem fanOut_retire (r : Registry) (m : Record) (excluding : Option Nat) :
    (r.fanOut m excluding).1.failed.foldl (fun r id => (r.retire id).2) (r.fanOut m excluding).2 =
      r.mapClients (Client.afterRound m excluding) (Client.afterRound_id m excluding) := by
  refine ext_clients ?_
  rw [foldl_retire]
  show (r.clients.map fun c => if isAudience excluding c then (c.deliver m).2 else c).map _ =
    r.clients.map _
  rw [List.map_map]
  refine List.map_congr_left fun c hc => ?_
  have hfailed := mem_failed hc m excluding
  unfold Client.afterRound
  simp only [Function.comp_apply]
  by_cases haud : isAudience excluding c = true
  · rw [if_pos haud, if_pos haud, Client.deliver_id]
    cases htaken : (c.deliver m).1 with
    | true =>
      have hin : c.id ∉ (r.fanOut m excluding).1.failed := by
        intro h
        have hrefused := (hfailed.1 h).2
        exact absurd (htaken.symm.trans hrefused) (by simp)
      rw [if_neg hin, if_pos rfl]
    | false =>
      rw [if_pos (hfailed.2 ⟨haud, htaken⟩), Client.deliver_of_refused htaken, if_neg nofun]
  · have hin : c.id ∉ (r.fanOut m excluding).1.failed := fun h => haud (hfailed.1 h).1
    rw [if_neg haud, if_neg haud, if_neg hin]

end Registry

end ChatHub
