import ChatHub.Proofs.Roster.Rotation
import Mathlib.Data.List.Perm.Subperm
/-!
# A circle of links

Taking turns is going round in a circle: everybody knows who comes next, and the last knows the
first. `LinkedCircle` is that circle, kept the way it would be drawn: seats with a link to the next
seat, a head, and the seat whose turn is next. Nobody has a position in it. To find somebody one
walks from the head; to link a seat in or out one walks to the seat behind it.

What holds such a circle together is a chain of links (`Leads`) that comes back to where it began
(`Circular`). It can be entered anywhere (`Circular.rotate`), a walk goes once round it
(`Circular.walk_eq`), and a seat can be taken out of it (`Circular.relink_around`).
-/

namespace ChatHub

/-- A place in the circle. -/
structure Seat where
  member : Member
  /-- The seat that comes next. -/
  next : Nat
deriving Repr, DecidableEq

/-- Members in a circle. A link is a position in `seats`; a seat that no link leads to any more
stays there, and nobody comes by. -/
structure LinkedCircle where
  seats : List Seat
  head : Option Nat
  current : Option Nat
deriving Repr, DecidableEq

namespace LinkedCircle

def link? (seats : List Seat) (p : Nat) : Option Nat := seats[p]?.map (·.next)

def member? (seats : List Seat) (p : Nat) : Option Member := seats[p]?.map (·.member)

def empty : LinkedCircle := { seats := [], head := none, current := none }

/-! ## Walking -/

/-- The seats from `p` on, up to the one that links to `stop`; at most `n` of them. -/
def walk (seats : List Seat) (stop : Nat) : (n : Nat) → (p : Nat) → List Nat
  | 0, _ => []
  | n + 1, p =>
    match link? seats p with
    | none => []
    | some q => if q = stop then [p] else p :: walk seats stop n q

/-- Once round the circle, from a seat to the one that links back to it. -/
def round (c : LinkedCircle) (p : Nat) : List Nat := walk c.seats p c.seats.length p

/-- The seats in order. -/
def places (c : LinkedCircle) : List Nat :=
  match c.head with
  | none => []
  | some h => c.round h

/-- The seat that links to a seat. -/
def behind (c : LinkedCircle) (p : Nat) : Nat := (c.round p).getLastD p

/-- The seat of an id. -/
def placeOf? (c : LinkedCircle) (id : Nat) : Option Nat :=
  c.places.find? fun p => (member? c.seats p).any (·.id == id)

/-! ## What can be seen -/

/-- The members in order. -/
def members (c : LinkedCircle) : List Member := c.places.filterMap (member? c.seats)

/-- The id whose turn is next. -/
def currentId (c : LinkedCircle) : Option Nat :=
  (c.current.bind (member? c.seats)).map (·.id)

def contains (c : LinkedCircle) (id : Nat) : Bool := (c.placeOf? id).isSome

/-! ## Coming, going, and turns -/

/-- Makes the seat at `p` link to `q`. -/
def relink (seats : List Seat) (p q : Nat) : List Seat :=
  seats.modify p fun s => { s with next := q }

/-- Links a new seat in after the last. The first one links to itself. -/
def add (c : LinkedCircle) (id : Nat) (user : String) : Bool × LinkedCircle :=
  if c.contains id then (false, c)
  else
    let new := c.seats.length
    let m : Member := { id, user, lastTurn := none }
    match c.head with
    | none => (true, { seats := c.seats ++ [⟨m, new⟩], head := some new, current := some new })
    | some h => (true, { c with seats := relink c.seats (c.behind h) new ++ [⟨m, h⟩] })

/-- Links a seat out. What stood on it moves to the next seat. -/
def remove (c : LinkedCircle) (id : Nat) : Bool × LinkedCircle :=
  match c.placeOf? id with
  | none => (false, c)
  | some p =>
    match link? c.seats p with
    | none => (false, c)
    | some q =>
      if q = p then (true, { c with head := none, current := none })
      else
        (true,
          { seats := relink c.seats (c.behind p) q
            head := if c.head = some p then some q else c.head
            current := if c.current = some p then some q else c.current })

/-- Whoever has the current seat gets the turn, and the next seat is current. -/
def next (c : LinkedCircle) (now : Nat) : Option Member × LinkedCircle :=
  match c.current.bind fun p => c.seats[p]?.map (p, ·) with
  | none => (none, c)
  | some (p, s) =>
    let m := { s.member with lastTurn := some now }
    (some m, { c with seats := c.seats.set p { s with member := m }, current := some s.next })

/-- The circle after a move, and what came of it. -/
def act (c : LinkedCircle) : RosterMove → RosterAnswer × LinkedCircle
  | .add id user => (.changed (c.add id user).1, (c.add id user).2)
  | .remove id => (.changed (c.remove id).1, (c.remove id).2)
  | .next now => (.turn (c.next now).1, (c.next now).2)

theorem add_of_absent {c : LinkedCircle} {id : Nat} (user : String) (hid : c.contains id = false) :
    (c.head = none → c.add id user =
      (true, { seats := c.seats ++ [⟨⟨id, user, none⟩, c.seats.length⟩]
               head := some c.seats.length
               current := some c.seats.length })) ∧
    ∀ h, c.head = some h → c.add id user =
      (true, { c with
        seats := relink c.seats (c.behind h) c.seats.length ++ [⟨⟨id, user, none⟩, h⟩] }) := by
  constructor
  · intro hhead
    simp only [add, hid, hhead, Bool.false_eq_true, if_false]
  · intro h hhead
    simp only [add, hid, hhead, Bool.false_eq_true, if_false]

theorem remove_of_present {c : LinkedCircle} {id p q : Nat} (hid : c.placeOf? id = some p)
    (hlink : link? c.seats p = some q) :
    c.remove id =
      (true,
        if q = p then { c with head := none, current := none }
        else
          { seats := relink c.seats (c.behind p) q
            head := if c.head = some p then some q else c.head
            current := if c.current = some p then some q else c.current }) := by
  simp only [remove, hid, hlink]
  split <;> rfl

def run (c : LinkedCircle) : List RosterMove → LinkedCircle
  | [] => c
  | μ :: μs => (c.act μ).2.run μs

/-- What came of every move of a run. -/
def answers (c : LinkedCircle) : List RosterMove → List RosterAnswer
  | [] => []
  | μ :: μs => (c.act μ).1 :: (c.act μ).2.answers μs

end LinkedCircle

/-! ## Chains of links -/

open LinkedCircle (link? member? relink walk)

/-- The links lead from `p` through the seats `ps` to `stop`. -/
def Leads (seats : List Seat) (stop : Nat) : Nat → List Nat → Prop
  | p, [] => p = stop
  | p, q :: qs => p = q ∧ ∃ next, link? seats q = some next ∧ Leads seats stop next qs

/-- The links lead from the first of the seats `ps` through all of them back to the first. -/
def Circular (seats : List Seat) (ps : List Nat) : Prop := ∃ p, Leads seats p p ps

namespace Leads

variable {seats seats' : List Seat} {stop p t : Nat} {ps xs ys : List Nat}

theorem append_iff :
    Leads seats stop p (xs ++ ys) ↔ ∃ mid, Leads seats mid p xs ∧ Leads seats stop mid ys := by
  induction xs generalizing p with
  | nil => simp [Leads]
  | cons x xs ih =>
    constructor
    · rintro ⟨rfl, next, hlink, hrest⟩
      obtain ⟨mid, hxs, hys⟩ := ih.mp hrest
      exact ⟨mid, ⟨rfl, next, hlink, hxs⟩, hys⟩
    · rintro ⟨mid, ⟨rfl, next, hlink, hxs⟩, hys⟩
      exact ⟨rfl, next, hlink, ih.mpr ⟨mid, hxs, hys⟩⟩

theorem congr (hseats : ∀ q ∈ ps, link? seats' q = link? seats q) (h : Leads seats stop p ps) :
    Leads seats' stop p ps := by
  induction ps generalizing p with
  | nil => exact h
  | cons q qs ih =>
    obtain ⟨rfl, next, hlink, hrest⟩ := h
    refine ⟨rfl, next, ?_, ih (fun x hx => hseats x (List.mem_cons_of_mem _ hx)) hrest⟩
    rw [hseats p List.mem_cons_self, hlink]

theorem lt_length (h : Leads seats stop p ps) : ∀ q ∈ ps, q < seats.length := by
  induction ps generalizing p with
  | nil => simp
  | cons q qs ih =>
    obtain ⟨rfl, next, hlink, hrest⟩ := h
    intro x hx
    rcases List.mem_cons.mp hx with rfl | hx
    · obtain ⟨s, hs, -⟩ := Option.map_eq_some_iff.mp hlink
      exact (List.getElem?_eq_some_iff.mp hs).1
    · exact ih hrest x hx

theorem start (h : Leads seats stop p ps) (hne : ps ≠ []) : ps.head? = some p := by
  cases ps with
  | nil => exact absurd rfl hne
  | cons q qs => rw [h.1, List.head?_cons]

theorem walk_eq {n : Nat} (h : Leads seats stop p ps) (hne : ps ≠ []) (hstop : stop ∉ ps.tail)
    (hn : ps.length ≤ n) : walk seats stop n p = ps := by
  induction ps generalizing p n with
  | nil => exact absurd rfl hne
  | cons q qs ih =>
    obtain ⟨rfl, next, hlink, hrest⟩ := h
    obtain ⟨n, rfl⟩ : ∃ k, n = k + 1 := ⟨n - 1, by simp at hn; omega⟩
    rw [LinkedCircle.walk, hlink]
    -- The links come back to `stop` behind the last seat and not before.
    by_cases hqs : qs = []
    · subst hqs
      exact if_pos hrest
    · have hnext : next ≠ stop := by
        intro he
        exact hstop (he ▸ List.mem_of_mem_head? (hrest.start hqs))
      have hwalk : walk seats stop n next = qs :=
        ih hrest hqs (fun hm => hstop (List.mem_of_mem_tail hm)) (Nat.le_of_succ_le_succ hn)
      simp only [if_neg hnext, hwalk]

end Leads

theorem link?_relink (seats : List Seat) (t q p : Nat) :
    link? (relink seats t q) p
      = if t = p then (link? seats p).map fun _ => q else link? seats p := by
  rw [link?, LinkedCircle.relink, List.getElem?_modify]
  by_cases h : t = p
  · simp [link?, h, Function.comp_def]
  · simp [link?, h]

theorem member?_relink (seats : List Seat) (t q p : Nat) :
    member? (relink seats t q) p = member? seats p := by
  rw [member?, LinkedCircle.relink, List.getElem?_modify]
  by_cases h : t = p
  · simp [member?, h, Function.comp_def]
  · simp [member?, h]

theorem link?_append {seats : List Seat} {p : Nat} (s : Seat) (hp : p < seats.length) :
    link? (seats ++ [s]) p = link? seats p := by
  rw [link?, link?, List.getElem?_append_left hp]

theorem member?_append {seats : List Seat} {p : Nat} (s : Seat) (hp : p < seats.length) :
    member? (seats ++ [s]) p = member? seats p := by
  rw [member?, member?, List.getElem?_append_left hp]

theorem link?_concat {seats : List Seat} {n : Nat} (s : Seat) (hn : seats.length = n) :
    link? (seats ++ [s]) n = some s.next := by
  rw [← hn, link?, List.getElem?_concat_length, Option.map_some]

theorem member?_concat {seats : List Seat} {n : Nat} (s : Seat) (hn : seats.length = n) :
    member? (seats ++ [s]) n = some s.member := by
  rw [← hn, member?, List.getElem?_concat_length, Option.map_some]

/-- The last of a chain can be linked to somewhere else. -/
theorem Leads.relink_last {seats : List Seat} {stop p t q : Nat} {xs : List Nat}
    (h : Leads seats stop p (xs ++ [t])) (ht : t ∉ xs) :
    Leads (relink seats t q) q p (xs ++ [t]) := by
  obtain ⟨mid, hxs, rfl, next, hlink, -⟩ := Leads.append_iff.mp h
  refine Leads.append_iff.mpr ⟨mid, hxs.congr fun x hx => ?_, rfl, q, ?_, rfl⟩
  · have hne : mid ≠ x := fun he => ht (he ▸ hx)
    rw [link?_relink, if_neg hne]
  · rw [link?_relink, if_pos rfl, hlink]
    rfl

namespace Circular

variable {seats : List Seat} {ps xs ys : List Nat} {p : Nat}

theorem rotate (h : Circular seats (xs ++ ys)) : Circular seats (ys ++ xs) := by
  obtain ⟨p, h⟩ := h
  obtain ⟨mid, hxs, hys⟩ := Leads.append_iff.mp h
  exact ⟨mid, Leads.append_iff.mpr ⟨p, hys, hxs⟩⟩

theorem leads (h : Circular seats (p :: ps)) : Leads seats p p (p :: ps) := by
  obtain ⟨q, h⟩ := h
  exact h.1 ▸ h

/-- A walk from any seat of a circle goes once round. -/
theorem walk_eq {n : Nat} (h : Circular seats (xs ++ p :: ys)) (hnodup : (xs ++ p :: ys).Nodup)
    (hn : seats.length ≤ n) : walk seats p n p = p :: (ys ++ xs) := by
  have hperm : (p :: ys ++ xs).Perm (xs ++ p :: ys) := List.perm_append_comm
  have hnodup' : (p :: (ys ++ xs)).Nodup := hperm.nodup_iff.mpr hnodup
  have hleads : Leads seats p p (p :: (ys ++ xs)) := h.rotate.leads
  -- Seats that are all different are no more than there are.
  have hlen : (p :: (ys ++ xs)).length ≤ seats.length := by
    have hsub : (p :: (ys ++ xs)) ⊆ List.range seats.length := fun q hq =>
      List.mem_range.mpr (hleads.lt_length q hq)
    simpa using (hnodup'.subperm hsub).length_le
  exact hleads.walk_eq (by simp) (List.nodup_cons.mp hnodup').1 (Nat.le_trans hlen hn)

/-- The seat after `p`: the one behind it in the list, or the first if `p` is the last. -/
theorem link?_eq (h : Circular seats (xs ++ p :: ys)) :
    link? seats p = (ys ++ xs ++ [p]).head? := by
  obtain ⟨-, next, hlink, hrest⟩ := h.rotate.leads
  rw [hlink]
  cases hl : ys ++ xs with
  | nil =>
    obtain rfl : next = p := (hl ▸ hrest : Leads seats p next [])
    rfl
  | cons q qs =>
    obtain rfl : next = q := (hl ▸ hrest : Leads seats p next (q :: qs)).1
    rfl

/-- A seat is linked out: the seat behind it is linked to the seat after it. -/
theorem relink_around {q t : Nat} {zs : List Nat} (h : Circular seats (xs ++ p :: ys))
    (hlink : link? seats p = some q) (hlast : ys ++ xs = zs ++ [t]) (ht : t ∉ zs) :
    Circular (relink seats t q) (xs ++ ys) := by
  obtain ⟨-, next, hnext, hrest⟩ := h.rotate.leads
  obtain rfl : next = q := Option.some.inj (hnext.symm.trans hlink)
  have hround : Leads seats p next (zs ++ [t]) := hlast ▸ hrest
  have hclosed : Circular (relink seats t next) (ys ++ xs) :=
    hlast ▸ ⟨next, hround.relink_last ht⟩
  exact hclosed.rotate

end Circular

end ChatHub
