import ChatHub.Proofs.Roster.Links
/-!
# The rotation goes round in a circle

A roster takes turns with a list and a cursor that is moved by arithmetic. A circle of links does it
by following links. `Depicts` says which circle belongs to which roster; every move keeps the two
together (`Depicts.act`), and so nobody who only asks can tell them apart: `run_eq_circle`.

The arithmetic could go wrong in two ways: the cursor could point at nobody, and a remainder could
be taken by zero. `Roster.act?` is a roster that stops there, and it never does.
-/

namespace ChatHub

open LinkedCircle (link? member? relink)

/-- What came of every move of a run. -/
def Roster.answers (r : Roster) : List RosterMove → List RosterAnswer
  | [] => []
  | μ :: μs => (r.act μ).1 :: (r.act μ).2.answers μs

/-! ## The circle of a roster -/

/-- The circle `c`, whose seats in order are `ps`, is the roster `r`. -/
structure Depicts (c : LinkedCircle) (r : Roster) (ps : List Nat) : Prop where
  sound : r.Sound
  nodup : ps.Nodup
  circular : Circular c.seats ps
  head : c.head = ps.head?
  members : ps.map (member? c.seats) = r.members.map some
  current : c.current = r.cursor.bind (ps[·]?)

/-- Turning a list in two parts brings what stands at the cut to its head. -/
theorem getElem?_cut (xs ys : List Nat) :
    (xs ++ ys)[xs.length % (xs ++ ys).length]? = (ys ++ xs).head? := by
  cases ys with
  | nil => simp [List.head?_eq_getElem?]
  | cons y ys =>
    have hlt : xs.length < (xs ++ y :: ys).length := by simp
    rw [Nat.mod_eq_of_lt hlt, List.getElem?_append_right (Nat.le_refl _)]
    simp

theorem notMem_of_nodup {xs ys : List Nat} {p : Nat} (h : (xs ++ p :: ys).Nodup) : p ∉ xs ++ ys :=
  (List.nodup_cons.mp (List.nodup_middle.mp h)).1

namespace Depicts

variable {c : LinkedCircle} {r : Roster} {ps : List Nat}

theorem empty : Depicts LinkedCircle.empty Roster.empty [] :=
  ⟨Roster.Sound.empty, List.nodup_nil, ⟨0, rfl⟩, rfl, rfl, rfl⟩

theorem round_eq {xs ys : List Nat} {p : Nat} (h : Depicts c r (xs ++ p :: ys)) :
    c.round p = p :: (ys ++ xs) := h.circular.walk_eq h.nodup (Nat.le_refl _)

theorem places_eq (h : Depicts c r ps) : c.places = ps := by
  rw [LinkedCircle.places, h.head]
  cases ps with
  | nil => rfl
  | cons p ps =>
    have hround : c.round p = p :: (ps ++ []) := round_eq h
    rwa [List.append_nil] at hround

theorem length_eq (h : Depicts c r ps) : ps.length = r.members.length := by
  simpa using congrArg List.length h.members

theorem getElem?_members (h : Depicts c r ps) (i : Nat) :
    ps[i]?.bind (member? c.seats) = r.members[i]? := by
  have hi := congrArg (·[i]?) h.members
  simp only [List.getElem?_map] at hi
  cases hp : ps[i]? with
  | none =>
    rw [hp] at hi
    exact (Option.map_eq_none_iff.mp hi.symm).symm
  | some p =>
    cases hm : r.members[i]? with
    | none => simp [hp, hm] at hi
    | some m => simpa [hp, hm] using hi

theorem members_eq (h : Depicts c r ps) : c.members = r.members := by
  calc c.members = (ps.map (member? c.seats)).filterMap id := by
        rw [LinkedCircle.members, h.places_eq, List.filterMap_map]
        rfl
    _ = r.members := by rw [h.members, List.filterMap_map, Function.id_comp, List.filterMap_some]

theorem currentId_eq (h : Depicts c r ps) : c.currentId = r.current := by
  rw [LinkedCircle.currentId, h.current, Roster.current]
  cases r.cursor with
  | none => rfl
  | some i =>
    simp only [Option.bind_some]
    rw [h.getElem?_members]

/-- A splitting of the members splits the seats. -/
theorem split {xs ys : List Member} {m : Member} (h : Depicts c r ps)
    (hm : r.members = xs ++ m :: ys) :
    ∃ as p bs, ps = as ++ p :: bs ∧ as.map (member? c.seats) = xs.map some ∧
      member? c.seats p = some m ∧ bs.map (member? c.seats) = ys.map some := by
  have hmap := h.members
  rw [hm, List.map_append, List.map_cons] at hmap
  obtain ⟨as, rest, rfl, has, hrest⟩ := List.map_eq_append_iff.mp hmap
  obtain ⟨p, bs, rfl, hp, hbs⟩ := List.map_eq_cons_iff.mp hrest
  exact ⟨as, p, bs, rfl, has, hp, hbs⟩

theorem exists_member {as : List Nat} {xs : List Member} {a : Nat}
    (has : as.map (member? c.seats) = xs.map some) (ha : a ∈ as) :
    ∃ m ∈ xs, member? c.seats a = some m := by
  have hmem : member? c.seats a ∈ xs.map some := has ▸ List.mem_map_of_mem ha
  obtain ⟨m, hm, heq⟩ := List.mem_map.mp hmem
  exact ⟨m, hm, heq.symm⟩

theorem placeOf?_of_absent {id : Nat} (h : Depicts c r ps) (hid : id ∉ r.ids) :
    c.placeOf? id = none := by
  rw [LinkedCircle.placeOf?, h.places_eq, List.find?_eq_none]
  intro p hp
  obtain ⟨m, hm, hmem⟩ := exists_member h.members hp
  have hne : m.id ≠ id := fun he => hid (List.mem_map.mpr ⟨m, hm, he⟩)
  simp [hmem, hne]

theorem placeOf?_of_split {as bs : List Nat} {xs ys : List Member} {p : Nat} {m : Member}
    (h : Depicts c r (as ++ p :: bs)) (hm : r.members = xs ++ m :: ys)
    (has : as.map (member? c.seats) = xs.map some) (hp : member? c.seats p = some m) :
    c.placeOf? m.id = some p := by
  have hu := h.sound.unique
  rw [Roster.ids, hm, List.map_append, List.nodup_append] at hu
  have hnone : as.find? (fun a => (member? c.seats a).any (·.id == m.id)) = none := by
    rw [List.find?_eq_none]
    intro a ha
    obtain ⟨x, hx, hmem⟩ := exists_member has ha
    have hne : x.id ≠ m.id := hu.2.2 _ (List.mem_map_of_mem hx) _ (by simp)
    simp [hmem, hne]
  rw [LinkedCircle.placeOf?, h.places_eq, List.find?_append, hnone]
  simp [hp]

theorem contains_eq (h : Depicts c r ps) (id : Nat) : c.contains id = r.contains id := by
  by_cases hid : id ∈ r.ids
  · obtain ⟨xs, m, ys, hm, rfl⟩ := Roster.exists_split_of_mem hid
    obtain ⟨as, p, bs, rfl, has, hp, -⟩ := h.split hm
    rw [LinkedCircle.contains, h.placeOf?_of_split hm has hp, Roster.contains_iff.mpr hid]
    rfl
  · have hfalse : r.contains id = false :=
      Bool.eq_false_iff.mpr fun ht => hid (Roster.contains_iff.mp ht)
    rw [LinkedCircle.contains, h.placeOf?_of_absent hid, hfalse]
    rfl

theorem lt_length (h : Depicts c r ps) : ∀ p ∈ ps, p < c.seats.length := by
  obtain ⟨_, hleads⟩ := h.circular
  exact hleads.lt_length

/-! ## Arrivals -/

theorem first (seats : List Seat) {m : Member} (hsound : Roster.Sound ⟨[m], some 0⟩) :
    Depicts ⟨seats ++ [⟨m, seats.length⟩], some seats.length, some seats.length⟩ ⟨[m], some 0⟩
      [seats.length] := by
  refine ⟨hsound, List.nodup_singleton _, ⟨_, rfl, _, link?_concat _ rfl, rfl⟩, rfl, ?_, rfl⟩
  rw [List.map_singleton, member?_concat _ rfl]
  rfl

theorem linkedIn {h₀ t : Nat} {zs : List Nat} {m : Member} {r' : Roster}
    (h : Depicts c r (zs ++ [t])) (hhead : c.head = some h₀) (hsound : r'.Sound)
    (hm : r'.members = r.members ++ [m])
    (hc : r'.cursor = r.cursor) :
    Depicts { c with seats := relink c.seats t c.seats.length ++ [⟨m, h₀⟩] } r'
      (zs ++ [t] ++ [c.seats.length]) := by
  have hlen : (relink c.seats t c.seats.length).length = c.seats.length :=
    List.length_modify ..
  have hlt : ∀ p ∈ zs ++ [t], p < (relink c.seats t c.seats.length).length := by
    rw [hlen]
    exact h.lt_length
  refine ⟨hsound, ?_, ?_, ?_, ?_, ?_⟩
  · rw [← List.concat_eq_append]
    exact h.nodup.concat fun hmem => Nat.lt_irrefl _ (h.lt_length _ hmem)
  · -- The chain to the last seat goes on to the new one, and from there to the head.
    have hfrom : Leads c.seats h₀ h₀ (zs ++ [t]) := by
      obtain ⟨p, hleads⟩ := h.circular
      have hstart := hleads.start (by simp)
      rw [← h.head, hhead] at hstart
      exact Option.some.inj hstart ▸ hleads
    have ht : t ∉ zs := by simpa using notMem_of_nodup h.nodup
    refine ⟨h₀, Leads.append_iff.mpr ⟨c.seats.length, ?_, rfl, h₀, ?_, rfl⟩⟩
    · exact (hfrom.relink_last ht).congr fun q hq => link?_append _ (hlt q hq)
    · exact link?_concat _ hlen
  · rw [hhead, List.head?_append, ← h.head, hhead]
    rfl
  · have hold : ∀ p ∈ zs ++ [t], member? (relink c.seats t c.seats.length
        ++ [⟨m, h₀⟩]) p = member? c.seats p := fun p hp => by
      rw [member?_append _ (hlt p hp), member?_relink]
    have hnew : member? (relink c.seats t c.seats.length ++ [⟨m, h₀⟩])
        c.seats.length = some m := member?_concat _ hlen
    rw [List.map_append, List.map_congr_left hold, h.members, hm, List.map_append,
      List.map_singleton, List.map_singleton, hnew]
  · show c.current = _
    rw [h.current, hc]
    rcases h.sound.cursor with ⟨-, hnone⟩ | ⟨k, hk, hsome⟩
    · rw [hnone]
      rfl
    · have hk' : k < (zs ++ [t]).length := h.length_eq ▸ hk
      rw [hsome, Option.bind_some, Option.bind_some, List.getElem?_append_left hk']

theorem eq_empty (h : Depicts c r []) : r = Roster.empty := by
  obtain ⟨ms, cursor⟩ := r
  obtain rfl : ms = [] := List.eq_nil_of_length_eq_zero h.length_eq.symm
  rcases h.sound.cursor with ⟨-, rfl⟩ | ⟨k, hk, -⟩
  · rfl
  · exact absurd hk (Nat.not_lt_zero k)

theorem exists_cursor (h : Depicts c r ps) (hne : ps ≠ []) : ∃ k, r.cursor = some k := by
  rcases h.sound.cursor with ⟨hnil, -⟩ | ⟨k, -, hc⟩
  · exact absurd (List.eq_nil_of_length_eq_zero (h.length_eq.trans (by simp [hnil]))) hne
  · exact ⟨k, hc⟩

theorem behind_head {h₀ t : Nat} {zs : List Nat} (h : Depicts c r (zs ++ [t]))
    (hhead : c.head = some h₀) : c.behind h₀ = t := by
  have hplaces := h.places_eq
  rw [LinkedCircle.places, hhead] at hplaces
  have hround : c.round h₀ = zs ++ [t] := hplaces
  rw [LinkedCircle.behind, hround, List.getLastD_concat]

theorem add (h : Depicts c r ps) (id : Nat) (user : String) :
    (c.add id user).1 = (r.add id user).1 ∧
      ∃ ps', Depicts (c.add id user).2 (r.add id user).2 ps' := by
  by_cases hid : id ∈ r.ids
  · rw [Roster.add_of_present hid, LinkedCircle.add, h.contains_eq, Roster.contains_iff.mpr hid]
    exact ⟨rfl, ps, h⟩
  · have hsound := h.sound.add id user
    have hnot : c.contains id = false := by
      rw [h.contains_eq, Bool.eq_false_iff, ne_eq, Roster.contains_iff]
      exact hid
    obtain ⟨hfirst, hmore⟩ := LinkedCircle.add_of_absent user hnot
    rw [Roster.add_of_absent hid] at hsound ⊢
    rcases List.eq_nil_or_concat ps with rfl | ⟨zs, t, rfl⟩
    · obtain rfl := h.eq_empty
      rw [hfirst h.head]
      exact ⟨rfl, _, Depicts.first c.seats hsound⟩
    · rw [List.concat_eq_append] at h
      obtain ⟨h₀, hhead⟩ : ∃ h₀, c.head = some h₀ := by
        rw [h.head]
        exact Option.isSome_iff_exists.mp (by simp)
      obtain ⟨k, hk⟩ := h.exists_cursor (by simp)
      have hcursor : some (r.cursor.getD 0) = r.cursor := by rw [hk, Option.getD_some]
      rw [hmore h₀ hhead, h.behind_head hhead]
      exact ⟨rfl, _, h.linkedIn hhead hsound rfl hcursor⟩

/-! ## Departures -/

theorem link?_eq {xs ys : List Nat} {p : Nat} (h : Depicts c r (xs ++ p :: ys)) :
    link? c.seats p = (ys ++ xs ++ [p]).head? := h.circular.link?_eq

/-- Where the cursor is after a departure, and where the current seat is. -/
theorem current_of_remove {as bs : List Nat} {p q : Nat} (h : Depicts c r (as ++ p :: bs))
    (hrest : (as ++ bs).length ≠ 0) (hnext : (bs ++ as).head? = some q) :
    (if c.current = some p then some q else c.current)
      = (Roster.cursorAfter as.length (as ++ bs).length r.cursor).bind ((as ++ bs)[·]?) := by
  have herase : as ++ bs = (as ++ p :: bs).eraseIdx as.length := by
    rw [List.eraseIdx_append_of_length_le (Nat.le_refl _), Nat.sub_self]
    rfl
  have hp : (as ++ p :: bs)[as.length]? = some p := by simp
  rw [h.current]
  cases hc : r.cursor with
  | none => simp [Roster.cursorAfter]
  | some k =>
    simp only [Roster.cursorAfter, if_neg hrest, Option.bind_some]
    by_cases hk : k = as.length
    · -- The current seat is linked out, and its successor is where the list was cut.
      subst hk
      rw [if_pos hp, if_pos rfl, ← hnext, ← getElem?_cut, Option.bind_some]
    · -- Nobody else has the seat that is linked out.
      have hne : ¬ (as ++ p :: bs)[k]? = some p := by
        intro he
        obtain ⟨hlt, hget⟩ := List.getElem?_eq_some_iff.mp he
        obtain ⟨hlt', hget'⟩ := List.getElem?_eq_some_iff.mp hp
        exact hk ((h.nodup.getElem_inj_iff).mp (hget.trans hget'.symm))
      rw [if_neg hne, if_neg hk]
      -- A cursor behind the gap moves up by one, a cursor before it stays.
      by_cases hlt : as.length < k
      · rw [if_pos hlt, Option.bind_some, herase, List.getElem?_eraseIdx, if_neg (by omega),
          Nat.sub_add_cancel (by omega)]
      · rw [if_neg hlt, Option.bind_some, herase, List.getElem?_eraseIdx, if_pos (by omega)]

theorem linkedOut {as bs : List Nat} {xs ys : List Member} {p q : Nat} {r' : Roster}
    (h : Depicts c r (as ++ p :: bs)) (hne : bs ++ as ≠ []) (hlink : link? c.seats p = some q)
    (hmembers : (as ++ bs).map (member? c.seats) = (xs ++ ys).map some)
    (hsound : r'.Sound) (hm : r'.members = xs ++ ys)
    (hc : r'.cursor = Roster.cursorAfter as.length (as ++ bs).length r.cursor) :
    Depicts
      { seats := relink c.seats (c.behind p) q
        head := if c.head = some p then some q else c.head
        current := if c.current = some p then some q else c.current }
      r' (as ++ bs) := by
  have hnext : (bs ++ as).head? = some q := by
    rw [h.link?_eq, List.head?_append_of_ne_nil _ hne] at hlink
    exact hlink
  obtain ⟨zs, t, hlast⟩ : ∃ zs t, bs ++ as = zs ++ [t] :=
    ⟨_, _, (List.dropLast_append_getLast hne).symm⟩
  have hbehind : c.behind p = t := by
    rw [LinkedCircle.behind, h.round_eq, hlast, ← List.cons_append, List.getLastD_concat]
  have hnodup : (as ++ bs).Nodup := h.nodup.sublist ((List.sublist_cons_self p bs).append_left as)
  have ht : t ∉ zs := by
    have hz : (zs ++ [t]).Nodup := hlast ▸ List.nodup_append_comm.mp hnodup
    simpa using notMem_of_nodup hz
  refine ⟨hsound, hnodup, ?_, ?_, ?_, ?_⟩
  · rw [hbehind]
    exact h.circular.relink_around hlink hlast ht
  · show (if c.head = some p then some q else c.head) = (as ++ bs).head?
    rw [h.head]
    cases as with
    | nil => simpa using hnext.symm
    | cons a as =>
      have hap : a ≠ p := by
        rintro rfl
        simpa using h.nodup
      simp [hap]
  · rw [hm, ← hmembers]
    exact List.map_congr_left fun x _ => member?_relink ..
  · show (if c.current = some p then some q else c.current) = _
    rw [hc, ← h.current_of_remove _ hnext]
    simpa [and_comm] using hne

theorem remove (h : Depicts c r ps) (id : Nat) :
    (c.remove id).1 = (r.remove id).1 ∧ ∃ ps', Depicts (c.remove id).2 (r.remove id).2 ps' := by
  by_cases hid : id ∈ r.ids
  · obtain ⟨xs, m, ys, hm, rfl⟩ := Roster.exists_split_of_mem hid
    obtain ⟨as, p, bs, rfl, has, hp, hbs⟩ := h.split hm
    have hsound := h.sound.remove m.id
    have hxs : xs.length = as.length := by simpa using congrArg List.length has.symm
    have hys : ys.length = bs.length := by simpa using congrArg List.length hbs.symm
    rw [Roster.remove_of_split h.sound hm] at hsound ⊢
    obtain ⟨q, hq⟩ : ∃ q, (bs ++ as ++ [p]).head? = some q :=
      Option.isSome_iff_exists.mp (by simp)
    have hlink := h.link?_eq.trans hq
    rw [LinkedCircle.remove_of_present (h.placeOf?_of_split hm has hp) hlink]
    refine ⟨rfl, ?_⟩
    by_cases hne : bs ++ as = []
    · -- Nobody is left: the seat linked to itself.
      obtain ⟨rfl, rfl⟩ := List.append_eq_nil_iff.mp hne
      obtain rfl : p = q := by simpa using hq
      obtain rfl : xs = [] := List.eq_nil_of_length_eq_zero hxs
      obtain rfl : ys = [] := List.eq_nil_of_length_eq_zero hys
      rw [if_pos rfl]
      exact ⟨[], hsound, List.nodup_nil, ⟨0, rfl⟩, rfl, rfl, rfl⟩
    · have hqp : q ≠ p := by
        rw [List.head?_append_of_ne_nil _ hne] at hq
        rintro rfl
        have hmem : q ∈ bs ++ as := List.mem_of_mem_head? hq
        exact notMem_of_nodup h.nodup (List.perm_append_comm.mem_iff.mp hmem)
      rw [if_neg hqp]
      refine ⟨_, h.linkedOut hne hlink ?_ hsound rfl ?_⟩
      · rw [List.map_append, has, hbs, List.map_append]
      · simp only [hxs, hys, List.length_append]
  · rw [Roster.remove_of_absent hid, LinkedCircle.remove, h.placeOf?_of_absent hid]
    exact ⟨rfl, ps, h⟩

/-! ## Turns -/

/-- Whoever has a seat stays on it when the member there is stamped. -/
theorem stamped {as bs : List Nat} {front back : List Member} {p : Nat} {m : Member} {s : Seat}
    {r' : Roster} (h : Depicts c r (as ++ p :: bs)) (hs : c.seats[p]? = some s)
    (has : as.map (member? c.seats) = front.map some)
    (hbs : bs.map (member? c.seats) = back.map some)
    (hsound : r'.Sound) (hm : r'.members = front ++ m :: back)
    (hc : r'.cursor = some ((as.length + 1) % (as ++ p :: bs).length)) :
    Depicts { c with seats := c.seats.set p { s with member := m }, current := some s.next } r'
      (as ++ p :: bs) := by
  obtain ⟨hlt, -⟩ := List.getElem?_eq_some_iff.mp hs
  have hother : ∀ q, p ≠ q → (c.seats.set p { s with member := m })[q]? = c.seats[q]? :=
    fun q hne => List.getElem?_set_ne hne
  have hself : (c.seats.set p { s with member := m })[p]? = some { s with member := m } :=
    List.getElem?_set_self hlt
  have hkeep : ∀ q ∈ as ++ bs, member? (c.seats.set p { s with member := m }) q
      = member? c.seats q := by
    intro q hq
    have hne : p ≠ q := fun he => notMem_of_nodup h.nodup (he ▸ hq)
    rw [member?, member?, hother q hne]
  refine ⟨hsound, h.nodup, ?_, h.head, ?_, ?_⟩
  · obtain ⟨start, hleads⟩ := h.circular
    refine ⟨start, hleads.congr fun q _ => ?_⟩
    by_cases hne : p = q
    · subst hne
      rw [link?, link?, hself, hs]
      rfl
    · rw [link?, link?, hother q hne]
  · have hnew : member? (c.seats.set p { s with member := m }) p = some m := by
      rw [member?, hself]
      rfl
    rw [List.map_append, List.map_cons, hnew, hm, List.map_append, List.map_cons,
      List.map_congr_left fun q hq => hkeep q (List.mem_append_left bs hq),
      List.map_congr_left fun q hq => hkeep q (List.mem_append_right as hq), has, hbs]
  · have hlink : link? c.seats p = some s.next := by
      rw [link?, hs]
      rfl
    have hcut := getElem?_cut (as ++ [p]) bs
    rw [List.length_append, List.length_singleton, ← List.append_assoc, ← h.link?_eq, hlink,
      List.append_assoc, List.singleton_append] at hcut
    show some s.next = _
    rw [hc, Option.bind_some, hcut]

theorem next (h : Depicts c r ps) (now : Nat) :
    (c.next now).1 = (r.next now).1 ∧ ∃ ps', Depicts (c.next now).2 (r.next now).2 ps' := by
  have hsound := h.sound.next now
  rcases h.sound.split with ⟨-, hc⟩ | ⟨front, m, back, hm, hc⟩
  · have hcurrent : c.current = none := by rw [h.current, hc]; rfl
    rw [Roster.next_of_nobody hc, LinkedCircle.next, hcurrent]
    exact ⟨rfl, ps, h⟩
  · obtain ⟨as, p, bs, rfl, has, hp, hbs⟩ := h.split hm
    have hfront : front.length = as.length := by simpa using congrArg List.length has.symm
    obtain ⟨s, hs, rfl⟩ := Option.map_eq_some_iff.mp hp
    have hcurrent : c.current = some p := by
      rw [h.current, hc, Option.bind_some, hfront]
      simp
    rw [Roster.next_of_split hm hc] at hsound ⊢
    simp only [LinkedCircle.next, hcurrent, hs, Option.bind_some, Option.map_some, true_and]
    refine ⟨_, h.stamped hs has hbs hsound rfl ?_⟩
    rw [h.length_eq, hfront]

/-! ## Runs -/

theorem act (h : Depicts c r ps) (μ : RosterMove) :
    (c.act μ).1 = (r.act μ).1 ∧ ∃ ps', Depicts (c.act μ).2 (r.act μ).2 ps' := by
  cases μ with
  | add id user =>
    obtain ⟨hanswer, hsame⟩ := h.add id user
    exact ⟨congrArg RosterAnswer.changed hanswer, hsame⟩
  | remove id =>
    obtain ⟨hanswer, hsame⟩ := h.remove id
    exact ⟨congrArg RosterAnswer.changed hanswer, hsame⟩
  | next now =>
    obtain ⟨hanswer, hsame⟩ := h.next now
    exact ⟨congrArg RosterAnswer.turn hanswer, hsame⟩

theorem run (h : Depicts c r ps) (μs : List RosterMove) :
    c.answers μs = r.answers μs ∧ ∃ ps', Depicts (c.run μs) (r.run μs) ps' := by
  induction μs generalizing c r ps with
  | nil => exact ⟨rfl, ps, h⟩
  | cons μ μs ih =>
    obtain ⟨hanswer, ps', hsame⟩ := h.act μ
    obtain ⟨hanswers, hlast⟩ := ih hsame
    exact ⟨congrArg₂ List.cons hanswer hanswers, hlast⟩

end Depicts

/-! ## What cannot fail -/

namespace Roster

/-- A remainder. There is none by zero. -/
def remainder? (a b : Nat) : Option Nat := if b = 0 then none else some (a % b)

/-- A turn that takes nothing for granted: `none` where the cursor points at nobody although
somebody is there, and where a remainder by zero is asked for. -/
def next? (r : Roster) (now : Nat) : Option (Option Member × Roster) :=
  match r.cursor with
  | none => if r.members.isEmpty then some (none, r) else none
  | some c => do
    let m ← r.members[c]?
    let cursor ← remainder? (c + 1) r.members.length
    let m := { m with lastTurn := some now }
    return (some m, { members := r.members.set c m, cursor := some cursor })

/-- Where the cursor stands after a departure; `none` where a remainder by zero is asked for. -/
def cursorAfter? (gone len : Nat) (cursor : Option Nat) : Option (Option Nat) :=
  if len = 0 then some none
  else
    match cursor with
    | none => some none
    | some c =>
      if c = gone then (remainder? gone len).map some
      else if gone < c then some (some (c - 1))
      else some (some c)

/-- A departure that takes nothing for granted. -/
def remove? (r : Roster) (id : Nat) : Option (Bool × Roster) :=
  match r.position? id with
  | none => some (false, r)
  | some i =>
    let members := r.members.eraseIdx i
    (cursorAfter? i members.length r.cursor).map fun cursor => (true, { members, cursor })

def act? (r : Roster) : RosterMove → Option (RosterAnswer × Roster)
  | .add id user => some (.changed (r.add id user).1, (r.add id user).2)
  | .remove id => (r.remove? id).map fun out => (.changed out.1, out.2)
  | .next now => (r.next? now).map fun out => (.turn out.1, out.2)

theorem cursorAfter?_eq (gone len : Nat) (cursor : Option Nat) :
    cursorAfter? gone len cursor = some (cursorAfter gone len cursor) := by
  unfold cursorAfter? cursorAfter remainder?
  split
  · rfl
  · cases cursor with
    | none => rfl
    | some c =>
      simp only [Option.map_some]
      split
      · rfl
      · split <;> rfl

theorem remove?_eq (r : Roster) (id : Nat) : r.remove? id = some (r.remove id) := by
  unfold remove? remove
  cases r.position? id with
  | none => rfl
  | some i =>
    simp only [cursorAfter?_eq]
    rfl

theorem Sound.next?_eq {r : Roster} (h : r.Sound) (now : Nat) :
    r.next? now = some (r.next now) := by
  rcases h.cursor with ⟨hnil, hc⟩ | ⟨c, hlt, hc⟩
  · simp [next?, next_of_nobody hc, hnil, hc]
  · have hlen : r.members.length ≠ 0 := Nat.ne_of_gt (Nat.zero_lt_of_lt hlt)
    simp [next?, Roster.next, hc, hlt, remainder?, hlen]

theorem Sound.act?_eq {r : Roster} (h : r.Sound) (μ : RosterMove) : r.act? μ = some (r.act μ) := by
  cases μ with
  | add id user => rfl
  | remove id =>
    rw [act?, remove?_eq]
    rfl
  | next now =>
    rw [act?, h.next?_eq]
    rfl

/-- Somebody gets the turn, unless nobody is there. -/
theorem Sound.next_eq_none_iff {r : Roster} (h : r.Sound) (now : Nat) :
    (r.next now).1 = none ↔ r.members = [] := by
  rcases h.split with ⟨hm, hc⟩ | ⟨front, m, back, hm, hc⟩
  · simp [next_of_nobody hc, hm]
  · simp [next_of_split hm hc, hm]

/-- **A roster does what a circle of links does**, whoever comes and goes and however turns are
given: every answer is the same, and after every run so are the members in their order, whose turn
is next, and who is there. And at no time is there anything that could fail. -/
theorem run_eq_circle (μs : List RosterMove) :
    (empty.answers μs = LinkedCircle.empty.answers μs ∧
      (empty.run μs).members = (LinkedCircle.empty.run μs).members ∧
      (empty.run μs).current = (LinkedCircle.empty.run μs).currentId ∧
      ∀ id, (empty.run μs).contains id = (LinkedCircle.empty.run μs).contains id) ∧
    (empty.run μs).Sound ∧
    (∀ now, ((empty.run μs).next now).1 = none ↔ (empty.run μs).members = []) ∧
    ∀ μ, (empty.run μs).act? μ = some ((empty.run μs).act μ) := by
  obtain ⟨hanswers, ps, hsame⟩ := Depicts.empty.run μs
  have hsound := hsame.sound
  refine ⟨⟨hanswers.symm, hsame.members_eq.symm, hsame.currentId_eq.symm, fun id => ?_⟩,
    hsound, hsound.next_eq_none_iff, hsound.act?_eq⟩
  exact (hsame.contains_eq id).symm

end Roster

end ChatHub
