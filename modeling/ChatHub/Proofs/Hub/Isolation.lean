import ChatHub.Proofs.Hub.Attendance
import ChatHub.Proofs.Hub.Exchange
/-!
# Nobody pays for somebody else's slow line

A mailbox that is full, or that nobody reads, makes a delivery fail, and a failed delivery changes
the client it failed on and fires that client's signal. This file says that it reaches no further.
Compare two runs with the same calls, in which one client's mailbox has another size and that client
reads, hangs up and stops listening at other places: after every call they look the same to
everybody else, and they have the same roster and the same cache.

The two runs need not be equally long, so they are compared by way of a third: the calls they share,
with the one client doing nothing at all at the far end and having a mailbox of no size. What an
`Exchange` is up to the record of that client is `Alike`; a call keeps two exchanges alike, and a
move of the client's at the far end changes nothing that `Alike` can see. The one move that is left
out is the reply to a status request, which says in its text how many deliveries there have been.

That a call keeps them alike has three parts. The registry goes by `HubMove.registry_act`, where the
effect of a move on a client depends on nothing else in the hub. The roster and the cache are never
touched by a delivery at all, so what a move makes of them is a function of them alone:
`HubMove.rosterAfter` and `HubMove.cacheAfter`.
-/

namespace ChatHub

/-! ## What a move makes of the cache and of the roster -/

namespace RecentCache

/-- Looks an id up and refreshes what it finds. -/
def probe (c : RecentCache) (now : Nat) (id : String) : RecentCache :=
  if (c.lookup id).1.isSome then (c.lookup id).2.refresh now id else (c.lookup id).2

/-- Remembers a message that has gone round. -/
def keep (c : RecentCache) (t : Clock) (m : Record) : RecentCache :=
  (c.insert t.ms m.sender m.payload m.timestamp).2

end RecentCache

namespace Hub

theorem cache_lookup (h : Hub) (id : String) : (h.lookup id).2.cache = (h.cache.lookup id).2 := by
  unfold lookup
  rcases h.cache.lookup id with ⟨found, cache⟩
  rfl

theorem cache_remember (h : Hub) (t : Clock) (sender content : String) (timestamp : Int64) :
    (h.remember t sender content timestamp).2.cache =
      (h.cache.insert t.ms sender content timestamp).2 := by
  unfold remember RecentCache.insert
  rcases h.cache.insertion t.ms sender content timestamp with ⟨report, cache⟩
  rfl

theorem cache_lose (h : Hub) (id : Nat) : (lose h id).cache = h.cache := by
  unfold lose
  rcases h.registry.retire id with ⟨_ | user, registry⟩ <;> rfl

theorem cache_broadcast (h : Hub) (t : Clock) (m : Record) (excluding : Option Nat) :
    (h.broadcast t m excluding).2.cache = h.cache.keep t m := by
  unfold broadcast
  rcases h.registry.fanOut m excluding with ⟨fan, registry⟩
  dsimp only
  rw [cache_remember, foldl_lose_eq cache_lose]
  rfl

theorem cache_welcome (h : Hub) (c : Client) : (h.welcome c).cache = h.cache := by
  unfold welcome enrol
  rcases h.roster.add c.id c.user with ⟨added, roster⟩
  cases added <;> rfl

theorem cache_dismiss (h : Hub) (id : Nat) : (h.dismiss id).cache = h.cache := by
  have hstrike : (h.strike id).2.cache = h.cache := by
    unfold strike
    rcases h.roster.remove id with ⟨removed, roster⟩
    cases removed <;> rfl
  unfold dismiss
  dsimp only
  split <;> exact hstrike

theorem cache_probeRecent (h : Hub) (t : Clock) (id : String) :
    (h.probeRecent t id).cache = h.cache.probe t.ms id := by
  unfold probeRecent lookup RecentCache.probe
  rcases h.cache.lookup id with ⟨_ | found, cache⟩ <;> rfl

theorem roster_of_books {h h' : Hub} (hb : h.books = h'.books) : h.roster = h'.roster :=
  congrArg Books.roster hb

theorem roster_dismiss (h : Hub) (id : Nat) : (h.dismiss id).roster = (h.roster.remove id).2 := by
  have hstrike := congrArg Books.roster (h.books_strike id)
  unfold dismiss
  dsimp only
  split <;> exact hstrike

theorem roster_nextTurn (h : Hub) (t : Clock) :
    (h.nextTurn t).2.roster = (h.roster.next t.ms).2 := by
  unfold nextTurn
  rcases h.roster.next t.ms with ⟨m, roster⟩
  rfl

end Hub

namespace HubMove

/-- The cache after a move. -/
def cacheAfter (c : RecentCache) : HubMove → RecentCache
  | join t _ _ user _ _ => c.keep t (.joinNotice user t.unix)
  | leave t _ user => c.keep t (.leaveNotice user t.unix)
  | broadcast t m _ => c.keep t m
  | relayText t _ user m =>
    let m := Hub.signed user m
    let c := (c.lookup (RecentCache.makeId m.sender (m.timestamp - Hub.probeOffset))).2
    Hub.recentWindow.foldl (fun c back => c.probe t.ms (RecentCache.makeId user (t.unix - back)))
      (c.keep t { m with timestamp := t.unix })
  | lookup id => (c.lookup id).2
  | remember t sender content timestamp => (c.insert t.ms sender content timestamp).2
  | refresh t id => c.refresh t.ms id
  | forget => c.clear
  | _ => c

/-- The rotation after a move. -/
def rosterAfter (r : Roster) : HubMove → Roster
  | join _ _ id user _ _ => (r.add id user).2
  | leave _ id _ => (r.remove id).2
  | nextTurn t => (r.next t.ms).2
  | _ => r

theorem cache_act (h : Hub) (μ : HubMove) : (h.act μ).cache = μ.cacheAfter h.cache := by
  cases μ with
  | join t now id user addr capacity =>
    show (h.join t _).cache = _
    rw [Hub.join_eq, Hub.cache_broadcast, Hub.cache_welcome]
    rfl
  | leave t id user =>
    show (h.leave t id user).2.cache = _
    rw [Hub.leave_eq, Hub.cache_broadcast, Hub.cache_dismiss]
    rfl
  | broadcast t m excluding => exact h.cache_broadcast t m excluding
  | relayText t id user m =>
    let signed := Hub.signed user m
    let before := RecentCache.makeId signed.sender (signed.timestamp - Hub.probeOffset)
    have hround : (relayText t id user m).round? h =
        some ⟨(h.lookup before).2, t, { signed with timestamp := t.unix }, some id⟩ := rfl
    rw [act_of_round hround, afterwards, Round.outcome]
    simp only [Hub.recentWindow, List.foldl_cons, List.foldl_nil, Hub.cache_probeRecent,
      Hub.cache_broadcast, Hub.cache_lookup, cacheAfter]
    rfl
  | lookup id => exact h.cache_lookup id
  | remember t sender content timestamp => exact h.cache_remember t sender content timestamp
  | _ => rfl

theorem roster_act (h : Hub) (μ : HubMove) : (h.act μ).roster = μ.rosterAfter h.roster := by
  cases μ with
  | join t now id user addr capacity =>
    show (h.join t _).books.roster = _
    rw [Hub.join_eq, Hub.books_broadcast, Hub.books_welcome]
    rfl
  | leave t id user =>
    show (h.leave t id user).2.books.roster = _
    rw [Hub.leave_eq, Hub.books_broadcast]
    exact h.roster_dismiss id
  | broadcast t m excluding => exact Hub.roster_of_books (h.books_broadcast t m excluding)
  | relayText t id user m =>
    let signed := Hub.signed user m
    let before := RecentCache.makeId signed.sender (signed.timestamp - Hub.probeOffset)
    have hround : (relayText t id user m).round? h =
        some ⟨(h.lookup before).2, t, { signed with timestamp := t.unix }, some id⟩ := rfl
    have hbooks : (h.act (relayText t id user m)).books = h.books := by
      rw [act_of_round hround, books_afterwards, Round.outcome, Hub.books_broadcast,
        Hub.books_lookup]
    exact Hub.roster_of_books hbooks
  | lookup id => exact Hub.roster_of_books (h.books_lookup id)
  | nextTurn t => exact h.roster_nextTurn t
  | _ => rfl

end HubMove

/-! ## Taking no notice of one client -/

namespace Client

/-- The record of anybody but `who`, of whose record only the id is left. -/
def blind (who : Nat) (c : Client) : Client :=
  if c.id = who then .arriving 0 who "" none 0 else c

theorem blind_of_ne {who : Nat} {c : Client} (h : c.id ≠ who) : c.blind who = c := if_neg h

theorem blind_of_eq {who : Nat} {c : Client} (h : c.id = who) :
    c.blind who = .arriving 0 who "" none 0 := if_pos h

@[simp] theorem blind_id (who : Nat) (c : Client) : (c.blind who).id = c.id := by
  unfold blind
  split
  · rename_i h
    exact h.symm
  · rfl

@[simp] theorem blind_blind (who : Nat) (c : Client) : (c.blind who).blind who = c.blind who := by
  by_cases h : c.id = who
  · rw [blind_of_eq h]
    exact blind_of_eq rfl
  · rw [blind_of_ne h, blind_of_ne h]

/-- A change that keeps ids is the same change to what can still be seen. -/
theorem blind_congr {f : Client → Client} (keeps : ∀ c, (f c).id = c.id) (who : Nat) (c : Client) :
    (f (c.blind who)).blind who = (f c).blind who := by
  by_cases h : c.id = who
  · have hblind : (f (c.blind who)).id = who := (keeps _).trans ((blind_id who c).trans h)
    rw [blind_of_eq hblind, blind_of_eq ((keeps c).trans h)]
  · rw [blind_of_ne h]

end Client

namespace Registry

/-- The registry with nothing left of the record of `who` but the id. -/
def blind (who : Nat) (r : Registry) : Registry := r.mapClients (·.blind who) (Client.blind_id who)

theorem blind_mapClients {r s : Registry} {who : Nat} (h : r.blind who = s.blind who)
    {f : Client → Client} (keeps : ∀ c, (f c).id = c.id) :
    (r.mapClients f keeps).blind who = (s.mapClients f keeps).blind who := by
  have hboth : ∀ q : Registry,
      (q.mapClients f keeps).blind who = ((q.blind who).mapClients f keeps).blind who := by
    intro q
    refine ext_clients ?_
    show (q.clients.map f).map _ = ((q.clients.map _).map f).map _
    simp only [List.map_map]
    exact List.map_congr_left fun c _ => (Client.blind_congr keeps who c).symm
  rw [hboth r, hboth s, h]

theorem insertInto_map {f : Client → Client} (keeps : ∀ c, (f c).id = c.id) (c : Client)
    (cs : List Client) : insertInto (f c) (cs.map f) = (insertInto c cs).map f := by
  induction cs with
  | nil => rfl
  | cons d ds ih =>
    simp only [List.map_cons, insertInto, keeps, ih]
    split
    · rfl
    · split <;> rfl

theorem blind_insert {r s : Registry} {who : Nat} (h : r.blind who = s.blind who) {c d : Client}
    (hcd : c.blind who = d.blind who) : (r.insert c).blind who = (s.insert d).blind who := by
  have hboth : ∀ (q : Registry) (e : Client),
      (q.insert e).blind who = (q.blind who).insert (e.blind who) := fun q e =>
    ext_clients (insertInto_map (Client.blind_id who) e q.clients).symm
  rw [hboth, hboth, h, hcd]

theorem blind_remove {r s : Registry} {who : Nat} (h : r.blind who = s.blind who) (gone : Nat) :
    (r.remove gone).2.blind who = (s.remove gone).2.blind who := by
  have hboth : ∀ q : Registry, (q.remove gone).2.blind who = ((q.blind who).remove gone).2 := by
    intro q
    refine ext_clients ?_
    show (q.clients.filter (·.id != gone)).map (·.blind who) =
      (q.clients.map (·.blind who)).filter (·.id != gone)
    rw [List.filter_map]
    simp only [Function.comp_def, Client.blind_id]
  rw [hboth, hboth, h]

/-- A change to the one record makes no difference. -/
theorem blind_update_self (r : Registry) {who : Nat} {f : Client → Client}
    (keeps : ∀ c, (f c).id = c.id) : (r.update who f keeps).blind who = r.blind who := by
  refine ext_clients ?_
  show (r.clients.map _).map _ = r.clients.map _
  rw [List.map_map]
  refine List.map_congr_left fun c _ => ?_
  by_cases hc : c.id = who
  · simp only [Function.comp_apply, if_pos hc]
    rw [Client.blind_of_eq ((keeps c).trans hc), Client.blind_of_eq hc]
  · simp only [Function.comp_apply, if_neg hc]

end Registry

/-! ## A move, for everybody but one client -/

namespace HubMove

/-- The move without the size of one client's mailbox. -/
def unsized (who : Nat) : HubMove → HubMove
  | join t now id user addr capacity =>
    join t now id user addr (if id = who then 0 else capacity)
  | μ => μ

/-- Whether a move sends somebody the totals. -/
def tellsTotals : HubMove → Bool
  | replyStatus .. => true
  | _ => false

theorem vacates_unsized (who : Nat) (μ : HubMove) : (μ.unsized who).vacates = μ.vacates := by
  cases μ <;> rfl

theorem rosterAfter_unsized (who : Nat) (μ : HubMove) (r : Roster) :
    (μ.unsized who).rosterAfter r = μ.rosterAfter r := by
  cases μ <;> rfl

theorem cacheAfter_unsized (who : Nat) (μ : HubMove) (c : RecentCache) :
    (μ.unsized who).cacheAfter c = μ.cacheAfter c := by
  cases μ <;> rfl

/-- What a move does to a client depends on nothing else in the hub, unless it tells the totals. -/
theorem effect_unsized {μ : HubMove} (hμ : μ.tellsTotals = false) (who : Nat) (h h' : Hub) :
    (μ.unsized who).effect h' = μ.effect h := by
  funext c
  cases μ with
  | replyStatus => cases hμ
  | _ => rfl

theorem blind_seated {r s : Registry} {who : Nat} (h : r.blind who = s.blind who) (μ : HubMove) :
    (μ.seated r).blind who = ((μ.unsized who).seated s).blind who := by
  cases μ with
  | join t now id user addr capacity =>
    refine Registry.blind_insert h ?_
    by_cases hid : id = who
    · exact (Client.blind_of_eq hid).trans (Client.blind_of_eq hid).symm
    · rw [if_neg hid]
  | leave t id user => exact Registry.blind_remove h id
  | _ => exact h

theorem blind_act {h h' : Hub} {who : Nat} (hr : h.registry.blind who = h'.registry.blind who)
    {μ : HubMove} (hμ : μ.tellsTotals = false) :
    (h.act μ).registry.blind who = (h'.act (μ.unsized who)).registry.blind who := by
  have heffect := effect_unsized hμ who h h'
  have hseated := blind_seated hr μ
  rw [registry_act, registry_act]
  have hafter := Registry.blind_mapClients hseated (μ.effect_id h)
  rw [hafter]
  simp only [heffect]

end HubMove

/-! ## What everybody but one client sees of a run -/

namespace Exchange

/-- What there is to see for everybody but one client. -/
structure Outlook where
  /-- Everybody else's record: queue, flag, signal and all. -/
  others : List Client
  /-- Who is registered. -/
  ids : List Nat
  roster : Roster
  cache : RecentCache
  /-- Everybody else's record that has gone. -/
  departed : List Client
deriving Repr, DecidableEq

def outlook (v : Exchange) (who : Nat) : Outlook :=
  { others := v.hub.registry.clients.filter (·.id != who)
    ids := v.hub.registry.ids
    roster := v.hub.roster
    cache := v.hub.cache
    departed := v.departed.filter (·.id != who) }

/-- Whether a move is anything else than one of `who` at the far end of a link, old or new. -/
def shows (v : Exchange) (who : Nat) : ExchangeMove → Bool
  | .inside (.far id _) => id != who
  | .outside place _ => v.departed[place]?.all (·.id != who)
  | .inside _ => true

/-- Two exchanges that differ in nothing but the records of one client. -/
structure Alike (who : Nat) (v w : Exchange) : Prop where
  registry : v.hub.registry.blind who = w.hub.registry.blind who
  roster : v.hub.roster = w.hub.roster
  cache : v.hub.cache = w.hub.cache
  departed : v.departed.map (·.blind who) = w.departed.map (·.blind who)

end Exchange

namespace ExchangeMove

def unsized (who : Nat) : ExchangeMove → ExchangeMove
  | inside μ => inside (μ.unsized who)
  | m => m

def tellsTotals : ExchangeMove → Bool
  | inside μ => μ.tellsTotals
  | _ => false

theorem tellsTotals_unsized (who : Nat) (m : ExchangeMove) :
    (m.unsized who).tellsTotals = m.tellsTotals := by
  cases m with
  | inside μ => cases μ <;> rfl
  | outside => rfl

end ExchangeMove

namespace Exchange

/-- A run without what `who` does at the far end, and without the sizes of that client's mailboxes:
the calls, and what everybody else does. -/
def calls (v : Exchange) (who : Nat) : List ExchangeMove → List ExchangeMove
  | [] => []
  | m :: ms =>
    (if v.shows who m then [m.unsized who] else []) ++ (v.act m).calls who ms

/-- What there is to see for everybody else after each of these. -/
def outlooks (v : Exchange) (who : Nat) : List ExchangeMove → List Outlook
  | [] => []
  | m :: ms =>
    (if v.shows who m then [(v.act m).outlook who] else []) ++ (v.act m).outlooks who ms

variable {v w : Exchange} {who : Nat}

/-! ### Alike is alike to everybody else -/

theorem filter_map_blind (who : Nat) (cs : List Client) :
    (cs.map (·.blind who)).filter (·.id != who) = cs.filter (·.id != who) := by
  rw [List.filter_map]
  simp only [Function.comp_def, Client.blind_id]
  refine (List.map_congr_left fun c hc => ?_).trans (List.map_id _)
  exact Client.blind_of_ne (bne_iff_ne.1 (List.mem_filter.1 hc).2)

theorem Alike.outlook_eq (h : Alike who v w) : v.outlook who = w.outlook who := by
  have hothers := congrArg (·.clients.filter (·.id != who)) h.registry
  have hids := congrArg (·.clients.map (·.id)) h.registry
  have hdeparted := congrArg (·.filter (·.id != who)) h.departed
  simp only [Registry.blind, Registry.mapClients, filter_map_blind, List.map_map,
    Function.comp_def, Client.blind_id] at hothers hids hdeparted
  unfold outlook Registry.ids
  rw [hothers, hids, h.roster, h.cache, hdeparted]

/-! ### Every move keeps them alike -/

theorem blind_modify {cs ds : List Client} (h : cs.map (·.blind who) = ds.map (·.blind who))
    {f : Client → Client} (keeps : ∀ c, (f c).id = c.id) (place : Nat) :
    (cs.modify place f).map (·.blind who) = (ds.modify place f).map (·.blind who) := by
  have hboth : ∀ es : List Client, (es.modify place f).map (·.blind who) =
      ((es.map (·.blind who)).modify place f).map (·.blind who) := by
    intro es
    refine List.ext_getElem? fun i => ?_
    simp only [List.getElem?_map, List.getElem?_modify]
    cases es[i]? with
    | none => rfl
    | some c =>
      by_cases hi : place = i
      · simp [hi, Client.blind_congr keeps]
      · simp [hi]
  rw [hboth cs, hboth ds, h]

theorem blind_modify_self {cs : List Client} {f : Client → Client} (keeps : ∀ c, (f c).id = c.id)
    {place : Nat} (hplace : ∀ c, cs[place]? = some c → c.id = who) :
    (cs.modify place f).map (·.blind who) = cs.map (·.blind who) := by
  refine List.ext_getElem? fun i => ?_
  simp only [List.getElem?_map, List.getElem?_modify]
  cases hc : cs[i]? with
  | none => rfl
  | some c =>
    by_cases hi : place = i
    · subst hi
      have hid := hplace c hc
      simp [Client.blind_of_eq hid, Client.blind_of_eq ((keeps c).trans hid)]
    · simp [hi]

/-- A move of `who` at the far end of a link is made by nobody else. -/
theorem Alike.act_hidden (h : Alike who v w) {m : ExchangeMove} (hm : v.shows who m = false) :
    Alike who (v.act m) w := by
  cases m with
  | inside μ =>
    cases μ with
    | far id φ =>
      obtain rfl : id = who := by simpa [shows] using hm
      have hregistry : (v.act (.inside (.far id φ))).hub.registry.blind id =
          v.hub.registry.blind id :=
        v.hub.registry.blind_update_self (f := (·.farEnd φ)) fun _ => rfl
      exact
        { registry := hregistry.trans h.registry
          roster := h.roster
          cache := h.cache
          departed := by
            show (v.departed ++ []).map _ = _
            rw [List.append_nil]
            exact h.departed }
    | _ => cases hm
  | outside place φ =>
    refine { registry := h.registry, roster := h.roster, cache := h.cache, departed := ?_ }
    rw [← h.departed]
    refine blind_modify_self (f := (·.farEnd φ)) (fun _ => rfl) fun c hc => ?_
    simpa [shows, hc] using hm

/-- Which moves show can be told from either of the two. -/
theorem Alike.shows_eq (h : Alike who v w) (m : ExchangeMove) :
    v.shows who m = w.shows who (m.unsized who) := by
  cases m with
  | inside μ =>
    cases μ <;> rfl
  | outside place φ =>
    have hids := congrArg (fun cs => (cs[place]?).all (·.id != who)) h.departed
    simp only [List.getElem?_map, Option.all_map, Client.blind_id] at hids
    exact hids

theorem Alike.act (h : Alike who v w) {m : ExchangeMove} (hm : m.tellsTotals = false) :
    Alike who (v.act m) (w.act (m.unsized who)) := by
  cases m with
  | inside μ =>
    refine
      { registry := HubMove.blind_act h.registry hm, roster := ?_, cache := ?_, departed := ?_ }
    · show (v.hub.act μ).roster = (w.hub.act (μ.unsized who)).roster
      rw [HubMove.roster_act, HubMove.roster_act, HubMove.rosterAfter_unsized, h.roster]
    · show (v.hub.act μ).cache = (w.hub.act (μ.unsized who)).cache
      rw [HubMove.cache_act, HubMove.cache_act, HubMove.cacheAfter_unsized, h.cache]
    · show (v.departed ++ (μ.vacates.bind v.hub.registry.find?).toList).map _ =
        (w.departed ++ ((μ.unsized who).vacates.bind w.hub.registry.find?).toList).map _
      rw [HubMove.vacates_unsized, List.map_append, List.map_append, h.departed]
      congr 1
      cases μ.vacates with
      | none => rfl
      | some id =>
        have hfound := congrArg (·.find? id) h.registry
        simp only [Registry.blind, Registry.find?_mapClients] at hfound
        simp only [Option.bind_some, ← Option.toList_map, hfound]
  | outside place φ =>
    refine { registry := h.registry, roster := h.roster, cache := h.cache, departed := ?_ }
    exact blind_modify h.departed (f := (·.farEnd φ)) (fun _ => rfl) place

/-- Only that can be seen of a run which can be seen of its calls. -/
theorem outlooks_calls (h : Alike who v w) {ms : List ExchangeMove}
    (hquiet : ∀ m ∈ v.calls who ms, m.tellsTotals = false) :
    w.outlooks who (v.calls who ms) = v.outlooks who ms := by
  induction ms generalizing v w with
  | nil => rfl
  | cons m ms ih =>
    cases hm : v.shows who m with
    | false =>
      simp only [calls, outlooks, hm, Bool.false_eq_true, if_false, List.nil_append] at hquiet ⊢
      exact ih (h.act_hidden hm) hquiet
    | true =>
      have hm' : w.shows who (m.unsized who) = true := h.shows_eq m ▸ hm
      simp only [calls, outlooks, hm, hm', if_true, List.cons_append, List.nil_append] at hquiet ⊢
      have hact := h.act ((m.tellsTotals_unsized who).symm.trans (hquiet _ List.mem_cons_self))
      rw [hact.outlook_eq, ih hact fun n hn => hquiet n (List.mem_cons_of_mem _ hn)]

/-- Two runs that differ in nothing but the far end and the mailboxes of one client: after every
call there is the same to see for everybody else. -/
theorem outlooks_eq_of_calls_eq (v : Exchange) (who : Nat) {ms ns : List ExchangeMove}
    (hcalls : v.calls who ms = v.calls who ns)
    (hquiet : ∀ m ∈ v.calls who ms, m.tellsTotals = false) :
    v.outlooks who ms = v.outlooks who ns := by
  have hself : Alike who v v := ⟨rfl, rfl, rfl, rfl⟩
  calc v.outlooks who ms
      _ = v.outlooks who (v.calls who ms) := (outlooks_calls hself hquiet).symm
      _ = v.outlooks who (v.calls who ns) := congrArg _ hcalls
      _ = v.outlooks who ns := outlooks_calls hself (hcalls ▸ hquiet)

/-- Client 2 has no room at all in one run; in the other there is room, but the client stops
listening, goes, and hangs up the link that is left. A delivery fails in the first run only. -/
theorem outlooks_eq_of_one_failing :
    let t : Clock := ⟨5000, 5⟩
    let v : Exchange := { hub := .empty 8, departed := [] }
    let come (capacity : Nat) : List ExchangeMove :=
      [.inside (.join t 0 1 "ann" none 4), .inside (.join t 0 2 "bob" none capacity),
        .inside (.join t 0 3 "cyd" none 4)]
    let said := ExchangeMove.inside (.relayText t 1 "ann" (.make .text "ann" "hi" 5))
    let last : List ExchangeMove :=
      [.inside (.leave t 2 "bob"), .inside (.broadcast t (.make .text "cyd" "ho" 6) none)]
    let ms := come 0 ++ said :: .inside (.far 3 (.read 1)) :: last
    let ns := come 4 ++ .inside (.far 2 (.read 1)) :: said :: .inside (.far 3 (.read 1)) ::
      .inside (.far 2 .deafen) :: (last ++ [.outside 0 .hangUp])
    ((ms.take 4).foldl act v).hub.registry.isActive 2 = false ∧
      ((ns.take 5).foldl act v).hub.registry.isActive 2 = true ∧
      (v.outlooks 2 ms).map (·.ids) =
        [[1], [1, 2], [1, 2, 3], [1, 2, 3], [1, 2, 3], [1, 3], [1, 3]] ∧
      v.outlooks 2 ms = v.outlooks 2 ns :=
  ⟨by decide +kernel, by decide +kernel, by decide +kernel,
    outlooks_eq_of_calls_eq _ 2 (by decide +kernel) (by decide +kernel)⟩

end Exchange

end ChatHub
