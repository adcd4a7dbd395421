import ChatHub.Proofs.Hub.Exchange
/-!
# No gaps, no duplicates, no reordering

Messages go round, queues fill up, clients are retired, far ends hang up, and ids are used again.
Through all of it one registration gets the messages that go round while it is in the registry in
their order and each of them once, up to some point; and until it is retired that point is the last
of them. A client who misses one message gets no more of them.

A `Watch` observes one registration: it writes into a ledger which messages went round that the
registration should have got, what the rounds and everything else put into its queue, what its far
end read, and how often it was reported as failed. What was put into the queue is read off the queue
itself, before and after a move. The theorem is about what the ledger says after any run.

The invariant, `Ledger.Fits`, ties the ledger to the client's record. The point is its first two
fields: what was heard is what was due so far for as long as the client is active, and it need only
be an initial part of that once the client is not. A round keeps this because a client who refuses a
message is retired in the same breath, and nothing ever makes a retired client active again.
-/

namespace ChatHub

/-! ## The ledger of one registration -/

/-- What was seen of one registration. -/
structure Ledger where
  /-- The messages that went round while it was in the registry and was not left out. -/
  due : List Record
  /-- The records that rounds put into its queue. -/
  heard : List Record
  /-- All the records that were put into its queue. -/
  queued : List Record
  /-- The records that its far end read. -/
  drained : List Record
  /-- How often it was reported as failed. -/
  failures : Nat
deriving Repr, DecidableEq

namespace Ledger

def blank : Ledger := { due := [], heard := [], queued := [], drained := [], failures := 0 }

def add (a b : Ledger) : Ledger :=
  { due := a.due ++ b.due
    heard := a.heard ++ b.heard
    queued := a.queued ++ b.queued
    drained := a.drained ++ b.drained
    failures := a.failures + b.failures }

/-- What a move shows of a registration under `id` whose record is `c` before the move and `d` after
it: the place it has then, the round that the move makes and what its far end does. -/
def ofMove (id : Nat) (place : Option Nat) (round : Option Round) (φ : Option FarMove)
    (c d : Client) : Ledger :=
  -- Whatever stands behind the old end of the queue was put there by the move.
  let arrived := d.link.mailbox.queue.drop c.link.mailbox.queue.length
  { due :=
      match place, round with
      | none, some ρ => if ρ.excluding = some id then [] else [ρ.record]
      | _, _ => []
    heard := if round.isSome then arrived else []
    queued := arrived
    drained := (φ.map (·.got c.link)).getD []
    failures :=
      match place, round with
      | none, some ρ => ρ.outcome.1.failed.count id
      | _, _ => 0 }

theorem add_blank (l : Ledger) : l.add blank = l := by
  simp [add, blank]

end Ledger

/-- One registration being watched. -/
structure Watch where
  exchange : Exchange
  /-- The id under which it was made. -/
  id : Nat
  /-- Where its record is: see `Exchange.record`. -/
  place : Option Nat
  ledger : Ledger

namespace Watch

def client? (w : Watch) : Option Client := w.exchange.record w.id w.place

/-- The watch after a move. -/
def act (w : Watch) (μ : ExchangeMove) : Watch :=
  let exchange := w.exchange.act μ
  let place := μ.placeAfter w.exchange w.id w.place
  { w with
    exchange, place
    ledger :=
      match w.client?, exchange.record w.id place with
      | some c, some d =>
        w.ledger.add
          (.ofMove w.id place (μ.round? w.exchange) (μ.atFarEnd w.id w.place) c d)
      | _, _ => w.ledger }

def run (w : Watch) (μs : List ExchangeMove) : Watch := μs.foldl act w

/-- Begins to watch the registration that is made by joining an exchange. -/
def arriving (v : Exchange) (t : Clock) (now id : Nat) (user : String) (addr : Option String)
    (capacity : Nat) : Watch :=
  { exchange := v.act (.inside (.join t now id user addr capacity)), id, place := none,
    ledger := .blank }

theorem id_run (w : Watch) (μs : List ExchangeMove) : (w.run μs).id = w.id := by
  induction μs generalizing w with
  | nil => rfl
  | cons μ μs ih => exact ih (w.act μ)

theorem exchange_run (w : Watch) (μs : List ExchangeMove) :
    (w.run μs).exchange = μs.foldl Exchange.act w.exchange := by
  induction μs generalizing w with
  | nil => rfl
  | cons μ μs ih => exact ih (w.act μ)

end Watch

/-! ## The invariant -/

/-- What becomes of a client when nothing is put into their mailbox or taken out of it. -/
structure Client.Undisturbed (c d : Client) : Prop where
  mailbox : d.link.mailbox = c.link.mailbox
  /-- Nobody who was retired is active. -/
  active : d.active = true → c.active = true

theorem Client.Undisturbed.refl (c : Client) : c.Undisturbed c := ⟨rfl, fun h => h⟩

theorem Client.Undisturbed.touch (c : Client) (now : Nat) :
    c.Undisturbed { c with lastActive := now } := ⟨rfl, fun h => h⟩

theorem Client.Undisturbed.signal (c : Client) : c.Undisturbed c.signal.2 := ⟨rfl, fun h => h⟩

theorem Client.Undisturbed.retire (c : Client) : c.Undisturbed c.retire := ⟨rfl, nofun⟩

theorem Client.Undisturbed.ite {c d : Client} (h : c.Undisturbed d) (p : Prop) [Decidable p] :
    c.Undisturbed (if p then d else c) := by
  split
  · exact h
  · exact .refl c

namespace Ledger

/-- The ledger fits the record of the client as it is now. -/
structure Fits (l : Ledger) (c : Client) : Prop where
  /-- What was heard is the beginning of what was due, -/
  heard : l.heard <+: l.due
  /-- and all of it until the client is retired. -/
  complete : c.active = true → l.heard = l.due
  /-- Only a retired client has failed. -/
  spared : c.active = true → l.failures = 0
  failures : l.failures ≤ 1
  /-- What was read and what waits is what was queued, for as long as somebody reads. -/
  waiting : c.link.mailbox.isOpen = true → l.drained ++ c.link.mailbox.queue = l.queued
  /-- Nothing waits when nobody reads. -/
  silent : c.link.mailbox.isOpen = false → c.link.mailbox.queue = []
  drained : l.drained <+: l.queued

theorem Fits.arriving (now id : Nat) (user : String) (addr : Option String) (capacity : Nat) :
    blank.Fits (.arriving now id user addr capacity) :=
  { heard := List.prefix_rfl
    complete := fun _ => rfl
    spared := fun _ => rfl
    failures := Nat.zero_le 1
    waiting := fun _ => rfl
    silent := fun _ => rfl
    drained := List.prefix_rfl }

theorem Fits.frame {l : Ledger} {c d : Client} (h : l.Fits c) (hd : c.Undisturbed d) : l.Fits d :=
  { heard := h.heard
    complete := fun hactive => h.complete (hd.active hactive)
    spared := fun hactive => h.spared (hd.active hactive)
    failures := h.failures
    waiting := fun hopen => by
      rw [hd.mailbox] at hopen ⊢
      exact h.waiting hopen
    silent := fun hshut => by
      rw [hd.mailbox] at hshut ⊢
      exact h.silent hshut
    drained := h.drained }

end Ledger

/-! ## What the invariant survives -/

namespace Ledger

theorem Fits.deliver {l : Ledger} {c : Client} (h : l.Fits c) (m : Record) :
    (l.add { blank with queued := if (c.deliver m).1 then [m] else [] }).Fits (c.deliver m).2 := by
  refine
    { heard := ?_, complete := ?_, spared := h.spared, failures := h.failures, waiting := ?_,
      silent := ?_, drained := ?_ }
  · simpa [add, blank] using h.heard
  · simpa [add, blank, Client.deliver_active] using h.complete
  · intro hopen
    rw [Client.deliver_isOpen] at hopen
    rw [Client.deliver_queue, ← List.append_assoc]
    simp only [add, blank, List.append_nil, h.waiting hopen]
  · intro hshut
    rw [Client.deliver_isOpen] at hshut
    rw [Client.deliver_queue, Client.refused_of_shut hshut, h.silent hshut]
    rfl
  · simpa [add, blank] using h.drained.trans (List.prefix_append _ _)

/-- A round that passes the client by. -/
theorem Fits.passedBy {l : Ledger} {c : Client} (h : l.Fits c) {m : Record} {excluding : Option Nat}
    (haud : Registry.isAudience excluding c = false) :
    (l.add { blank with due := if excluding = some c.id then [] else [m] }).Fits c := by
  by_cases hex : excluding = some c.id
  · rw [if_pos hex]
    exact (add_blank l).symm ▸ h
  · rw [if_neg hex]
    -- They are not left out, so they must have been retired before.
    have hretired : c.active = false := by
      cases hactive : c.active with
      | false => rfl
      | true => simp [Registry.isAudience, hactive, hex] at haud
    exact
      { heard := by simpa [add, blank] using h.heard.trans (List.prefix_append _ _)
        complete := fun hactive => absurd (hretired.symm.trans hactive) Bool.false_ne_true
        spared := h.spared
        failures := h.failures
        waiting := by simpa [add, blank] using h.waiting
        silent := h.silent
        drained := by simpa [add, blank] using h.drained }

theorem Fits.reached {l : Ledger} {c : Client} (h : l.Fits c) {m : Record}
    (hactive : c.active = true) (htaken : (c.deliver m).1 = true) :
    (l.add { blank with due := [m], heard := [m], queued := [m] }).Fits (c.deliver m).2 := by
  have hdelivered := h.deliver m
  rw [htaken, if_pos rfl] at hdelivered
  -- Only here does it matter that an active client has missed nothing so far.
  have hall : l.heard ++ [m] = l.due ++ [m] := by rw [h.complete hactive]
  exact
    { heard := ⟨[], (List.append_nil _).trans hall⟩
      complete := fun _ => hall
      spared := h.spared
      failures := h.failures
      waiting := hdelivered.waiting
      silent := hdelivered.silent
      drained := hdelivered.drained }

theorem Fits.refused {l : Ledger} {c : Client} (h : l.Fits c) (m : Record)
    (hactive : c.active = true) :
    (l.add { blank with due := [m], failures := 1 }).Fits c.retire := by
  refine
    { heard := ?_, complete := nofun, spared := nofun, failures := ?_, waiting := ?_,
      silent := h.silent, drained := ?_ }
  · show l.heard ++ [] <+: l.due ++ [m]
    rw [List.append_nil]
    exact h.heard.trans (List.prefix_append _ _)
  · -- The first failure, since whoever failed before is not active.
    exact Nat.le_of_eq (congrArg (· + 1) (h.spared hactive))
  · show _ → (l.drained ++ []) ++ c.link.mailbox.queue = l.queued ++ []
    rw [List.append_nil, List.append_nil]
    exact h.waiting
  · show l.drained ++ [] <+: l.queued ++ []
    rw [List.append_nil, List.append_nil]
    exact h.drained

theorem Fits.farEnd {l : Ledger} {c : Client} (h : l.Fits c) (φ : FarMove) :
    (l.add { blank with drained := φ.got c.link }).Fits (c.farEnd φ) := by
  cases φ with
  | read max =>
    refine
      { heard := ?_, complete := ?_, spared := h.spared, failures := h.failures, waiting := ?_,
        silent := ?_, drained := ?_ }
    · simpa [add, blank] using h.heard
    · show c.active = true → l.heard ++ [] = l.due ++ []
      rw [List.append_nil, List.append_nil]
      exact h.complete
    · intro hopen
      show (l.drained ++ c.link.mailbox.queue.take max) ++ c.link.mailbox.queue.drop max = _
      rw [List.append_assoc, List.take_append_drop, h.waiting hopen]
      simp [add, blank]
    · intro hshut
      show c.link.mailbox.queue.drop max = []
      rw [h.silent hshut, List.drop_nil]
    · show l.drained ++ c.link.mailbox.queue.take max <+: l.queued ++ []
      rw [List.append_nil]
      cases hopen : c.link.mailbox.isOpen with
      | true =>
        rw [← h.waiting hopen]
        exact (List.prefix_append_right_inj _).2 (List.take_prefix _ _)
      | false =>
        rw [h.silent hopen, List.take_nil, List.append_nil]
        exact h.drained
  | hangUp =>
    exact (add_blank l).symm ▸
      { heard := h.heard, complete := h.complete, spared := h.spared, failures := h.failures,
        waiting := nofun, silent := fun _ => rfl, drained := h.drained }
  | deafen => exact (add_blank l).symm ▸ h.frame ⟨rfl, fun hc => hc⟩
  | look => exact (add_blank l).symm ▸ h.frame ⟨rfl, fun hc => hc⟩

end Ledger

/-! ## One move -/

/-- What a move without a round does to a client: it is a move at the far end, or a delivery, or it
leaves the line undisturbed. -/
theorem HubMove.errand_cases (h : Hub) (μ : HubMove) (c : Client) :
    (∃ φ, ExchangeMove.atFarEnd c.id none (.inside μ) = some φ ∧ μ.errand h c = c.farEnd φ) ∨
      ExchangeMove.atFarEnd c.id none (.inside μ) = none ∧
        ((∃ m, μ.errand h c = (c.deliver m).2) ∨ c.Undisturbed (μ.errand h c)) := by
  cases μ with
  | far i φ =>
    by_cases hi : c.id = i
    · exact Or.inl ⟨φ, if_pos hi.symm, if_pos hi⟩
    · refine Or.inr ⟨if_neg (Ne.symm hi), Or.inr ?_⟩
      rw [errand, if_neg hi]
      exact .refl c
  | replyStatus t i =>
    refine Or.inr ⟨rfl, ?_⟩
    by_cases hi : c.id = i
    · exact Or.inl ⟨h.statusReply t, if_pos hi⟩
    · rw [errand, if_neg hi]
      exact Or.inr (.refl c)
  | sendTo i m =>
    refine Or.inr ⟨rfl, ?_⟩
    by_cases hi : c.id = i
    · exact Or.inl ⟨m, if_pos hi⟩
    · rw [errand, if_neg hi]
      exact Or.inr (.refl c)
  | recordReceived t i =>
    have hc : c.Undisturbed (if c.id = i then { c with lastActive := t.ms } else c) :=
      .ite (.touch c t.ms) _
    exact Or.inr ⟨rfl, Or.inr hc⟩
  | retire i =>
    have hc : c.Undisturbed (if c.id = i then c.retire else c) := .ite (.retire c) _
    exact Or.inr ⟨rfl, Or.inr hc⟩
  | retireAll =>
    have hc : c.Undisturbed (if c.active then c.retire else c) := .ite (.retire c) _
    exact Or.inr ⟨rfl, Or.inr hc⟩
  | signal i =>
    have hc : c.Undisturbed (if c.id = i then c.signal.2 else c) := .ite (.signal c) _
    exact Or.inr ⟨rfl, Or.inr hc⟩
  | touch now i =>
    have hc : c.Undisturbed (if c.id = i then { c with lastActive := now } else c) :=
      .ite (.touch c now) _
    exact Or.inr ⟨rfl, Or.inr hc⟩
  | _ => exact Or.inr ⟨rfl, Or.inr (.refl c)⟩

namespace Ledger

/-- A move that leaves the record as it is, and makes no round in the registry where it is, shows
nothing. -/
theorem ofMove_self (id : Nat) {place : Option Nat} {round : Option Round}
    (hround : place = none → round = none) (c : Client) :
    ofMove id place round none c c = blank := by
  have harrived : c.link.mailbox.queue.drop c.link.mailbox.queue.length = [] := List.drop_length
  cases place with
  | none =>
    rw [hround rfl]
    simp [ofMove, harrived, blank]
  | some j => simp [ofMove, harrived, blank]

theorem Fits.round {l : Ledger} {c : Client} (h : l.Fits c) {ρ : Round}
    (hc : c ∈ ρ.hub.registry.clients) :
    (l.add (.ofMove c.id none (some ρ) none c (c.afterRound ρ.record ρ.excluding))).Fits
      (c.afterRound ρ.record ρ.excluding) := by
  have hcount : ρ.outcome.1.failed.count c.id =
      if Registry.isAudience ρ.excluding c = true ∧ (c.deliver ρ.record).1 = false then 1 else 0 :=
    Registry.count_failed hc ρ.record ρ.excluding
  have hidle : c.link.mailbox.queue.drop c.link.mailbox.queue.length = [] := List.drop_length
  rcases c.afterRound_cases ρ.record ρ.excluding with
    ⟨haud, hafter⟩ | ⟨haud, htaken, hafter⟩ | ⟨haud, hrefused, hafter⟩
  · rw [if_neg (by simp [haud])] at hcount
    have hseen : ofMove c.id none (some ρ) none c c =
        { blank with due := if ρ.excluding = some c.id then [] else [ρ.record] } := by
      simp [ofMove, blank, hidle, hcount]
    rw [hafter, hseen]
    exact h.passedBy haud
  · obtain ⟨hactive, hincluded⟩ := Registry.isAudience_iff.1 haud
    rw [if_neg (by simp [htaken])] at hcount
    have hseen : ofMove c.id none (some ρ) none c (c.deliver ρ.record).2 =
        { blank with due := [ρ.record], heard := [ρ.record], queued := [ρ.record] } := by
      simp [ofMove, blank, Client.deliver_queue, htaken, hcount, hincluded]
    rw [hafter, hseen]
    exact h.reached hactive htaken
  · obtain ⟨hactive, hincluded⟩ := Registry.isAudience_iff.1 haud
    rw [if_pos ⟨haud, hrefused⟩] at hcount
    have hseen : ofMove c.id none (some ρ) none c c.retire =
        { blank with due := [ρ.record], failures := 1 } := by
      have hidle' : c.retire.link.mailbox.queue.drop c.link.mailbox.queue.length = [] := hidle
      simp [ofMove, blank, hidle', hcount, hincluded]
    rw [hafter, hseen]
    exact h.refused ρ.record hactive

theorem Fits.atFarEnd {l : Ledger} {c : Client} (h : l.Fits c) (id : Nat) (place : Option Nat)
    (φ : FarMove) : (l.add (.ofMove id place none (some φ) c (c.farEnd φ))).Fits (c.farEnd φ) := by
  have harrived : (c.farEnd φ).link.mailbox.queue.drop c.link.mailbox.queue.length = [] := by
    refine List.drop_eq_nil_of_le ?_
    cases φ with
    | read max => exact List.length_drop ▸ Nat.sub_le _ _
    | hangUp => exact Nat.zero_le _
    | deafen => exact Nat.le_refl _
    | look => exact Nat.le_refl _
  have hseen : ofMove id place none (some φ) c (c.farEnd φ) =
      { blank with drained := φ.got c.link } := by
    cases place <;> simp [ofMove, blank, harrived]
  rw [hseen]
  exact h.farEnd φ

theorem Fits.errand {l : Ledger} {c : Client} (h : l.Fits c) (hub : Hub) (μ : HubMove) :
    (l.add (.ofMove c.id none none (ExchangeMove.atFarEnd c.id none (.inside μ)) c
      (μ.errand hub c))).Fits (μ.errand hub c) := by
  rcases μ.errand_cases hub c with ⟨φ, hφ, hd⟩ | ⟨hφ, ⟨m, hd⟩ | hd⟩
  · rw [hφ, hd]
    exact h.atFarEnd c.id none φ
  · have hseen : ofMove c.id none none none c (c.deliver m).2 =
        { blank with queued := if (c.deliver m).1 then [m] else [] } := by
      simp [ofMove, blank, Client.deliver_queue]
    rw [hφ, hd, hseen]
    exact h.deliver m
  · have hseen : ofMove c.id none none none c (μ.errand hub c) = blank := by
      have hsame : ofMove c.id none none none c c = blank := ofMove_self c.id (fun _ => rfl) c
      rw [← hsame]
      simp [ofMove, hd.mailbox]
    rw [hφ, hseen, add_blank]
    exact h.frame hd

end Ledger

/-! ## A whole run -/

namespace Watch

/-- The watched registration is found, and the ledger fits its record. -/
structure Kept (w : Watch) (c : Client) : Prop where
  found : w.client? = some c
  named : c.id = w.id
  fits : w.ledger.Fits c

theorem ledger_act {w : Watch} {μ : ExchangeMove} {c d : Client} (hc : w.client? = some c)
    (hd : (w.exchange.act μ).record w.id (μ.placeAfter w.exchange w.id w.place) = some d) :
    (w.act μ).ledger = w.ledger.add
      (.ofMove w.id (μ.placeAfter w.exchange w.id w.place) (μ.round? w.exchange)
        (μ.atFarEnd w.id w.place) c d) := by
  simp only [act, hc, hd]

theorem Kept.of_fits {w : Watch} {μ : ExchangeMove} {c d : Client} (h : w.Kept c)
    (hd : (w.exchange.act μ).record w.id (μ.placeAfter w.exchange w.id w.place) = some d)
    (hid : d.id = c.id)
    (hfits : (w.ledger.add
      (.ofMove w.id (μ.placeAfter w.exchange w.id w.place) (μ.round? w.exchange)
        (μ.atFarEnd w.id w.place) c d)).Fits d) : (w.act μ).Kept d :=
  { found := hd
    named := hid.trans h.named
    fits := by
      rw [ledger_act h.found hd]
      exact hfits }

/-- A move that leaves the record of the registration alone and makes no round that could reach
it. -/
theorem Kept.of_untouched {w : Watch} {μ : ExchangeMove} {c : Client} (h : w.Kept c)
    (hd : (w.exchange.act μ).record w.id (μ.placeAfter w.exchange w.id w.place) = some c)
    (hround : μ.placeAfter w.exchange w.id w.place = none → μ.round? w.exchange = none)
    (hfar : μ.atFarEnd w.id w.place = none) : (w.act μ).Kept c := by
  refine h.of_fits hd rfl ?_
  rw [hfar, Ledger.ofMove_self _ hround, Ledger.add_blank]
  exact h.fits

/-- A move around the hub, while the registration is in the registry. -/
theorem Kept.inside {w : Watch} {c : Client} (h : w.Kept c) (hplace : w.place = none)
    (μ : HubMove) : ∃ d, (w.act (.inside μ)).Kept d := by
  have hfound : w.exchange.record w.id none = some c := hplace ▸ h.found
  by_cases hgoes : μ.vacates = some w.id
  · -- The registration goes, as it is.
    have hafter : ExchangeMove.placeAfter w.exchange w.id w.place (.inside μ) =
        some w.exchange.departed.length := by
      rw [hplace]
      exact if_pos hgoes
    refine ⟨c, h.of_untouched ?_ ?_ ?_⟩
    · rw [hafter]
      exact Exchange.record_of_vacated hfound hgoes
    · rw [hafter]
      exact nofun
    · rw [hplace]
      cases μ <;> first | rfl | cases hgoes
  · have hafter : ExchangeMove.placeAfter w.exchange w.id w.place (.inside μ) = none := by
      rw [hplace]
      exact if_neg hgoes
    refine ⟨μ.effect w.exchange.hub c, h.of_fits ?_ (μ.effect_id _ c) ?_⟩
    · rw [hafter]
      exact Exchange.record_of_stays hfound hgoes
    · rw [hafter, hplace, ← h.named]
      show (w.ledger.add (.ofMove c.id none (μ.round? w.exchange.hub) _ c _)).Fits _
      unfold HubMove.effect
      -- Whoever stays is met by a round or else by an errand.
      cases hρ : μ.round? w.exchange.hub with
      | none => exact h.fits.errand w.exchange.hub μ
      | some ρ =>
        have hfar : ExchangeMove.atFarEnd c.id none (.inside μ) = none := by
          cases μ <;> first | rfl | cases hρ
        have hmem : c ∈ ρ.hub.registry.clients := by
          rw [HubMove.registry_round hρ]
          have hseated : (μ.seated w.exchange.hub.registry).find? w.id = some c :=
            (HubMove.find?_seated _ hgoes).trans hfound
          exact (Registry.find?_some hseated).1
        rw [hfar]
        exact h.fits.round hmem

theorem Kept.act {w : Watch} {c : Client} (h : w.Kept c) (μ : ExchangeMove) :
    ∃ d, (w.act μ).Kept d := by
  cases hplace : w.place with
  | none =>
    cases μ with
    | inside μ => exact h.inside hplace μ
    | outside i φ =>
      have hfound : w.exchange.record w.id none = some c := hplace ▸ h.found
      refine ⟨c, h.of_untouched ?_ (fun _ => rfl) ?_⟩
      · rw [hplace]
        exact hfound
      · rw [hplace]
        rfl
  | some place =>
    have hfound : w.exchange.record w.id (some place) = some c := hplace ▸ h.found
    cases μ with
    | inside μ =>
      refine ⟨c, h.of_untouched ?_ ?_ ?_⟩
      · rw [hplace]
        exact Exchange.record_of_departed hfound μ
      · rw [hplace]
        exact nofun
      · rw [hplace]
        rfl
    | outside i φ =>
      have hd := Exchange.record_outside hfound i φ
      by_cases hi : i = place
      · rw [if_pos hi] at hd
        refine ⟨c.farEnd φ, h.of_fits (by rw [hplace]; exact hd) rfl ?_⟩
        have hfar : ExchangeMove.atFarEnd w.id (some place) (.outside i φ) = some φ := if_pos hi
        rw [hplace, hfar]
        exact h.fits.atFarEnd w.id (some place) φ
      · rw [if_neg hi] at hd
        refine ⟨c, h.of_untouched (by rw [hplace]; exact hd) ?_ ?_⟩
        · rw [hplace]
          exact nofun
        · rw [hplace]
          exact if_neg hi

theorem Kept.run {w : Watch} {c : Client} (h : w.Kept c) (μs : List ExchangeMove) :
    ∃ d, (w.run μs).Kept d := by
  induction μs generalizing w c with
  | nil => exact ⟨c, h⟩
  | cons μ μs ih =>
    obtain ⟨d, hd⟩ := h.act μ
    exact ih hd

/-- Whoever has just joined has seen nothing, not even their own notice. -/
theorem Kept.arriving (v : Exchange) (t : Clock) (now id : Nat) (user : String)
    (addr : Option String) (capacity : Nat) :
    (Watch.arriving v t now id user addr capacity).Kept
      (.arriving now id user addr capacity) := by
  refine { found := ?_, named := rfl, fits := .arriving now id user addr capacity }
  show (v.hub.act (.join t now id user addr capacity)).registry.find? id = _
  rw [HubMove.find?_act]
  show ((v.hub.registry.insert (.arriving now id user addr capacity)).find? id).map _ = _
  rw [Registry.find?_insert]
  show (if id = id then _ else _ : Option Client).map _ = _
  rw [if_pos rfl, Option.map_some]
  show some ((Client.arriving now id user addr capacity).afterRound _ (some id)) = _
  have haud : Registry.isAudience (some id) (.arriving now id user addr capacity) = false := by
    simp [Registry.isAudience, Client.arriving]
  unfold Client.afterRound
  rw [haud]
  rfl

end Watch

/-- What rounds put into the queue of a registration is, in order and each message once, the
beginning of what went round while it was there and not left out; it is all of that until the
registration is retired; the registration is reported as failed at most once; and its far end reads
a beginning of what was queued, of which the rest is waiting for as long as somebody reads. -/
theorem Exchange.delivery_without_gaps (v : Exchange) (t : Clock) (now id : Nat) (user : String)
    (addr : Option String) (capacity : Nat) (μs : List ExchangeMove) :
    let w := (Watch.arriving v t now id user addr capacity).run μs
    w.exchange = μs.foldl act (v.act (.inside (.join t now id user addr capacity))) ∧
      ∃ c, w.client? = some c ∧ c.id = id ∧
      w.ledger.heard <+: w.ledger.due ∧ (c.active = true → w.ledger.heard = w.ledger.due) ∧
      w.ledger.failures ≤ 1 ∧ w.ledger.drained <+: w.ledger.queued ∧
      (c.link.mailbox.isOpen = true →
        w.ledger.drained ++ c.link.mailbox.queue = w.ledger.queued) := by
  intro w
  obtain ⟨c, hc⟩ := (Watch.Kept.arriving v t now id user addr capacity).run μs
  have hid : w.id = id := Watch.id_run _ μs
  refine ⟨Watch.exchange_run _ μs, c, hc.found, hc.named.trans hid, ?_⟩
  exact ⟨hc.fits.heard, hc.fits.complete, hc.fits.failures, hc.fits.drained, hc.fits.waiting⟩

/-- Somebody with room for one record reads the first message, has no room for the third, and
leaves; the fourth and the notice of their leaving are not for them. -/
example :
    let text (payload : String) := Record.make .text "ann" payload 0
    let send (payload : String) := ExchangeMove.inside (.broadcast ⟨0, 0⟩ (text payload) none)
    let w := (Watch.arriving ⟨.empty 2, []⟩ ⟨0, 0⟩ 0 2 "bob" none 1).run
      [send "a", .inside (.far 2 (.read 1)), send "b", send "c", .inside (.leave ⟨0, 0⟩ 2 "bob"),
        send "d", .outside 0 (.read 5)]
    w.ledger =
      { due := [text "a", text "b", text "c"], heard := [text "a", text "b"],
        queued := [text "a", text "b"], drained := [text "a", text "b"], failures := 1 } := by
  decide +kernel

end ChatHub
