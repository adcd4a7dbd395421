import ChatHub.Link
/-!
# Who is connected

The registry holds one record for every connected client, in the order of their ids. That order is
the order in which a message goes round, so it is part of the type: a `Registry` is a list whose ids
strictly ascend, and every operation keeps it so.

A client whose delivery failed is not thrown out here. It becomes inactive, gets no more messages,
and its session is told to end; the session then removes the record itself.
-/

namespace ChatHub

/-- One connected client. -/
structure Client where
  id : Nat
  user : String
  addr : Option String
  /-- When the client came, in milliseconds. -/
  connectedAt : Nat
  /-- When a record last came from the client, in milliseconds. -/
  lastActive : Nat
  /-- `false` once a delivery has failed. -/
  active : Bool
  link : Link
deriving Repr, DecidableEq

namespace Client

/-- A client that has just come. -/
def arriving (now id : Nat) (user : String) (addr : Option String) (capacity : Nat) : Client :=
  { id, user, addr, connectedAt := now, lastActive := now, active := true,
    link := .fresh capacity }

/-- Hands a record to the client without waiting. -/
def deliver (c : Client) (r : Record) : Bool × Client :=
  let (ok, mailbox) := c.link.mailbox.offer r
  (ok, { c with link.mailbox := mailbox })

/-- Fires the kill switch; says whether the session listens. -/
def signal (c : Client) : Bool × Client :=
  let (ok, kill) := c.link.kill.fire
  (ok, { c with link.kill := kill })

/-- Takes the client off the round and tells its session to end. -/
def retire (c : Client) : Client := { c.signal.2 with active := false }

theorem deliver_id (c : Client) (r : Record) : (c.deliver r).2.id = c.id := rfl

theorem signal_id (c : Client) : c.signal.2.id = c.id := rfl

theorem retire_id (c : Client) : c.retire.id = c.id := rfl

end Client

/-- What came of sending one message round. -/
structure FanOut where
  delivered : Nat
  failed : List Nat
deriving Repr, DecidableEq

/-- The connected clients, in the order of their ids. -/
structure Registry where
  clients : List Client
  ascending : clients.Pairwise (fun a b => a.id < b.id)
deriving Repr, DecidableEq

namespace Registry

/-- Nobody is connected. -/
def empty : Registry := { clients := [], ascending := .nil }

/-- How many clients are connected. -/
def size (r : Registry) : Nat := r.clients.length

/-- Whether nobody is connected. -/
def isEmpty (r : Registry) : Bool := r.clients.isEmpty

/-- The ids, ascending. -/
def ids (r : Registry) : List Nat := r.clients.map (·.id)

/-- The client under an id. -/
def find? (r : Registry) (id : Nat) : Option Client := r.clients.find? (·.id == id)

/-- Whether an id is connected. -/
def contains (r : Registry) (id : Nat) : Bool := (r.find? id).isSome

/-- Whether an id is connected and gets messages. -/
def isActive (r : Registry) (id : Nat) : Bool := ((r.find? id).map (·.active)).getD false

/-! ## Changing the list -/

/-- Puts a client where its id belongs, in place of one that has the same id. -/
def insertInto (c : Client) : List Client → List Client
  | [] => [c]
  | d :: ds =>
    if c.id < d.id then c :: d :: ds
    else if c.id = d.id then c :: ds
    else d :: insertInto c ds

theorem mem_insertInto {c x : Client} {cs : List Client} (h : x ∈ insertInto c cs) :
    x = c ∨ x ∈ cs := by
  induction cs with
  | nil => simpa [insertInto] using h
  | cons d ds ih =>
    unfold insertInto at h
    split at h
    · simpa using h
    · split at h
      · rcases List.mem_cons.1 h with h | h
        · exact .inl h
        · exact .inr (List.mem_cons_of_mem _ h)
      · rcases List.mem_cons.1 h with h | h
        · exact .inr (h ▸ List.mem_cons_self)
        · exact (ih h).imp id (List.mem_cons_of_mem _)

theorem insertInto_ascending {c : Client} {cs : List Client}
    (h : cs.Pairwise (fun a b => a.id < b.id)) :
    (insertInto c cs).Pairwise (fun a b => a.id < b.id) := by
  induction cs with
  | nil => simp [insertInto]
  | cons d ds ih =>
    obtain ⟨hd, hds⟩ := List.pairwise_cons.1 h
    unfold insertInto
    split
    · rename_i hlt
      refine List.pairwise_cons.2 ⟨fun x hx => ?_, h⟩
      rcases List.mem_cons.1 hx with rfl | hx
      · exact hlt
      · exact Nat.lt_trans hlt (hd x hx)
    · split
      · rename_i heq
        exact List.pairwise_cons.2 ⟨fun x hx => heq ▸ hd x hx, hds⟩
      · rename_i hlt hne
        refine List.pairwise_cons.2 ⟨fun x hx => ?_, ih hds⟩
        rcases mem_insertInto hx with rfl | hx
        · omega
        · exact hd x hx

/-- Connects a client; a record under the same id is replaced. -/
def insert (r : Registry) (c : Client) : Registry :=
  { clients := insertInto c r.clients, ascending := insertInto_ascending r.ascending }

/-- Disconnects an id; gives its record. -/
def remove (r : Registry) (id : Nat) : Option Client × Registry :=
  (r.find? id,
    { clients := r.clients.filter (·.id != id), ascending := r.ascending.filter _ })

/-- Changes every record in a way that keeps its id. -/
def mapClients (r : Registry) (f : Client → Client) (keeps : ∀ c, (f c).id = c.id) : Registry :=
  { clients := r.clients.map f
    ascending := List.pairwise_map.2 (r.ascending.imp fun {a b} h => by
      rw [keeps a, keeps b]; exact h) }

/-- Changes the record of one id in a way that keeps the id. -/
def update (r : Registry) (id : Nat) (f : Client → Client) (keeps : ∀ c, (f c).id = c.id) :
    Registry :=
  r.mapClients (fun c => if c.id = id then f c else c) fun c => by
    split
    · exact keeps c
    · rfl

/-! ## Sending -/

/-- Whether a message that leaves out `excluding` goes to this client. -/
def isAudience (excluding : Option Nat) (c : Client) : Bool :=
  c.active && !(excluding == some c.id)

/-- Sends a message to every active client but one. Failures are reported and not acted on. -/
def fanOut (r : Registry) (m : Record) (excluding : Option Nat) : FanOut × Registry :=
  let audience := r.clients.filter (isAudience excluding)
  ({ delivered := audience.countP fun c => (c.deliver m).1
     failed := (audience.filter fun c => !(c.deliver m).1).map (·.id) },
    r.mapClients (fun c => if isAudience excluding c then (c.deliver m).2 else c) fun c => by
      split
      · exact Client.deliver_id c m
      · rfl)

/-- Sends a message to one client, active or not; says whether it was taken. -/
def sendTo (r : Registry) (id : Nat) (m : Record) : Bool × Registry :=
  (((r.find? id).map fun c => (c.deliver m).1).getD false,
    r.update id (fun c => (c.deliver m).2) fun c => Client.deliver_id c m)

/-! ## Retiring -/

/-- Takes a client off the round and tells its session to end; gives the user if the id is
connected. -/
def retire (r : Registry) (id : Nat) : Option String × Registry :=
  ((r.find? id).map (·.user), r.update id Client.retire Client.retire_id)

/-- Takes every active client off the round; says how many there were. -/
def retireAll (r : Registry) : Nat × Registry :=
  (r.clients.countP (·.active),
    r.mapClients (fun c => if c.active then c.retire else c) fun c => by
      split
      · exact Client.retire_id c
      · rfl)

/-- Tells the session of an id to end, and nothing else; says whether it listens. -/
def signal (r : Registry) (id : Nat) : Bool × Registry :=
  (((r.find? id).map fun c => c.signal.1).getD false,
    r.update id (fun c => c.signal.2) Client.signal_id)

/-- Notes that a record came from a client. -/
def touch (r : Registry) (now id : Nat) : Registry :=
  r.update id (fun c => { c with lastActive := now }) fun _ => rfl

end Registry

end ChatHub
