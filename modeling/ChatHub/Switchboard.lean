import ChatHub.Hall
/-!
# Both ends of every line

A hub holds the near end of every client's link. The switchboard holds a hall together with the far
ends, so that everything that can happen around a hub is an operation on one value: a session reads
what was sent to it, stops reading, stops listening for its signal, or looks whether it came.

While a client is connected its link is in the registry. When its record goes, the link goes to
`parted`: what was waiting can still be read, and a signal that was fired can still be seen, but
nothing more arrives. A new client under the same id drops what was left of the old one.
-/

namespace ChatHub

/-- How reading from a mailbox ended. -/
inductive ReadEnd where
  /-- As many records as were asked for. -/
  | more
  /-- Everything that was there. -/
  | empty
  /-- Everything there will ever be. -/
  | closed
deriving Repr, DecidableEq

/-- A hall with the far ends of its links. -/
structure Switchboard where
  hall : Hall
  /-- The links of clients that are no longer connected, by id. -/
  parted : List (Nat × Link)
  /-- Whether the notice that the hall closes has come and was not read. -/
  noticeWaiting : Bool
deriving Repr, DecidableEq

namespace Switchboard

/-- A switchboard with nobody connected. -/
def create (settings : Settings) : Except Fault Switchboard := do
  return { hall := ← Hall.create settings, parted := [], noticeWaiting := false }

/-- The hub. -/
def hub (s : Switchboard) : Hub := s.hall.hub

/-- Changes the hub. -/
def withHub (s : Switchboard) (h : Hub) : Switchboard := { s with hall := { s.hall with hub := h } }

/-- Forgets what was left of an id. -/
def forget (s : Switchboard) (id : Nat) : Switchboard :=
  { s with parted := s.parted.filter (·.1 != id) }

/-- Keeps the link of a client that has gone. -/
def part (s : Switchboard) (gone : Option Client) : Switchboard :=
  match gone with
  | none => s
  | some c => { s.forget c.id with parted := (c.id, c.link) :: (s.forget c.id).parted }

/-! ## Coming and going -/

/-- Somebody joins. -/
def join (s : Switchboard) (t : Clock) (c : Client) : Switchboard :=
  (s.forget c.id).withHub (s.hub.join t c)

/-- Somebody leaves. -/
def leave (s : Switchboard) (t : Clock) (id : Nat) (user : String) : Switchboard :=
  let (gone, h) := s.hub.leave t id user
  (s.withHub h).part gone

/-- Puts a client into the registry and nowhere else. -/
def insert (s : Switchboard) (c : Client) : Switchboard :=
  (s.forget c.id).withHub { s.hub with registry := s.hub.registry.insert c }

/-- Takes a client out of the registry and nowhere else. -/
def remove (s : Switchboard) (id : Nat) : Option Client × Switchboard :=
  let (gone, registry) := s.hub.registry.remove id
  (gone, (s.withHub { s.hub with registry }).part gone)

/-! ## The far ends -/

/-- The link of an id, wherever it is. -/
def link? (s : Switchboard) (id : Nat) : Option Link :=
  match s.hub.registry.find? id with
  | some c => some c.link
  | none => s.parted.lookup id

/-- Changes the link of an id, wherever it is. -/
def changeLink (s : Switchboard) (id : Nat) (f : Link → Link) : Switchboard :=
  if s.hub.registry.contains id then
    s.withHub { s.hub with
      registry := s.hub.registry.update id (fun c => { c with link := f c.link }) fun _ => rfl }
  else
    { s with parted := s.parted.map fun (i, l) => if i = id then (i, f l) else (i, l) }

/-- Reads up to `max` records, or all there are; nothing when nobody reads under this id. -/
def drain (s : Switchboard) (id : Nat) (max : Option Nat) :
    Option (List Record × ReadEnd) × Switchboard :=
  match s.link? id with
  | none => (none, s)
  | some l =>
    if l.mailbox.isOpen then
      let (got, _) := l.mailbox.take (max.getD l.mailbox.queue.length)
      let ended : ReadEnd :=
        if max = some got.length then .more
        else if s.hub.registry.contains id then .empty
        else .closed
      (some (got, ended),
        s.changeLink id fun l =>
          { l with mailbox := (l.mailbox.take (max.getD l.mailbox.queue.length)).2 })
    else (none, s)

/-- Stops reading under an id. -/
def hangUp (s : Switchboard) (id : Nat) : Switchboard :=
  s.changeLink id fun l => { l with mailbox := l.mailbox.hangUp }

/-- Stops listening for the signal of an id. -/
def deafen (s : Switchboard) (id : Nat) : Switchboard :=
  s.changeLink id fun l => { l with kill := l.kill.deafen }

/-- Whether the signal of an id came since the last look. -/
def lookKilled (s : Switchboard) (id : Nat) : Bool × Switchboard :=
  (((s.link? id).map (·.kill.look.1)).getD false,
    s.changeLink id fun l => { l with kill := l.kill.look.2 })

/-! ## Closing -/

/-- Begins to close, and sends the notice if this is the beginning. -/
def beginShutdown (s : Switchboard) : Bool × Switchboard :=
  let (began, hall) := s.hall.beginShutdown
  (began, { s with hall, noticeWaiting := s.noticeWaiting || began })

/-- Whether the hall is closing, and whether the notice was waiting; takes the notice. -/
def shutdownState (s : Switchboard) : (Bool × Bool) × Switchboard :=
  ((s.hall.closing, s.noticeWaiting), { s with noticeWaiting := false })

end Switchboard

end ChatHub
