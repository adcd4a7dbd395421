import ChatHub.Server.Basic
/-!
# Writing

A writer carries records from a mailbox to the socket, one after the other, and closes the socket
behind the last one that will ever come. It takes a record out of the mailbox, which makes room for
another one, and then writes the bytes of that record, as many at a time as the socket takes.

A write that fails ends the writer at once. What was written of a record stays written; the rest of
it, and what is waiting, is lost; no more is taken in; and the session is told to end if it still
listens.
-/

namespace ChatHub.Server

/-- The record that a writer finds in its mailbox. -/
def nextToWrite? (s : Server) (c : Connection) : Option Record :=
  match c.writer with
  | .live => (s.hub.registry.find? c.id).bind (·.link.mailbox.queue.head?)
  | .draining mailbox => mailbox.queue.head?
  | _ => none

/-- A record leaves the mailbox of a writer. -/
def takeOut (s : Server) (c : Connection) : Server :=
  match c.writer with
  | .live =>
    let hub := s.hub
    s.withHub { hub with
      registry := hub.registry.update c.id
        (fun client => { client with link.mailbox := (client.link.mailbox.take 1).2 })
        fun _ => rfl }
  | .draining mailbox => s.put { c with writer := .draining (mailbox.take 1).2 }
  | _ => s

/-- A writer that has nothing in hand takes the next record, or closes the socket if none will ever
come. -/
def fetch (s : Server) (c : Connection) : Server :=
  if c.inHand.isEmpty then
    match s.nextToWrite? c with
    | some r =>
      let c := { c with inHand := r.encode }
      (s.put c).takeOut c
    | none =>
      match c.writer with
      | .draining _ => s.put { c with writer := .done, shut := true }
      | _ => s
  else s

/-- A writer whose write fails. It reads no more, and tells the session if that still listens. -/
def failWrite (s : Server) (c : Connection) : Server :=
  let s := s.put { c with writer := .done, inHand := [], shut := true }
  match c.writer with
  | .live =>
    let hub := s.hub
    s.withHub { hub with
      registry := hub.registry.update c.id
        (fun client =>
          let client := client.signal.2
          { client with link.mailbox := client.link.mailbox.hangUp })
        fun _ => rfl }
  | _ => s

/-- A writer writes up to so many bytes of what it has in hand. To a broken connection it writes
none. -/
def write (s : Server) (c : Connection) (n : Nat) : Server :=
  if c.inHand.isEmpty then s
  else if c.isBroken then s.failWrite c
  else s.put { c with outbox := c.outbox ++ c.inHand.take n, inHand := c.inHand.drop n }

end ChatHub.Server
