import ChatHub.Fault
/-!
# The rotation

Everybody who is registered takes turns. Members stand in the order in which they came; a cursor
points at the one whose turn is next and moves on by one each time a turn is given, from the last
member back to the first.

Coming and going must not upset the order of turns: a new member goes to the end of the circle, and
when a member goes the cursor stays on the member it pointed at, or moves on to the successor when
that was the one who went.
-/

namespace ChatHub

/-- One member of the rotation. -/
structure Member where
  id : Nat
  user : String
  /-- When the member last had a turn, in milliseconds. -/
  lastTurn : Option Nat
deriving Repr, DecidableEq

/-- The members and whose turn is next. -/
structure Roster where
  members : List Member
  cursor : Option Nat
deriving Repr, DecidableEq

namespace Roster

/-- Nobody takes turns. -/
def empty : Roster := { members := [], cursor := none }

/-- An empty rotation whose turns last `quantum` milliseconds, which must be some time at least. -/
def create (quantum : Nat) : Except Fault Roster :=
  if quantum = 0 then .error .timeQuantum else .ok empty

/-- Whether somebody takes turns under an id. -/
def contains (r : Roster) (id : Nat) : Bool := r.members.any (·.id == id)

/-- The position of an id. -/
def position? (r : Roster) (id : Nat) : Option Nat := r.members.findIdx? (·.id == id)

/-- The id whose turn is next. -/
def current (r : Roster) : Option Nat :=
  (r.cursor.bind fun i => r.members[i]?).map (·.id)

/-- Adds a member at the end; `false` when the id takes turns already. -/
def add (r : Roster) (id : Nat) (user : String) : Bool × Roster :=
  if r.contains id then (false, r)
  else
    (true,
      { members := r.members ++ [{ id, user, lastTurn := none }]
        cursor := some (r.cursor.getD 0) })

/-- Where the cursor stands after the member at position `gone` has left `len` others. -/
def cursorAfter (gone len : Nat) (cursor : Option Nat) : Option Nat :=
  if len = 0 then none
  else
    match cursor with
    | none => none
    | some c => if c = gone then some (gone % len) else if gone < c then some (c - 1) else some c

/-- Takes a member out; `false` when nobody has the id. -/
def remove (r : Roster) (id : Nat) : Bool × Roster :=
  match r.position? id with
  | none => (false, r)
  | some i =>
    let members := r.members.eraseIdx i
    (true, { members, cursor := cursorAfter i members.length r.cursor })

/-- Gives the next turn: the member under the cursor gets it, and the cursor moves on. -/
def next (r : Roster) (now : Nat) : Option Member × Roster :=
  match r.cursor with
  | none => (none, r)
  | some c =>
    match r.members[c]? with
    | none => (none, r)
    | some m =>
      let m := { m with lastTurn := some now }
      (some m, { members := r.members.set c m, cursor := some ((c + 1) % r.members.length) })

/-! ## The schedule -/

/-- One line of the schedule. -/
def line (cursor : Option Nat) (pos : Nat) (m : Member) : String :=
  "  [" ++ toString pos ++ "] " ++ m.user ++ " (conn: " ++ toString m.id ++ ")"
    ++ (if cursor = some pos then " <- CURRENT" else "")

/-- The rotation in words, a line for each member in order. -/
def schedule (r : Roster) : String :=
  if r.members.isEmpty then "No clients scheduled"
  else
    "Current schedule (round-robin):\n"
      ++ "\n".intercalate (r.members.zipIdx.map fun (m, pos) => line r.cursor pos m)

end Roster

end ChatHub
