import ChatHub.Record.Layout
/-!
# Cutting a stream into records

A connection delivers bytes in pieces that have nothing to do with records. A `Framer` keeps what
has arrived and not yet made a record. Because all records have one size there is nothing to find:
as soon as 4184 bytes are there they are the next record.

`Framer.feed` adds a piece and takes every complete record; `Framer.atEnd` says what an end of
input means for the bytes that are left.
-/

namespace ChatHub

/-- The bytes that have arrived and not yet made a record. -/
structure Framer where
  buffer : List UInt8
deriving Repr, DecidableEq

namespace Framer

/-- Nothing has arrived. -/
def empty : Framer := ⟨[]⟩

/-- Adds bytes at the end. -/
def push (f : Framer) (bytes : List UInt8) : Framer := ⟨f.buffer ++ bytes⟩

/-- Takes the next record, if a complete one is there. -/
def next? (f : Framer) : Option (Except Fault Record × Framer) :=
  if f.buffer.length < Record.size then none
  else some (Record.decode (f.buffer.take Record.size), ⟨f.buffer.drop Record.size⟩)

theorem length_of_next? {f g : Framer} {r : Except Fault Record} (h : f.next? = some (r, g)) :
    g.buffer.length < f.buffer.length := by
  unfold next? at h
  split at h
  · simp at h
  · rename_i hlen
    simp only [Option.some.injEq, Prod.mk.injEq] at h
    rw [← h.2]
    simp only [List.length_drop, Record.size] at *
    omega

/-- Takes records until no complete one is left. -/
def drain (f : Framer) : List (Except Fault Record) × Framer :=
  match h : f.next? with
  | none => ([], f)
  | some (r, rest) =>
    have := length_of_next? h
    let (rs, last) := rest.drain
    (r :: rs, last)
termination_by f.buffer.length

/-- Adds a piece and takes every record it completes. -/
def feed (f : Framer) (bytes : List UInt8) : List (Except Fault Record) × Framer :=
  (f.push bytes).drain

/-- What the end of input means: a complete record is still a record, nothing at all is a clean
end, and a part of a record is a failure of the transport. -/
def atEnd (f : Framer) : Except Fault (Option (Except Fault Record × Framer)) :=
  match f.next? with
  | some taken => .ok (some taken)
  | none =>
    if f.buffer.isEmpty then .ok none else .error (.transport "bytes remaining on stream")

end Framer

end ChatHub
