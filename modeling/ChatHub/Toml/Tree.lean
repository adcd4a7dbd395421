import ChatHub.Toml.Value
/-!
# Building a document

A table can come into being in four ways: a header declares it, a header or a dotted key passes
through it on the way to something deeper, a dotted key defines it, or it is written out as a value.
What may be added later depends on which it was, so a document is built as a tree that remembers:

* a header declares a table once, and may declare one that was only passed through so far;
* a dotted key goes on in tables that dotted keys made, never in a declared one;
* a value is complete as written; nothing is ever added to it;
* a header in double brackets adds one more table to a series, and what follows belongs to the
  last one.
-/

namespace ChatHub.Toml

/-- How a table of the tree came into being. -/
inductive Origin where
  /-- By a header of its own, or as the document itself. -/
  | declared
  /-- On the way of a header to something deeper. -/
  | passed
  /-- By a dotted key. -/
  | dotted
deriving Repr, DecidableEq

/-- A node under construction. -/
inductive Node where
  | value (v : Value)
  | table (origin : Origin) (fields : List (String × Node))
  | series (items : List (List (String × Node)))
deriving Repr

/-- The fields of a table under construction. -/
abbrev Draft := List (String × Node)

namespace Draft

/-- Replaces the node of a key in its place, or adds it at the end. -/
def put (key : String) (n : Node) : Draft → Draft
  | [] => [(key, n)]
  | (k, m) :: rest => if k = key then (k, n) :: rest else (k, m) :: put key n rest

/-- Changes the table at the end of a path of keys, making the tables on the way that are not there.
`through` is the origin of the tables it makes: `passed` on the way of a header, `dotted` on the way
of a dotted key. -/
def change (through : Origin) (f : Origin → Draft → Option (Origin × Draft)) :
    List String → Origin → Draft → Option (Origin × Draft)
  | [], origin, d => f origin d
  | key :: path, origin, d =>
    match d.lookup key with
    | none => do
      let (o, inner) ← change through f path through []
      return (origin, d ++ [(key, .table o inner)])
    | some (.value _) => none
    | some (.table o inner) =>
      if through = .dotted ∧ o = .declared then none
      else do
        let (o, inner) ← change through f path o inner
        return (origin, d.put key (.table o inner))
    | some (.series items) =>
      if through = .dotted then none
      else do
        let last ← items.getLast?
        let (_, last) ← change through f path .declared last
        return (origin, d.put key (.series (items.dropLast ++ [last])))

/-- Declares the table at the end of a path. -/
def declare (d : Draft) (path : List String) (key : String) : Option Draft :=
  (change .passed
    (fun o inner =>
      match inner.lookup key with
      | none => some (o, inner ++ [(key, .table .declared [])])
      | some (.table .passed fields) => some (o, inner.put key (.table .declared fields))
      | some _ => none)
    path .declared d).map (·.2)

/-- Adds a table to the series at the end of a path. -/
def extend (d : Draft) (path : List String) (key : String) : Option Draft :=
  (change .passed
    (fun o inner =>
      match inner.lookup key with
      | none => some (o, inner ++ [(key, .series [[]])])
      | some (.series items) => some (o, inner.put key (.series (items ++ [[]])))
      | some _ => none)
    path .declared d).map (·.2)

/-- Sets a dotted key of the table at the end of a path. -/
def assign (d : Draft) (header dots : List String) (key : String) (v : Value) : Option Draft :=
  (change .passed
    (fun o inner =>
      change .dotted
        (fun o inner =>
          if decide (o = .dotted) == dots.isEmpty then none
          else if (inner.lookup key).isSome then none
          else some (o, inner ++ [(key, .value v)]))
        dots o inner)
    header .declared d).map (·.2)

end Draft

namespace Node

mutual

/-- The finished value. -/
def toValue : Node → Value
  | .value v => v
  | .table _ fields => .table (toFields fields)
  | .series items => .list (toTables items)

/-- The finished fields. -/
def toFields : List (String × Node) → List (String × Value)
  | [] => []
  | (k, n) :: rest => (k, toValue n) :: toFields rest

/-- The finished tables of a series. -/
def toTables : List (List (String × Node)) → List Value
  | [] => []
  | fields :: rest => .table (toFields fields) :: toTables rest

end

end Node

end ChatHub.Toml
