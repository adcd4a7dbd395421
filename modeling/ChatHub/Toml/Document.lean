import ChatHub.Toml.Quoted
import ChatHub.Toml.Scalar
import ChatHub.Toml.Tree
/-!
# Reading a TOML document

A document is a sequence of lines, each of them blank, a header, or a key with its value, and each
with an optional comment. Values nest, so the reader of values is given fuel. Two for every
character is always enough: opening a list or a table takes two and one character, and so does
going on behind a comma.
-/

namespace ChatHub.Toml

/-! ## Between the values -/

/-- Drops blanks. -/
def dropBlank (cs : List Char) : List Char := cs.dropWhile fun c => c == ' ' || c == '\t'

/-- Drops a comment, if one starts here. -/
def dropComment (cs : List Char) : List Char :=
  match cs with
  | '#' :: rest => rest.dropWhile isPlain
  | _ => cs

/-- Reads the end of a line: blanks, a comment, and a line break or the end of the text. -/
def lineEnd? (cs : List Char) : Option (List Char) :=
  match dropComment (dropBlank cs) with
  | [] => some []
  | '\n' :: rest => some rest
  | '\r' :: '\n' :: rest => some rest
  | _ => none

/-- Drops blanks, comments and line breaks. -/
def dropFiller : (fuel : Nat) → List Char → List Char
  | 0, cs => cs
  | fuel + 1, cs =>
    match dropComment (dropBlank cs) with
    | '\n' :: rest => dropFiller fuel rest
    | '\r' :: '\n' :: rest => dropFiller fuel rest
    | cs => cs

/-- `dropFiller` with enough fuel for the whole text. -/
def skip (cs : List Char) : List Char := dropFiller (cs.length + 1) cs

/-! ## Keys -/

/-- Whether a character may stand in a key without quotes. -/
def isBare (c : Char) : Bool :=
  isDigit c || ('a' ≤ c && c ≤ 'z') || ('A' ≤ c && c ≤ 'Z') || c == '-' || c == '_'

/-- Reads one key, quoted on one line or bare. -/
def simpleKey? (cs : List Char) : Option (String × List Char) :=
  match cs with
  | '"' :: rest => (basic? (rest.length + 1) rest).map fun (k, rest) => (String.ofList k, rest)
  | '\'' :: rest => (literal? rest).map fun (k, rest) => (String.ofList k, rest)
  | _ =>
    let key := cs.takeWhile isBare
    if key.isEmpty then none else some (String.ofList key, cs.dropWhile isBare)

/-- Reads a dotted key: the keys before the last dot, the last key, and what follows with its blanks
dropped. -/
def key? : (fuel : Nat) → List Char → Option (List String × String × List Char)
  | 0, _ => none
  | fuel + 1, cs => do
    let (first, rest) ← simpleKey? (dropBlank cs)
    match dropBlank rest with
    | '.' :: rest =>
      let (more, last, rest) ← key? fuel rest
      return (first :: more, last, rest)
    | rest => return ([], first, rest)

/-! ## Values -/

/-- Whether a character may stand in a value without quotes. -/
def isScalarChar (c : Char) : Bool := isBare c || c == '+' || c == '.' || c == ':'

/-- Cuts out a value without quotes. A date may be followed by a blank and a time. -/
def scalarRun (cs : List Char) : List Char × List Char :=
  let run := cs.takeWhile isScalarChar
  let rest := cs.dropWhile isScalarChar
  match rest with
  | ' ' :: more =>
    if date? run = some [] && (more.head?.map isDigit).getD false then
      (run ++ ' ' :: more.takeWhile isScalarChar, more.dropWhile isScalarChar)
    else (run, rest)
  | _ => (run, rest)

mutual

/-- Reads a value. -/
def value? : (fuel : Nat) → List Char → Option (Value × List Char)
  | 0, _ => none
  | fuel + 1, cs =>
    match cs with
    | '"' :: _ => (quoted? cs).map fun (s, rest) => (.text s, rest)
    | '\'' :: _ => (quoted? cs).map fun (s, rest) => (.text s, rest)
    | '[' :: rest => (items? fuel rest).map fun (vs, rest) => (.list vs, rest)
    | '\x7b' :: rest => (inline? fuel [] rest).map fun (d, rest) => (.table (Node.toFields d), rest)
    | _ => do
      let (run, rest) := scalarRun cs
      return (← scalar? run, rest)

/-- Reads the rest of a list, behind its bracket or a comma. -/
def items? : (fuel : Nat) → List Char → Option (List Value × List Char)
  | 0, _ => none
  | fuel + 1, cs =>
    match skip cs with
    | ']' :: rest => some ([], rest)
    | cs => do
      let (v, rest) ← value? fuel cs
      match skip rest with
      | ',' :: rest =>
        let (vs, rest) ← items? fuel rest
        return (v :: vs, rest)
      | ']' :: rest => return ([v], rest)
      | _ => none

/-- Reads the rest of a table that is a value, behind its brace or a comma; `d` is what came
before. -/
def inline? : (fuel : Nat) → Draft → List Char → Option (Draft × List Char)
  | 0, _, _ => none
  | fuel + 1, d, cs =>
    match skip cs with
    | '\x7d' :: rest => some (d, rest)
    | cs => do
      let (dots, key, rest) ← key? (cs.length + 1) cs
      match rest with
      | '=' :: rest =>
        let (v, rest) ← value? fuel (dropBlank rest)
        let d ← d.assign [] dots key v
        match skip rest with
        | ',' :: rest => inline? fuel d rest
        | '\x7d' :: rest => return (d, rest)
        | _ => none
      | _ => none

end

/-! ## Lines -/

/-- What has been read of a document: the tree, and the header that the next keys belong to. -/
structure Progress where
  tree : Draft
  header : List String

/-- Reads one header, behind its first bracket. -/
def header? (p : Progress) (cs : List Char) : Option (Progress × List Char) :=
  match cs with
  | '[' :: rest => do
    let (path, key, rest) ← key? (rest.length + 1) rest
    match rest with
    | ']' :: ']' :: rest => return (⟨← p.tree.extend path key, path ++ [key]⟩, ← lineEnd? rest)
    | _ => none
  | _ => do
    let (path, key, rest) ← key? (cs.length + 1) cs
    match rest with
    | ']' :: rest => return (⟨← p.tree.declare path key, path ++ [key]⟩, ← lineEnd? rest)
    | _ => none

/-- Reads one key and its value. -/
def entry? (p : Progress) (cs : List Char) : Option (Progress × List Char) := do
  let (dots, key, rest) ← key? (cs.length + 1) cs
  match rest with
  | '=' :: rest =>
    let (v, rest) ← value? (2 * rest.length + 2) (dropBlank rest)
    return ({ p with tree := ← p.tree.assign p.header dots key v }, ← lineEnd? rest)
  | _ => none

/-- Reads lines to the end of the text. -/
def lines? : (fuel : Nat) → Progress → List Char → Option Progress
  | 0, _, _ => none
  | fuel + 1, p, cs =>
    match skip cs with
    | [] => some p
    | '[' :: rest => do
      let (p, rest) ← header? p rest
      lines? fuel p rest
    | cs => do
      let (p, rest) ← entry? p cs
      lines? fuel p rest

/-- Drops a byte order mark. -/
def dropMark : List Char → List Char
  | '\uFEFF' :: rest => rest
  | cs => cs

/-- The fields of a document. -/
def parse? (s : String) : Option Fields :=
  let cs := dropMark s.toList
  (lines? (cs.length + 1) ⟨[], []⟩ cs).map fun p => Node.toFields p.tree

end ChatHub.Toml
