/-!
# Text as bytes

Everything that crosses the wire is bytes, everything the relay reasons about is text. This module
is the border: `encode` writes text as UTF-8, and `decode` reads any bytes at all as text.

A peer may send whatever it likes, so `decode` never fails. Bytes that spell no character are
replaced by U+FFFD, one for each *maximal* run that starts like a character and then breaks off:
a lead byte whose second byte is out of range costs one replacement and one byte, a character that
stops after two of its three bytes costs one replacement and two bytes. That is why the reader
below says for every head how many bytes it takes, instead of only which character it is.

The arithmetic is division and remainder by 64 on numbers, not shifts and masks on words, so that
statements about it are linear.
-/

namespace ChatHub.Utf8

/-- What stands in for bytes that spell no character. -/
def replacement : Char := '\uFFFD'

/-! ## Writing -/

/-- The one to four bytes of a character. -/
def encodeChar (c : Char) : List UInt8 :=
  let n := c.toNat
  if n < 0x80 then [n.toUInt8]
  else if n < 0x800 then [(0xC0 + n / 64).toUInt8, (0x80 + n % 64).toUInt8]
  else if n < 0x10000 then
    [(0xE0 + n / 4096).toUInt8, (0x80 + n / 64 % 64).toUInt8, (0x80 + n % 64).toUInt8]
  else
    [(0xF0 + n / 262144).toUInt8, (0x80 + n / 4096 % 64).toUInt8,
      (0x80 + n / 64 % 64).toUInt8, (0x80 + n % 64).toUInt8]

/-- The bytes of a list of characters, in order. -/
def encodeChars (cs : List Char) : List UInt8 := cs.flatMap encodeChar

/-- The bytes of a text. -/
def encode (s : String) : List UInt8 := encodeChars s.toList

/-! ## Reading -/

/-- How many bytes a character takes that starts with this byte; `0` when none does. `0xC0`, `0xC1`
and everything from `0xF5` up would start a character that is too long or too large. -/
def width (lead : Nat) : Nat :=
  if lead < 0x80 then 1
  else if lead < 0xC2 then 0
  else if lead < 0xE0 then 2
  else if lead < 0xF0 then 3
  else if lead < 0xF5 then 4
  else 0

/-- Whether a byte may follow anywhere inside a character. -/
def isContinuation (b : Nat) : Bool := 0x80 ≤ b && b < 0xC0

/-- Whether a byte may come second after this lead. Four leads narrow the range: two to rule out
spellings that are too long, one to rule out surrogates, one to stay below U+110000. -/
def isSecond (lead b : Nat) : Bool :=
  if lead = 0xE0 then 0xA0 ≤ b && b < 0xC0
  else if lead = 0xED then 0x80 ≤ b && b < 0xA0
  else if lead = 0xF0 then 0x90 ≤ b && b < 0xC0
  else if lead = 0xF4 then 0x80 ≤ b && b < 0x90
  else isContinuation b

/-- What the head of a buffer spells: a character, and how many bytes beyond the first it took. -/
structure Head where
  char : Char
  extra : Nat
deriving Repr, DecidableEq

/-- Bytes that broke off after `extra` more than the first. -/
def Head.broken (extra : Nat) : Head := ⟨replacement, extra⟩

/-- A two-byte character after its lead `b`. -/
def pair (b : Nat) : List UInt8 → Head
  | b₁ :: _ =>
    if isSecond b b₁.toNat then ⟨Char.ofNat ((b - 0xC0) * 64 + (b₁.toNat - 0x80)), 1⟩
    else .broken 0
  | [] => .broken 0

/-- A three-byte character after its lead `b`. -/
def triple (b : Nat) : List UInt8 → Head
  | b₁ :: b₂ :: _ =>
    if isSecond b b₁.toNat then
      if isContinuation b₂.toNat then
        ⟨Char.ofNat ((b - 0xE0) * 4096 + (b₁.toNat - 0x80) * 64 + (b₂.toNat - 0x80)), 2⟩
      else .broken 1
    else .broken 0
  | [b₁] => .broken (if isSecond b b₁.toNat then 1 else 0)
  | [] => .broken 0

/-- A four-byte character after its lead `b`. -/
def quadruple (b : Nat) : List UInt8 → Head
  | b₁ :: b₂ :: b₃ :: _ =>
    if isSecond b b₁.toNat then
      if isContinuation b₂.toNat then
        if isContinuation b₃.toNat then
          ⟨Char.ofNat ((b - 0xF0) * 262144 + (b₁.toNat - 0x80) * 4096
            + (b₂.toNat - 0x80) * 64 + (b₃.toNat - 0x80)), 3⟩
        else .broken 2
      else .broken 1
    else .broken 0
  | [b₁, b₂] =>
    .broken (if isSecond b b₁.toNat then (if isContinuation b₂.toNat then 2 else 1) else 0)
  | [b₁] => .broken (if isSecond b b₁.toNat then 1 else 0)
  | [] => .broken 0

/-- The head of the buffer `lead :: rest`. -/
def head (lead : UInt8) (rest : List UInt8) : Head :=
  let b := lead.toNat
  match width b with
  | 1 => ⟨Char.ofNat b, 0⟩
  | 2 => pair b rest
  | 3 => triple b rest
  | 4 => quadruple b rest
  | _ => .broken 0

/-- Reads any bytes as characters. -/
def decodeChars : List UInt8 → List Char
  | [] => []
  | lead :: rest =>
    let h := head lead rest
    h.char :: decodeChars (rest.drop h.extra)
termination_by bytes => bytes.length
decreasing_by simp only [List.length_drop, List.length_cons]; omega

/-- Reads any bytes as text. -/
def decode (bytes : List UInt8) : String := String.ofList (decodeChars bytes)

end ChatHub.Utf8
