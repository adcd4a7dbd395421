import ChatHub.Text.Utf8
import ChatHub.Fault
import ChatHub.Record.Basic
/-!
# A record on the wire

Every record takes the same 4184 bytes. Numbers are little-endian, texts are closed by a zero byte
and padded with zeros, and two gaps align the numbers:

| bytes | field |
|---|---|
| 0 | kind |
| 1–3 | zero |
| 4–7 | sender id |
| 8–11 | payload size |
| 12–75 | sender |
| 76–4171 | payload |
| 4172–4175 | zero |
| 4176–4183 | timestamp |

`encode` writes this form for any record, cutting a text that is too long for its field byte by
byte. `decode` reads any 4184 bytes: it ignores the gaps and whatever follows the first zero of a
text, and a text with no zero is as long as its field.
-/

namespace ChatHub

/-! ## Numbers -/

/-- The lowest `width` bytes of a number, the lowest first. -/
def littleEndian : (width : Nat) → Nat → List UInt8
  | 0, _ => []
  | width + 1, n => (n % 256).toUInt8 :: littleEndian width (n / 256)

/-- The number whose bytes these are, the lowest first. -/
def ofLittleEndian : List UInt8 → Nat
  | [] => 0
  | b :: bs => b.toNat + 256 * ofLittleEndian bs

namespace Record

/-! ## Sizes -/

/-- Bytes of the sender's field. -/
def senderField : Nat := maxSenderBytes + 1

/-- Bytes of the payload's field. -/
def payloadField : Nat := maxPayloadBytes + 1

/-- Bytes of a record. -/
def size : Nat := 4184

/-! ## Texts -/

/-- A text in a field of `len` bytes: what fits, a zero, and zeros to the end. -/
def encodeText (len : Nat) (s : String) : List UInt8 :=
  let kept := (Utf8.encode s).take (len - 1)
  kept ++ List.replicate (len - kept.length) 0

/-- The text of a field: everything before its first zero. -/
def decodeText (field : List UInt8) : String := Utf8.decode (field.takeWhile (· != 0))

/-! ## Records -/

/-- The 4184 bytes of a record. -/
def encode (r : Record) : List UInt8 :=
  r.kind.toByte :: List.replicate 3 0
    ++ littleEndian 4 r.senderId.toNat
    ++ littleEndian 4 r.payloadSize.toNat
    ++ encodeText senderField r.sender
    ++ encodeText payloadField r.payload
    ++ List.replicate 4 0
    ++ littleEndian 8 r.timestamp.toUInt64.toNat

/-- The bytes from `start` on, `len` of them. -/
def slice (start len : Nat) (bytes : List UInt8) : List UInt8 := (bytes.drop start).take len

/-- The record that exactly 4184 bytes spell. -/
def decode (bytes : List UInt8) : Except Fault Record :=
  if bytes.length = size then
    .ok
      { kind := Kind.ofByte (bytes.headD 0)
        senderId := (ofLittleEndian (slice 4 4 bytes)).toUInt32
        payloadSize := (ofLittleEndian (slice 8 4 bytes)).toUInt32
        sender := decodeText (slice 12 senderField bytes)
        payload := decodeText (slice 76 payloadField bytes)
        timestamp := (ofLittleEndian (slice 4176 8 bytes)).toUInt64.toInt64 }
  else
    .error (.protocol
      ("expected " ++ toString size ++ " byte record, got " ++ toString bytes.length))

end Record

end ChatHub
