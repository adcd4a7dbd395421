import ChatHub.Text.Truncation
/-!
# Records

A record is the one unit of conversation: a line of text, a notice that somebody came or went, a
request for statistics. Every record has the same fields; which of them matter depends on its kind.

A record made *here* keeps two promises that a record read from a peer need not keep: its texts fit
their fields, and `payloadSize` is the byte length of `payload`. Both are promises of the functions
that set the fields (`Record.make`, `withSender`, `withPayload`), not of the type, because a decoded
record carries whatever the peer wrote.
-/

namespace ChatHub

/-! ## Kinds -/

/-- The kind of a record. The relay never writes `audio`, `video` or `cacheTest`. -/
inductive Kind where
  | text
  | join
  | leave
  | audio
  | video
  | status
  | cacheTest
  /-- Any byte that stands for no kind; it is kept. -/
  | unknown (byte : UInt8)
deriving Repr, DecidableEq

namespace Kind

/-- The kind a byte stands for. -/
def ofByte (b : UInt8) : Kind :=
  if b = 1 then text
  else if b = 2 then join
  else if b = 3 then leave
  else if b = 4 then audio
  else if b = 5 then video
  else if b = 6 then status
  else if b = 7 then cacheTest
  else unknown b

/-- The byte that stands for a kind. -/
def toByte : Kind → UInt8
  | text => 1
  | join => 2
  | leave => 3
  | audio => 4
  | video => 5
  | status => 6
  | cacheTest => 7
  | unknown b => b

/-- The name of a kind. All unknown kinds share one. -/
def name : Kind → String
  | text => "TEXT"
  | join => "JOIN"
  | leave => "LEAVE"
  | audio => "AUDIO"
  | video => "VIDEO"
  | status => "STATUS"
  | cacheTest => "CACHETEST"
  | unknown _ => "UNKNOWN"

/-- Whether a kind is none of the known ones. -/
def isUnknown : Kind → Bool
  | unknown _ => true
  | _ => false

end Kind

/-! ## Fields -/

/-- The most bytes a sender can have: its field less the closing zero. -/
def maxSenderBytes : Nat := 63

/-- The most bytes a payload can have: its field less the closing zero. -/
def maxPayloadBytes : Nat := 4095

/-- One record. -/
structure Record where
  kind : Kind
  senderId : UInt32
  /-- How many bytes the sender of the record says its payload has. -/
  payloadSize : UInt32
  sender : String
  payload : String
  /-- Seconds since 1970. -/
  timestamp : Int64
deriving Repr, DecidableEq

namespace Record

/-- Replaces the sender, cut to what its field can hold. -/
def withSender (r : Record) (name : String) : Record :=
  { r with sender := Text.truncate name maxSenderBytes }

/-- Replaces the payload, cut to what its field can hold, and its size with it. -/
def withPayload (r : Record) (content : String) : Record :=
  let kept := Text.truncate content maxPayloadBytes
  { r with payload := kept, payloadSize := kept.utf8ByteSize.toUInt32 }

/-- A new record, its texts cut to what their fields can hold. -/
def make (kind : Kind) (sender payload : String) (timestamp : Int64) : Record :=
  (({ kind, senderId := 0, payloadSize := 0, sender := "", payload := "", timestamp } : Record)
    |>.withSender sender).withPayload payload

/-- The notice that somebody came. -/
def joinNotice (user : String) (timestamp : Int64) : Record :=
  make .join user (user ++ " has joined the chat") timestamp

/-- The notice that somebody went. -/
def leaveNotice (user : String) (timestamp : Int64) : Record :=
  make .leave user (user ++ " has left the chat") timestamp

end Record

end ChatHub
