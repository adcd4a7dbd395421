import ChatHub.Text.Utf8
import ChatHub.Text.Blank
import ChatHub.Fault
/-!
# Who is calling

The first thing a peer sends is its user id: raw bytes closed by a zero, outside any record. Peers
that type by hand end it with a line break instead, so a run of CR and LF at its end is dropped.
What follows the zero already belongs to the first record and is handed on untouched.

The limit on the length is checked on the text, after decoding: bytes that spell no character have
grown to three bytes each by then.
-/

namespace ChatHub

/-- A peer that has said who it is, and the bytes that came after. -/
structure Identity where
  user : String
  leftover : List UInt8
deriving Repr, DecidableEq

namespace Identity

/-- Whether a character ends a line. -/
def isLineEnd (c : Char) : Bool := c == '\r' || c == '\n'

/-- The bytes before the first zero, and the bytes after it. -/
def splitAtZero (bytes : List UInt8) : List UInt8 × List UInt8 :=
  (bytes.takeWhile (· != 0), (bytes.dropWhile (· != 0)).drop 1)

/-- The user id that raw bytes spell. -/
def userOf (raw : List UInt8) : String :=
  String.ofList (Text.dropEndWhile isLineEnd (Utf8.decodeChars raw))

/-- Reads what a peer sent first; the user id may have up to `max` bytes. -/
def parse (bytes : List UInt8) (max : Nat) : Except Fault Identity :=
  let (raw, leftover) := splitAtZero bytes
  let user := userOf raw
  if user.isEmpty then .error (.badUser "empty user id")
  else if max < user.utf8ByteSize then
    .error (.badUser ("user id exceeds " ++ toString max ++ " bytes"))
  else .ok { user, leftover }

end Identity

end ChatHub
