import ChatHub.Text.Numeral
/-!
# The host

What a program sees of its host is a value: the files of the directory that it runs in, and the
ports that somebody else listens on. Reading a file and claiming an address are functions of that
value, and so are the faults that come of them.
-/

namespace ChatHub

/-! ## Files -/

/-- Why a file cannot be read. -/
inductive FileFault where
  | missing
  | isDirectory
  | notDirectory
  | longName
deriving Repr, DecidableEq

namespace FileFault

/-- The text of the fault. -/
def message : FileFault → String
  | missing => "No such file or directory (os error 2)"
  | isDirectory => "Is a directory (os error 21)"
  | notDirectory => "Not a directory (os error 20)"
  | longName => "File name too long (os error 36)"

end FileFault

/-- What a program sees of its host. -/
structure HostView where
  /-- The files that there are, by their paths from the directory that the program runs in. -/
  files : List (String × String)
  /-- The ports that somebody else listens on. -/
  taken : List Nat

namespace HostView

/-- The names on a path, without the empty ones and those that mean where one is. -/
def namesOn (path : String) : List String :=
  (path.splitOn "/").filter fun p => p != "" && p != "."

/-- Whether a path asks for a directory by its last sign. -/
def endsInDirectory (path : String) : Bool :=
  let last := (path.splitOn "/").getLast?
  last == some "" || last == some "."

/-- The most bytes that a name on a path may have. -/
def maxNameBytes : Nat := 255

/-- The most bytes that a path may have. -/
def maxPathBytes : Nat := 4095

/-- Reads a file by its path. Of directories only the one that the program runs in and those above
it are there. -/
def read (h : HostView) (path : String) : Except FileFault String :=
  if path.isEmpty then .error .missing
  else if maxPathBytes < path.utf8ByteSize then .error .longName
  else
    match h.files.lookup path with
    | some text => .ok text
    | none =>
      let names := namesOn path
      if names.all (· == "..") then .error .isDirectory
      else
        match names with
        | [] => .error .isDirectory
        | name :: rest =>
          if maxNameBytes < name.utf8ByteSize then .error .longName
          else if path.startsWith "/" then .error .missing
          else
            match h.files.lookup name with
            | none => .error .missing
            | some text =>
              if rest.isEmpty && !endsInDirectory path then .ok text else .error .notDirectory

end HostView

/-! ## Addresses -/

/-- An address that can be listened on. -/
inductive Address where
  /-- An address of four bytes. -/
  | short (bytes : UInt32)
  /-- A longer one, as it was written. -/
  | long (text : String)
deriving Repr, DecidableEq

namespace Address

/-- The four bytes of a short address, the first one first. -/
def octets (a : UInt32) : List Nat :=
  [a.toNat / 16777216, a.toNat / 65536 % 256, a.toNat / 256 % 256, a.toNat % 256]

/-- How an address is shown in front of a port. -/
def text : Address → String
  | short a => ".".intercalate ((octets a).map toString)
  | long s => "[" ++ s ++ "]"

/-- The number of one part of a short address: `0x` says that it is hexadecimal, another leading
zero that it is octal. -/
def part? (s : String) : Option Nat :=
  match s.toList with
  | ['0'] => some 0
  | '0' :: 'x' :: ds | '0' :: 'X' :: ds => Numeral.digits? 16 ds
  | '0' :: ds => Numeral.digits? 8 ds
  | ds => Numeral.digits? 10 ds

/-- Puts the parts of a short address together. There are four at most; the last one fills all bytes
that the others leave, each of which is a byte. -/
def join? : (space : Nat) → List Nat → Option Nat
  | _, [] => none
  | space, [last] => if last < Nat.pow 256 space then some last else none
  | 0, _ :: _ :: _ => none
  | space + 1, first :: rest => do
    let below ← join? space rest
    if first < 256 ∧ space ≠ 0 then some (first * Nat.pow 256 space + below) else none

/-- A short address that is written in numbers. -/
def ofNumbers? (s : String) : Option UInt32 := do
  let parts ← (s.splitOn ".").mapM part?
  return UInt32.ofNat (← join? 4 parts)

/-- The host's address for itself: 127.0.0.1. -/
def loopback : UInt32 := 0x7f000001

/-- What a name stands for. Numbers name an address, and one name stands for the host itself; every
other name would have to be looked up, and there is nobody to ask. -/
def resolve? (host : String) : Option Address :=
  if host.contains ':' then some (.long host)
  else if host = "localhost" then some (.short loopback)
  else (ofNumbers? host).map .short

end Address

/-- Why an address cannot be claimed. -/
inductive AddressFault where
  | unresolved (host : String)
  | inUse (a : Address)
  | notHere (a : Address)
deriving Repr, DecidableEq

namespace AddressFault

/-- What the program was about when it failed. -/
def attempt : AddressFault → String
  | unresolved host => "Failed to resolve " ++ host
  | inUse a | notHere a => "Failed to bind to " ++ a.text

/-- The text of the fault. -/
def message : AddressFault → String
  | unresolved _ => "failed to lookup address information: Temporary failure in name resolution"
  | inUse _ => "Address already in use (os error 98)"
  | notHere _ => "Cannot assign requested address (os error 99)"

end AddressFault

/-- Claims an address of the host. All addresses whose first byte is 127 are the host's own, and
0.0.0.0 stands for every one it has. -/
def HostView.claim (h : HostView) (host : String) (port : Nat) : Except AddressFault Address :=
  match Address.resolve? host with
  | none => .error (.unresolved host)
  | some (.long s) => .ok (.long s)
  | some (.short a) =>
    if a = 0 ∨ a = Address.loopback then
      if port ∈ h.taken then .error (.inUse (.short a)) else .ok (.short a)
    else if a.toNat / 16777216 = 127 then .ok (.short a)
    else .error (.notHere (.short a))

end ChatHub
