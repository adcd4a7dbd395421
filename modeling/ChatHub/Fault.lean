/-!
# What can go wrong

Every failure of the relay is one of ten causes. The first three stop the relay from starting, the
rest end or refuse one session. The wording lives in `Fault.message` and nowhere else.
-/

namespace ChatHub

/-- The cause of a failure. -/
inductive Fault where
  /-- A pool of no workers was asked for. -/
  | poolSize
  /-- A cache of no entries was asked for. -/
  | cacheCapacity
  /-- A rotation of no length was asked for. -/
  | timeQuantum
  /-- A task came after the pool had been stopped. -/
  | poolStopped
  /-- The transport failed. -/
  | transport (text : String)
  /-- The peer closed the connection before it had said who it is. -/
  | closed
  /-- The peer did not say in time who it is. -/
  | handshakeTimeout
  /-- The peer's user id cannot be used. -/
  | badUser (reason : String)
  /-- The peer broke the record format. -/
  | protocol (reason : String)
  /-- The relay broke one of its own rules. -/
  | internal (reason : String)
deriving Repr, DecidableEq

namespace Fault

/-- The text of a failure. -/
def message : Fault → String
  | poolSize => "Worker pool size must be positive"
  | cacheCapacity => "Cache capacity must be positive"
  | timeQuantum => "Time quantum must be positive"
  | poolStopped => "Cannot enqueue task on stopped worker pool"
  | transport text => "IO Error: " ++ text
  | closed => "Connection closed by peer"
  | handshakeTimeout => "Timed out waiting for the identity handshake"
  | badUser reason => "Invalid user id: " ++ reason
  | protocol reason => "Protocol error: " ++ reason
  | internal reason => "Internal Server Error: " ++ reason

/-- Whether the failure stops the relay from starting, instead of one session. -/
def stopsStartup : Fault → Bool
  | poolSize | cacheCapacity | timeQuantum => true
  | _ => false

end Fault

end ChatHub
