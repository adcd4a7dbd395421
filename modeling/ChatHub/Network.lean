/-!
# The network of a host

A host's network carries connections or it does not. When it is down a program can still listen, but
nobody gets through to anybody, not even within the host.
-/

namespace ChatHub

/-- Whether the network of a host carries connections. -/
inductive Network where
  | up
  | down
deriving Repr, DecidableEq

end ChatHub
