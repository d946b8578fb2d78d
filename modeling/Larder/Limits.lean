import Larder.Bytes

/-!
# Size limits

What a server accepts: how long keys, values and stash names may be, how long a lifetime may last,
and, derived from those, how much a connection may leave unframed.
-/

namespace Larder

structure Limits where
  /-- The longest key, in bytes. -/
  maxKeyLength : Nat := 256
  /-- The longest value, in bytes. -/
  maxValueLength : Nat := 65536
  /-- The longest stash name, in bytes. -/
  maxNameLength : Nat := 64
  /-- The longest lifetime, in milliseconds. -/
  maxLifetime : Nat := 31536000000
  deriving Repr, DecidableEq

namespace Limits

/-- The most bytes that may wait to be framed: three keys and values of full length, as a number
of 64 bits. -/
def maxBuffered (limits : Limits) : Nat :=
  Word64.wrap (3 * (limits.maxKeyLength + limits.maxValueLength))

/-- The longest token that is framed.  Whatever fits in the buffer is, so that a key or value that
is too long is refused as such and does not end the connection. -/
def maxToken (limits : Limits) : Nat :=
  limits.maxBuffered

theorem maxToken_le_largest (limits : Limits) : limits.maxToken ≤ Word64.largest :=
  Word64.wrap_le_largest _

end Limits

/-- What a stash gets that is created without saying otherwise. -/
structure StashDefaults where
  /-- How many keys it holds at most. -/
  maxKeys : Nat := 1000000
  snapshots : Bool := false
  deriving Repr, DecidableEq

end Larder
