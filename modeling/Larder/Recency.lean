import Larder.Bytes
import Larder.FiniteMap

/-!
# Recency

Which of some keys was used least recently.  Every use of a key takes the next number of a growing
sequence, and the key with the smallest number is the one that was used least recently.
-/

namespace Larder

/-- Keys in the order of their last use. -/
structure Recency where
  /-- The number of the last use of each key. -/
  index : FiniteMap Bytes Nat := ∅
  /-- The key of each number, the greatest number in front. -/
  uses : FiniteMap Nat Bytes := ∅
  next : Nat := 0
  deriving Repr, DecidableEq

namespace Recency

/-- The keys in the order of their last use, the least recent one first. -/
def toList (recency : Recency) : List Bytes :=
  recency.uses.values.reverse

def size (recency : Recency) : Nat :=
  recency.index.size

def isEmpty (recency : Recency) : Bool :=
  recency.index.isEmpty

def use (recency : Recency) (key : Bytes) : Recency :=
  let uses := match recency.index.get? key with
    | some earlier => recency.uses.erase earlier
    | none => recency.uses
  { index := recency.index.insert key recency.next
    uses := uses.insert recency.next key
    next := recency.next + 1 }

/-- Whether a key is among the keys. -/
def contains (recency : Recency) (key : Bytes) : Bool :=
  recency.index.contains key

def erase (recency : Recency) (key : Bytes) : Recency :=
  match recency.index.get? key with
  | some number =>
    { recency with index := recency.index.erase key, uses := recency.uses.erase number }
  | none => recency

/-- Forgets a key, and tells whether it was among the keys. -/
def remove (recency : Recency) (key : Bytes) : Bool × Recency :=
  (recency.contains key, recency.erase key)

/-- The smallest number and the key that was used least recently. -/
def oldest? (recency : Recency) : Option (Nat × Bytes) :=
  recency.uses.entries.getLast?

/-- Takes away the key that was used least recently. -/
def evict? (recency : Recency) : Option (Bytes × Recency) :=
  recency.oldest?.map fun (number, key) =>
    (key, { recency with index := recency.index.erase key, uses := recency.uses.erase number })

/-- Forgets every key; numbers go on from where they are. -/
def clear (recency : Recency) : Recency :=
  { recency with index := ∅, uses := ∅ }

end Recency

end Larder
