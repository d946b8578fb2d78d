import Larder.ExpiryWheel
import Larder.Recency

/-!
# Stashes

A stash holds values under keys.  Three structures share its keys: the values, the lifetimes of
the keys that have one, and the order of use of all keys.  A stash with more keys than its limit
gives up those used least recently.  A key whose lifetime is over reads as missing, whether or not
it has been taken out.  A stash that is dropped has no contents, and no operation on it succeeds.

A stash that is saved to disk remembers whether it changed since it was last saved.
-/

namespace Larder

namespace Stash

structure Options where
  /-- How many keys it holds at most. -/
  maxKeys : Nat := 1000000
  snapshots : Bool := false
  /-- A remark for clients; it changes nothing. -/
  offHeap : Bool := false
  deriving Repr, DecidableEq

/-- A key with its value and when its lifetime is over, if it has one. -/
structure Entry where
  key : Bytes
  value : Bytes
  expiresAt : Option Nat
  deriving Repr, DecidableEq

/-- What a stash that is not dropped holds. -/
structure Contents where
  values : FiniteMap Bytes Bytes := ∅
  /-- The lifetimes. -/
  expiry : ExpiryWheel
  /-- The order of use. -/
  recency : Recency := {}
  deriving Repr, DecidableEq

namespace Contents

def empty (now : Nat) : Contents :=
  { expiry := .empty now ExpiryWheel.defaultBatchLimit }

/-- Whether the lifetime of a key is over. -/
def isExpired (contents : Contents) (now : Nat) (key : Bytes) : Bool :=
  contents.expiry.isExpired now key

/-- Takes a key out of all three structures. -/
def erase (contents : Contents) (key : Bytes) : Contents where
  values := contents.values.erase key
  expiry := contents.expiry.erase key
  recency := contents.recency.erase key

/-- Takes out the keys used least recently until at most a given number is left, or until the
given number of rounds is over.  Counts the keys. -/
def evictRounds (limit : Nat) : Nat → Contents → Nat × Contents
  | 0, contents => (0, contents)
  | rounds + 1, contents =>
    if contents.values.size ≤ limit then (0, contents)
    else
      match contents.recency.evict? with
      | none => (0, contents)
      | some (victim, recency) =>
        let (count, rest) := evictRounds limit rounds
          { values := contents.values.erase victim
            expiry := contents.expiry.erase victim
            recency := recency }
        (count + 1, rest)

/-- Takes out the keys used least recently until at most a given number is left.  No round is
needed once no key has an order of use. -/
def evict (contents : Contents) (limit : Nat) : Nat × Contents :=
  evictRounds limit contents.recency.size contents

/-- Stores a value; the key is used, and the lifetimes are given. -/
def store (contents : Contents) (limit : Nat) (key value : Bytes) (expiry : ExpiryWheel) :
    Contents :=
  let stored : Contents :=
    { values := contents.values.insert key value
      expiry := expiry
      recency := contents.recency.use key }
  (stored.evict limit).2

/-- The entry of a key and its value. -/
def entry (contents : Contents) (key value : Bytes) : Entry :=
  { key, value, expiresAt := contents.expiry.time? key }

/-- The entries whose lifetime is not over. -/
def entries (contents : Contents) (now : Nat) : List Entry :=
  (contents.values.entries.filter fun (key, _) => !contents.isExpired now key).map
    fun (key, value) => contents.entry key value

end Contents

/-- Why an operation on a stash fails. -/
inductive Error where
  | closed
  deriving Repr, DecidableEq

def Error.message : Error → String
  | .closed => "DB_CLOSED"

end Stash

structure Stash where
  name : String
  options : Stash.Options
  /-- What it holds, unless it is dropped. -/
  contents : Option Stash.Contents
  /-- Whether it changed since it was last saved. -/
  dirty : Bool := false
  deriving Repr, DecidableEq

namespace Stash

/-- A new stash, which holds nothing.  It has room for at least one key. -/
def create (now : Nat) (name : String) (options : Options) : Stash :=
  { name
    options := { options with maxKeys := max 1 options.maxKeys }
    contents := some (.empty now) }

def isClosed (stash : Stash) : Bool :=
  stash.contents.isNone

/-- What the stash holds, unless it is dropped. -/
def open? (stash : Stash) : Except Error Contents :=
  match stash.contents with
  | some contents => .ok contents
  | none => .error .closed

/-- Remembers a change, if the stash is saved to disk. -/
def markDirty (stash : Stash) : Stash :=
  { stash with dirty := stash.dirty || stash.options.snapshots }

/-- Whether the stash changed since it was last saved; from now on it counts as saved. -/
def takeDirty (stash : Stash) : Bool × Stash :=
  (stash.dirty, { stash with dirty := false })

def withContents (stash : Stash) (contents : Contents) : Stash :=
  { stash with contents := some contents }

/-- Stores a value.  A lifetime that is not over yet is kept. -/
def set (stash : Stash) (now : Nat) (key value : Bytes) : Except Error Stash := do
  let contents ← stash.open?
  let expiry :=
    if contents.isExpired now key then contents.expiry.erase key else contents.expiry
  return (stash.withContents (contents.store stash.options.maxKeys key value expiry)).markDirty

/-- Stores a value with a lifetime from now on. -/
def setWithTtl (stash : Stash) (now : Nat) (key value : Bytes) (ttl : Nat) :
    Except Error Stash := do
  let contents ← stash.open?
  let expiry := contents.expiry.add now key ttl
  return (stash.withContents (contents.store stash.options.maxKeys key value expiry)).markDirty

/-- The value of a key, and nothing else. -/
def peek (stash : Stash) (now : Nat) (key : Bytes) : Except Error (Option Bytes) := do
  let contents ← stash.open?
  return if contents.isExpired now key then none else contents.values.get? key

/-- The value of a key, which is used by this.  A key whose lifetime is over is taken out. -/
def get (stash : Stash) (now : Nat) (key : Bytes) : Except Error (Option Bytes × Stash) := do
  let contents ← stash.open?
  if contents.isExpired now key then
    return (none, (stash.withContents (contents.erase key)).markDirty)
  else
    match contents.values.get? key with
    | some value =>
      return (some value, stash.withContents { contents with recency := contents.recency.use key })
    | none => return (none, stash)

def contains (stash : Stash) (now : Nat) (key : Bytes) : Except Error Bool := do
  let contents ← stash.open?
  return contents.values.contains key && !contents.isExpired now key

/-- Takes a key out, and says whether it was there. -/
def delete (stash : Stash) (key : Bytes) : Except Error (Bool × Stash) := do
  let contents ← stash.open?
  let rest := stash.withContents (contents.erase key)
  if contents.values.contains key then return (true, rest.markDirty) else return (false, rest)

/-- Gives a key that has a value another lifetime from now on, and says whether there was one.  One
reading of the clock tells whether the earlier lifetime is over and when the new one ends; a clock
that is read twice may have moved on between the two. -/
def updateTtl (stash : Stash) (now : Nat) (key : Bytes) (ttl : Nat) :
    Except Error (Bool × Stash) := do
  let contents ← stash.open?
  if contents.values.contains key && !contents.isExpired now key then
    let expiry := contents.expiry.add now key ttl
    return (true, (stash.withContents { contents with expiry }).markDirty)
  else return (false, stash)

/-- Takes out keys beyond the limit and counts them. -/
def evictKeys (stash : Stash) : Except Error (Nat × Stash) := do
  let contents ← stash.open?
  let (count, rest) := contents.evict stash.options.maxKeys
  return (count, stash.withContents rest)

/-- Takes out one batch of keys whose lifetime is over and counts them. -/
def expireKeys (stash : Stash) (now : Nat) : Except Error (Nat × Stash) := do
  let contents ← stash.open?
  let (batch, expiry) := contents.expiry.expire now
  let rest := stash.withContents
    { values := batch.foldl .erase contents.values
      expiry := expiry
      recency := batch.foldl .erase contents.recency }
  return (batch.length, if batch = [] then rest else rest.markDirty)

/-- How many keys there are, those included whose lifetime is over and that are not taken out. -/
def size (stash : Stash) : Except Error Nat := do
  let contents ← stash.open?
  return contents.values.size

def close (stash : Stash) : Stash :=
  { stash with contents := none }

def info (stash : Stash) : Except Error String := do
  let contents ← stash.open?
  return String.join
    ["# Stash\r\n",
      "name:", stash.name, "\r\n",
      "keys:", toString contents.values.size, "\r\n",
      "max_keys:", toString stash.options.maxKeys, "\r\n",
      "keys_with_ttl:", toString contents.expiry.size, "\r\n",
      "snapshots:", toString stash.options.snapshots, "\r\n",
      "off_heap:", toString stash.options.offHeap, "\r\n"]

/-- The entries whose lifetime is not over. -/
def entries (stash : Stash) (now : Nat) : Except Error (List Entry) := do
  let contents ← stash.open?
  return contents.entries now

/-- Puts back an entry that was saved.  This is no change that would have to be saved. -/
def restore (stash : Stash) (entry : Entry) : Except Error Stash := do
  let contents ← stash.open?
  let expiry := match entry.expiresAt with
    | some time => contents.expiry.insert entry.key time
    | none => contents.expiry.erase entry.key
  return stash.withContents (contents.store stash.options.maxKeys entry.key entry.value expiry)

end Stash

end Larder
