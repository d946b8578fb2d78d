import Larder.Bytes
import Larder.FiniteMap

/-!
# The expiry wheel

When the lifetime of each key is over.  Times fall into windows of one minute, and the windows into
the buckets of a wheel that turns once a day.  Keys that are due are taken out in batches: the
wheel turns from where the last batch ended, and stops when the batch is full or it has turned
once.  A key whose lifetime is longer than a turn stays in its bucket until it is due.

Times are in milliseconds since the epoch.
-/

namespace Larder

/-- A time with the key whose lifetime is over then. -/
abbrev Expiry := Nat × Bytes

/-- The order of a bucket: by time, then by key. -/
def Expiry.before (left right : Expiry) : Bool :=
  left.1 < right.1 || (left.1 == right.1 && decide (left.2 < right.2))

/-- When the lifetimes of keys are over. -/
structure ExpiryWheel where
  /-- The buckets that are not empty, each in order. -/
  buckets : FiniteMap Nat (List Expiry) := ∅
  /-- When the lifetime of each key is over. -/
  index : FiniteMap Bytes Nat := ∅
  /-- The bucket at which the next batch starts. -/
  cursor : Nat
  batchLimit : Nat
  deriving Repr, DecidableEq

namespace ExpiryWheel

def bucketCount : Nat := 1440

/-- How many milliseconds fall into one window. -/
def window : Nat := 60000

/-- The most keys in a batch, unless said otherwise. -/
def defaultBatchLimit : Nat := 100

def bucketOf (time : Nat) : Nat :=
  time / window % bucketCount

/-- An empty wheel that starts turning at the bucket of the present; a batch holds at least one
key. -/
def empty (now batchLimit : Nat) : ExpiryWheel :=
  { cursor := bucketOf now, batchLimit := max 1 batchLimit }

def bucket (wheel : ExpiryWheel) (place : Nat) : List Expiry :=
  (wheel.buckets.get? place).getD []

def setBucket (wheel : ExpiryWheel) (place : Nat) (content : List Expiry) : ExpiryWheel :=
  { wheel with
    buckets := if content = [] then wheel.buckets.erase place
      else wheel.buckets.insert place content }

def size (wheel : ExpiryWheel) : Nat :=
  wheel.index.size

def isEmpty (wheel : ExpiryWheel) : Bool :=
  wheel.index.isEmpty

/-- When the lifetime of a key is over, if it has one. -/
def time? (wheel : ExpiryWheel) (key : Bytes) : Option Nat :=
  wheel.index.get? key

/-- Whether the lifetime of a key is over. -/
def isExpired (wheel : ExpiryWheel) (now : Nat) (key : Bytes) : Bool :=
  (wheel.time? key).any (· ≤ now)

/-- Puts an entry into its place in a bucket. -/
def place (entry : Expiry) : List Expiry → List Expiry
  | [] => [entry]
  | first :: rest =>
    if entry.before first then entry :: first :: rest else first :: place entry rest

def erase (wheel : ExpiryWheel) (key : Bytes) : ExpiryWheel :=
  match wheel.time? key with
  | some time =>
    let without := (wheel.bucket (bucketOf time)).filter (· ≠ (time, key))
    { wheel.setBucket (bucketOf time) without with index := wheel.index.erase key }
  | none => wheel

/-- Forgets the lifetime of a key, and tells whether it had one. -/
def remove (wheel : ExpiryWheel) (key : Bytes) : Bool × ExpiryWheel :=
  ((wheel.time? key).isSome, wheel.erase key)

/-- Sets when the lifetime of a key is over. -/
def insert (wheel : ExpiryWheel) (key : Bytes) (time : Nat) : ExpiryWheel :=
  let others := wheel.erase key
  let content := place (time, key) (others.bucket (bucketOf time))
  { others.setBucket (bucketOf time) content with index := others.index.insert key time }

/-- Gives a key a lifetime from now on. -/
def add (wheel : ExpiryWheel) (now : Nat) (key : Bytes) (ttl : Nat) : ExpiryWheel :=
  wheel.insert key (Word64.addSaturating now ttl)

/-- The entries at the front of a bucket that are due, at most a given number of them. -/
def due (now room : Nat) (content : List Expiry) : List Expiry :=
  (content.take room).takeWhile (·.1 ≤ now)

/-- Takes due entries away from the front of the bucket at the cursor. -/
def takeDue (wheel : ExpiryWheel) (taken : List Expiry) : ExpiryWheel :=
  let content := (wheel.bucket wheel.cursor).drop taken.length
  { wheel.setBucket wheel.cursor content with
    index := taken.foldl (fun index entry => index.erase entry.2) wheel.index }

/-- The wheel turned on by one bucket. -/
def advance (wheel : ExpiryWheel) : ExpiryWheel :=
  { wheel with cursor := (wheel.cursor + 1) % bucketCount }

/-- Turns the wheel through a number of buckets, or until the batch is full. -/
def turn (now : Nat) : Nat → ExpiryWheel → List Bytes → List Bytes × ExpiryWheel
  | 0, wheel, batch => (batch, wheel)
  | buckets + 1, wheel, batch =>
    let taken := due now (wheel.batchLimit - batch.length) (wheel.bucket wheel.cursor)
    let rest := if taken = [] then wheel else wheel.takeDue taken
    let batch := batch ++ taken.map Prod.snd
    if wheel.batchLimit ≤ batch.length then (batch, rest)
    else turn now buckets rest.advance batch

/-- Takes out a batch of keys that are due. -/
def expire (wheel : ExpiryWheel) (now : Nat) : List Bytes × ExpiryWheel :=
  if wheel.isEmpty then ([], wheel) else turn now bucketCount wheel []

/-- Forgets every lifetime; the wheel stays where it is. -/
def clear (wheel : ExpiryWheel) : ExpiryWheel :=
  { wheel with buckets := ∅, index := ∅ }

end ExpiryWheel

end Larder
