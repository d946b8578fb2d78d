import Larder.Proofs.Stash.Operation

/-!
# Ledgers

A ledger is what a stash looks like from outside: a list of records with different keys, the one
that was used last in front, and a bound for their number.  `Ledger.Step` says what a ledger
answers to a call and what becomes of it.  The rules leave open in which order records are listed,
which of more due records a batch takes, and whether the stash changed since it was last saved.
-/

namespace Larder.Stash

/-- Whether the lifetime of an entry is not over. -/
def Entry.isLive (now : Nat) (entry : Entry) : Bool :=
  entry.expiresAt.all (now < ·)

theorem Entry.isLive_of_le {entry : Entry} {now later : Nat} (ordered : now ≤ later)
    (live : entry.isLive later = true) : entry.isLive now = true := by
  rw [isLive, Option.all_eq_true] at live ⊢
  intro time known
  have := live time known
  rw [decide_eq_true_eq] at this ⊢
  omega

/-- Who is left later is not gone before. -/
theorem filter_isLive_of_le {entries : List Entry} {now later : Nat} (ordered : now ≤ later) :
    (entries.filter (Entry.isLive now)).filter (Entry.isLive later) =
      entries.filter (Entry.isLive later) := by
  rw [List.filter_filter]
  apply List.filter_congr
  intro entry _
  cases live : entry.isLive later with
  | false => rfl
  | true => rw [Entry.isLive_of_le ordered live, Bool.and_self]

/-- Records with different keys, the one that was used last in front. -/
structure Ledger where
  limit : Nat
  records : List Entry
  distinct : (records.map Entry.key).Nodup

namespace Ledger

def empty (limit : Nat) : Ledger where
  limit := limit
  records := []
  distinct := List.nodup_nil

def find? (ledger : Ledger) (key : Bytes) : Option Entry :=
  ledger.records.find? fun record => record.key = key

/-- The record of a key, if its lifetime is not over. -/
def live? (ledger : Ledger) (now : Nat) (key : Bytes) : Option Entry :=
  (ledger.find? key).filter (Entry.isLive now)

def due (ledger : Ledger) (now : Nat) : List Entry :=
  ledger.records.filter fun record => !record.isLive now

/-- The ledger without the records of some keys. -/
def without (ledger : Ledger) (keys : List Bytes) : Ledger where
  limit := ledger.limit
  records := ledger.records.filter fun record => record.key ∉ keys
  distinct := ledger.distinct.sublist (List.filter_sublist.map _)

/-- The ledger with a record in front, in the place of an earlier one of its key. -/
def toFront (ledger : Ledger) (record : Entry) : Ledger where
  limit := ledger.limit
  records := record :: (ledger.without [record.key]).records
  distinct := by
    refine List.nodup_cons.mpr ⟨?_, (ledger.without [record.key]).distinct⟩
    simp [without]

def cut (ledger : Ledger) : Ledger where
  limit := ledger.limit
  records := ledger.records.take ledger.limit
  distinct := ledger.distinct.sublist ((List.take_sublist _ _).map _)

/-- The ledger with a new record in front, cut to its bound. -/
def store (ledger : Ledger) (record : Entry) : Ledger :=
  (ledger.toFront record).cut

/-- The ledger in which a key has another lifetime; every record keeps its place. -/
def renew (ledger : Ledger) (key : Bytes) (time : Nat) : Ledger where
  limit := ledger.limit
  records := ledger.records.map fun record =>
    if record.key = key then { record with expiresAt := some time } else record
  distinct := by
    have sameKeys : (ledger.records.map fun record =>
        if record.key = key then { record with expiresAt := some time } else record).map Entry.key =
          ledger.records.map Entry.key := by
      rw [List.map_map]
      apply List.map_congr_left
      intro record _
      rw [Function.comp_apply]
      split <;> rfl
    rw [sameKeys]
    exact ledger.distinct

/-- One call, its answer and the ledger afterwards; there is none once the stash is dropped. -/
inductive Step (now : Nat) : Option Ledger → Call → Except Error Answer → Option Ledger → Prop where
  /-- A lifetime that is not over is kept. -/
  | set (ledger : Ledger) (key value : Bytes) :
      Step now (some ledger) (.set key value) (.ok .done)
        (some (ledger.store ⟨key, value, (ledger.live? now key).bind Entry.expiresAt⟩))
  | setWithTtl (ledger : Ledger) (key value : Bytes) (ttl : Nat) :
      Step now (some ledger) (.setWithTtl key value ttl) (.ok .done)
        (some (ledger.store ⟨key, value, some (Word64.addSaturating now ttl)⟩))
  | restore (ledger : Ledger) (entry : Entry) :
      Step now (some ledger) (.restore entry) (.ok .done) (some (ledger.store entry))
  | getLive {ledger : Ledger} {key : Bytes} (record : Entry)
      (live : ledger.live? now key = some record) :
      Step now (some ledger) (.get key) (.ok (.value (some record.value)))
        (some (ledger.toFront record))
  /-- A record whose lifetime is over is taken out, and a missing one stays missing. -/
  | getNone {ledger : Ledger} {key : Bytes} (absent : ledger.live? now key = none) :
      Step now (some ledger) (.get key) (.ok (.value none)) (some (ledger.without [key]))
  | peek (ledger : Ledger) (key : Bytes) :
      Step now (some ledger) (.peek key) (.ok (.value ((ledger.live? now key).map Entry.value)))
        (some ledger)
  | contains (ledger : Ledger) (key : Bytes) :
      Step now (some ledger) (.contains key) (.ok (.flag (ledger.live? now key).isSome))
        (some ledger)
  | delete (ledger : Ledger) (key : Bytes) :
      Step now (some ledger) (.delete key) (.ok (.flag (ledger.find? key).isSome))
        (some (ledger.without [key]))
  | updateLive {ledger : Ledger} {key : Bytes} (ttl : Nat)
      (live : (ledger.live? now key).isSome) :
      Step now (some ledger) (.updateTtl key ttl) (.ok (.flag true))
        (some (ledger.renew key (Word64.addSaturating now ttl)))
  | updateNone {ledger : Ledger} {key : Bytes} (ttl : Nat) (absent : ledger.live? now key = none) :
      Step now (some ledger) (.updateTtl key ttl) (.ok (.flag false)) (some ledger)
  /-- There is never more than the bound allows. -/
  | evictKeys (ledger : Ledger) :
      Step now (some ledger) .evictKeys (.ok (.count 0)) (some ledger)
  /-- A batch is full unless it takes every record that is due. -/
  | expireKeys {ledger : Ledger} {batch : List Bytes} (distinct : batch.Nodup)
      (due : ∀ key ∈ batch, key ∈ (ledger.due now).map Entry.key)
      (full : batch.length = min ExpiryWheel.defaultBatchLimit (ledger.due now).length) :
      Step now (some ledger) .expireKeys (.ok (.count batch.length)) (some (ledger.without batch))
  | entries {ledger : Ledger} {listed : List Entry}
      (all : listed.Perm (ledger.records.filter (Entry.isLive now))) :
      Step now (some ledger) .entries (.ok (.entries listed)) (some ledger)
  | size (ledger : Ledger) :
      Step now (some ledger) .size (.ok (.count ledger.records.length)) (some ledger)
  | takeDirty (ledger : Option Ledger) (dirty : Bool) :
      Step now ledger .takeDirty (.ok (.flag dirty)) ledger
  | close (ledger : Option Ledger) : Step now ledger .close (.ok .done) none
  | closed {call : Call} (notDirty : call ≠ .takeDirty) (notClose : call ≠ .close) :
      Step now none call (.error .closed) none

inductive Run : Option Ledger → List (Nat × Call) → List (Except Error Answer) →
    Option Ledger → Prop where
  | nil (ledger : Option Ledger) : Run ledger [] [] ledger
  | cons {ledger next last : Option Ledger} {now : Nat} {call : Call} {calls : List (Nat × Call)}
      {answer : Except Error Answer} {answers : List (Except Error Answer)}
      (first : Step now ledger call answer next) (rest : Run next calls answers last) :
      Run ledger ((now, call) :: calls) (answer :: answers) last

end Ledger

end Larder.Stash
