import Larder.Path
import Larder.Snapshot.Image

/-!
# Writing snapshots

A snapshot is written into a draft, which takes the place of the earlier snapshot only when it is
complete.  Bytes go through a buffer, and the number of entries, which stands in front and is known
only at the end, is put in last.  Each step of a writer asks for some file operations; what becomes
of the writer depends on whether they all succeed.
-/

namespace Larder.Snapshot

/-- How the file of a draft ends. -/
def draftEnding : String := "snap.tmp"

structure Draft where
  written : Nat := 0
  /-- The bytes that are not yet in the file. -/
  buffer : Bytes := []
  /-- The pieces of the body so far, the last one first. -/
  pieces : List Bytes := []
  count : Nat := 0
  deriving Repr, DecidableEq

namespace Draft

def capacity : Nat := 8192

/-- Puts all bytes from the buffer into the file. -/
def flush (file : String) (draft : Draft) : List FileOperation × Draft :=
  if draft.buffer = [] then ([], draft)
  else
    ([.write file draft.written draft.buffer],
      { draft with written := draft.written + draft.buffer.length, buffer := [] })

/-- Appends bytes.  The buffer is emptied when they do not fit, and bytes that would fill all of
it go straight into the file. -/
def append (file : String) (draft : Draft) (bytes : Bytes) : List FileOperation × Draft :=
  let (operations, room) :=
    if capacity < draft.buffer.length + bytes.length then draft.flush file else ([], draft)
  if capacity ≤ bytes.length then
    (operations ++ [.write file room.written bytes],
      { room with written := room.written + bytes.length })
  else (operations, { room with buffer := room.buffer ++ bytes })

def body (draft : Draft) : Bytes :=
  draft.pieces.reverse.flatten

end Draft

structure Writer where
  /-- The file that a complete snapshot goes to. -/
  file : String
  draft : Option Draft := none
  deriving Repr, DecidableEq

namespace Writer

structure Step where
  operations : List FileOperation
  done : Writer
  failed : Writer
  deriving Repr, DecidableEq

/-- The file that a draft is written to. -/
def draftFile (writer : Writer) : String :=
  Path.withEnding writer.file draftEnding

/-- Begins a draft.  One that was being written is given up after the new one has begun, and what
is in its buffer still goes to its place in the file. -/
def start (writer : Writer) : Step :=
  let file := writer.draftFile
  let late := match writer.draft with
    | some earlier => (earlier.flush file).1
    | none => []
  let (_, draft) := ({} : Draft).append file (Field.header.encode ++ Image.countBytes 0)
  { operations := [.prepare writer.file, .create file] ++ late
    done := { writer with draft := some draft }
    failed := writer }

/-- Appends a piece of the body, with a number of entries in it. -/
def append (writer : Writer) (count : Nat) (fields : List Field) : Except Error Step :=
  let oversized (field : Field) : Option Nat := match field with
    | .bytes content => if UInt32.size ≤ content.length then some content.length else none
    | _ => none
  match fields.findSome? oversized with
  | some length => .error (.unwritable length)
  | none =>
    match writer.draft with
    | none => .error .notOpen
    | some draft =>
      let piece := Image.encodeFields fields
      let (operations, draft) := draft.append writer.draftFile piece
      let draft :=
        { draft with pieces := piece :: draft.pieces, count := draft.count + count }
      .ok { operations, done := { writer with draft := some draft }, failed := writer }

def settings (writer : Writer) (name : String) (maxKeys : Nat) (offHeap : Bool) :
    Except Error Step :=
  writer.append 0 (Image.settingFields name maxKeys offHeap)

def entry (writer : Writer) (entry : Stash.Entry) : Except Error Step :=
  writer.append 1 (Image.entryFields entry)

/-- Completes the draft and puts it into its place.  Whether or not that succeeds, nothing is
being written any more. -/
def commit (writer : Writer) : Except Error Step :=
  match writer.draft with
  | none => .error .notOpen
  | some draft =>
    let file := writer.draftFile
    let (footer, whole) := draft.append file (Image.checksumBytes draft.count draft.body)
    let (rest, _) := whole.flush file
    let closed := { writer with draft := none }
    .ok { operations := footer ++ rest ++
            [.write file Image.countPlace (Image.countBytes draft.count), .sync file,
              .rename file writer.file]
          done := closed
          failed := closed }

variable {Store : Type} [FileStore Store]

def run (step : Step) (store : Store) : Except Error Unit × Writer × Store :=
  match FileStore.perform store step.operations with
  | (.ok (), next) => (.ok (), step.done, next)
  | (.error error, next) => (.error (.file error), step.failed, next)

/-- Gives up a draft and takes its file away, as far as that succeeds. -/
def close (writer : Writer) (store : Store) : Writer × Store :=
  match writer.draft with
  | none => (writer, store)
  | some _ =>
    ({ writer with draft := none }, (FileStore.apply store (.remove writer.draftFile)).2)

/-- Gives up a draft and takes the complete snapshot away, if there is one. -/
def delete (writer : Writer) (store : Store) : Except Error Unit × Writer × Store :=
  let (closed, store) := writer.close store
  match FileStore.apply store (.remove writer.file) with
  | (.ok (), next) => (.ok (), closed, next)
  | (.error .notFound, next) => (.ok (), closed, next)
  | (.error error, next) => (.error (.file error), closed, next)

end Writer

end Larder.Snapshot
