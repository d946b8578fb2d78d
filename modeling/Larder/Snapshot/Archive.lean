import Larder.Disk
import Larder.Snapshot.Writer

/-!
# The archive

The archive is the directory of saved stashes.  The file of a stash is named for the bytes of its
name, so any name will do.  Saving reads the entries, writes them to a draft and puts that in the
place of the earlier file; only then it is seen whether the stash was dropped meanwhile, and the
file of a dropped stash is taken away again.
-/

namespace Larder.Archive

open Snapshot

def ending : String := "snap"

/-- Two hexadecimal digits for a byte. -/
def hexByte (byte : UInt8) : List Char :=
  [Nat.digitChar (byte.toNat / 16), Nat.digitChar (byte.toNat % 16)]

def fileName (name : String) : String :=
  String.ofList ((Bytes.ofText name).flatMap hexByte) ++ "." ++ ending

/-- The writer of the file of a stash. -/
def writer (name : String) : Writer :=
  { file := fileName name }

def imageOf (stash : Stash) (entries : List Stash.Entry) : Image :=
  { name := stash.name
    maxKeys := stash.options.maxKeys
    offHeap := stash.options.offHeap
    entries := entries }

/-- The steps of a writer that write an image. -/
def steps (image : Image) : List (Writer → Except Error Writer.Step) :=
  [fun writer => .ok writer.start,
    fun writer => writer.settings image.name image.maxKeys image.offHeap] ++
  image.entries.map (fun entry writer => writer.entry entry) ++
  [Writer.commit]

/-- Carries out steps of a writer until one fails. -/
def runSteps (writer : Writer) (disk : Disk) :
    List (Writer → Except Error Writer.Step) → Except Error Unit × Writer × Disk
  | [] => (.ok (), writer, disk)
  | step :: steps =>
    match step writer with
    | .error error => (.error error, writer, disk)
    | .ok step =>
      match Writer.run step disk with
      | (.ok (), next, disk) => runSteps next disk steps
      | (.error error, next, disk) => (.error error, next, disk)

/-- Writes an image to its file.  A draft that is not completed is given up. -/
def write (disk : Disk) (image : Image) : Except Error Unit × Disk :=
  let (result, last, disk) := runSteps (writer image.name) disk (steps image)
  (result, (last.close disk).2)

/-- Takes the file of a stash away, if there is one. -/
def delete (disk : Disk) (name : String) : Except Error Unit × Disk :=
  let (result, _, disk) := (writer name).delete disk
  (result, disk)

/-- Takes the file of a stash away that was dropped while it was saved.  Says how many entries
are saved. -/
def confirm (disk : Disk) (name : String) (dropped : Bool) (count : Nat) :
    Except Error Nat × Disk :=
  if dropped then
    let (result, disk) := delete disk name
    (result.map fun () => 0, disk)
  else (.ok count, disk)

/-- Saves a stash and counts its entries.  Of a dropped stash nothing is saved. -/
def save (disk : Disk) (now : Nat) (stash : Stash) : Except Error Nat × Disk :=
  match stash.entries now with
  | .error .closed => (.ok 0, disk)
  | .ok entries =>
    match write disk (imageOf stash entries) with
    | (.error error, disk) => (.error error, disk)
    | (.ok (), disk) => confirm disk stash.name stash.isClosed entries.length

def load (directory : Directory) (now : Nat) (file : String) : Except Error Image := do
  let content ← (directory.read file).mapError .file
  Image.read now content

/-- Makes the directory, if it is missing. -/
def prepare (disk : Disk) : Except FileError Unit × Disk :=
  disk.apply (.prepare (fileName ""))

/-- Whether a file is one of a stash. -/
def isSnapshot (file : String) : Bool :=
  (Path.splitName file).2 = some ending

/-- Reads the files of all stashes.  Those that cannot be read are passed over, and a missing
directory has none. -/
def loadAll (directory : Directory) (now : Nat) : Except Error (List Image) :=
  match directory with
  | .obstructed => .error (.file .notADirectory)
  | _ =>
    .ok ((directory.listing.filter isSnapshot).filterMap
      fun file => (load directory now file).toOption)

end Larder.Archive
