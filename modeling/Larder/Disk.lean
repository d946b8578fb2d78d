import Larder.FileOperation
import Larder.FiniteMap

/-!
# The disk

Stashes are saved in one directory, which holds files and nothing else.  It may be missing, or a
plain file may stand in its place.  A failed operation changes nothing.  Files are listed in the
order in which they got their names.
-/

namespace Larder

/-- What is at the place of the directory. -/
inductive Directory where
  | missing
  /-- A plain file. -/
  | obstructed
  | present (files : FiniteMap String Bytes)
  deriving Repr, DecidableEq

namespace Directory

/-- The files, as far as there are any. -/
def files : Directory → FiniteMap String Bytes
  | .present files => files
  | _ => ∅

/-- The names of the files, the one that was given first in front. -/
def listing (directory : Directory) : List String :=
  directory.files.keys.reverse

/-- The error of looking for something in what is no directory. -/
def access : Directory → Except FileError (FiniteMap String Bytes)
  | .present files => .ok files
  | .missing => .error .notFound
  | .obstructed => .error .notADirectory

/-- Checks that a file may have a name. -/
def checkName (file : String) : Except FileError Unit :=
  if maxNameLength < file.utf8ByteSize then .error .nameTooLong else .ok ()

def read (directory : Directory) (file : String) : Except FileError Bytes := do
  let files ← directory.access
  checkName file
  match files.get? file with
  | some content => .ok content
  | none => .error .notFound

/-- Carries out an operation.  All files are in the directory itself.  One that was taken away while
it was open can still be written to, and nobody will see it. -/
def apply (directory : Directory) : FileOperation → Except FileError Directory
  | .prepare _ =>
    match directory with
    | .missing => .ok (.present ∅)
    | .obstructed => .error .exists
    | .present files => .ok (.present files)
  | .create file => do
    let files ← directory.access
    checkName file
    return .present (files.put file [])
  | .write file place bytes =>
    match directory.files.get? file with
    | some content => .ok (.present (directory.files.put file (content.overwrite place bytes)))
    | none => .ok directory
  | .sync _ => .ok directory
  | .rename source target => do
    let files ← directory.access
    checkName target
    match files.get? source with
    | some content => .ok (.present ((files.erase source).insert target content))
    | none => .error .notFound
  | .remove file => do
    let files ← directory.access
    checkName file
    if files.contains file then .ok (.present (files.erase file)) else .error .notFound

end Directory

/-- A directory, and the failures that its next operations will meet. -/
structure Disk where
  directory : Directory := .missing
  /-- For each of the next operations, why it fails, if it does; later ones work. -/
  faults : List (Option FileError) := []
  deriving Repr, DecidableEq

/-- Carries out an operation, unless it is to fail. -/
def Disk.apply (disk : Disk) (operation : FileOperation) : Except FileError Unit × Disk :=
  let faults := disk.faults.tail
  match disk.faults.head?.join with
  | some error => (.error error, { disk with faults })
  | none =>
    match disk.directory.apply operation with
    | .ok directory => (.ok (), { directory, faults })
    | .error error => (.error error, { disk with faults })

instance : FileStore Disk where
  apply := Disk.apply

end Larder
