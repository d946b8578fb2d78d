import Larder.Bytes

/-!
# File operations

Files change by single operations.  Any of them may fail, and what carries them out is a file store;
operations in a row end with the first that fails.
-/

namespace Larder

inductive FileError where
  | notFound
  /-- The place is in use. -/
  | busy
  /-- A file is in the place of a folder. -/
  | exists
  /-- A file is used as a folder. -/
  | notADirectory
  /-- A folder is used as a file. -/
  | isADirectory
  | nameTooLong
  /-- No file name can hold a null character. -/
  | unusableName
  | broken
  deriving Repr, DecidableEq

/-- The message about a failed file operation. -/
def FileError.message : FileError → String
  | .notFound => "No such file or directory (os error 2)"
  | .busy => "Device or resource busy (os error 16)"
  | .exists => "File exists (os error 17)"
  | .notADirectory => "Not a directory (os error 20)"
  | .isADirectory => "Is a directory (os error 21)"
  | .nameTooLong => "File name too long (os error 36)"
  | .unusableName => "file name contained an unexpected NUL byte"
  | .broken => "Input/output error (os error 5)"

/-- A single operation on a file.  Files are named by texts. -/
inductive FileOperation where
  /-- Makes the folder that a file is to be in, with those above it, if it is missing. -/
  | prepare (file : String)
  /-- Makes a file empty, whether or not it was there. -/
  | create (file : String)
  /-- Puts bytes into a file at a place, over what was there. -/
  | write (file : String) (place : Nat) (bytes : Bytes)
  | sync (file : String)
  /-- Gives a file another name, in the place of a file of that name. -/
  | rename (source target : String)
  | remove (file : String)
  deriving Repr, DecidableEq

class FileStore (Store : Type) where
  /-- Carries out an operation, which may succeed or fail. -/
  apply : Store → FileOperation → Except FileError Unit × Store

def FileStore.perform {Store : Type} [FileStore Store] (store : Store) :
    List FileOperation → Except FileError Unit × Store
  | [] => (.ok (), store)
  | operation :: operations =>
    match FileStore.apply store operation with
    | (.ok (), next) => perform next operations
    | (.error error, next) => (.error error, next)

/-- The longest name of a file, in bytes. -/
def maxNameLength : Nat := 255

end Larder
