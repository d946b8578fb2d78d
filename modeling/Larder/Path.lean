/-!
# Paths

A path is cut at its slashes.  Nothing between two slashes, and a point there, lead nowhere; what
is left are names, and two points lead to the folder above.  A name without a slash is a path to
itself, as `cut_of_not_mem` says.
-/

namespace Larder.Path

/-- The pieces between the slashes of a text. -/
def cut : List Char → List (List Char)
  | [] => [[]]
  | character :: rest =>
    if character = '/' then [] :: cut rest
    else
      match cut rest with
      | [] => [[character]]
      | piece :: pieces => (character :: piece) :: pieces

theorem cut_of_not_mem {text : List Char} (plain : '/' ∉ text) : cut text = [text] := by
  induction text with
  | nil => rfl
  | cons character rest ih =>
    rw [List.mem_cons, not_or] at plain
    simp [cut, ih plain.2, Ne.symm plain.1]

def segments (path : String) : List String :=
  (cut path.toList).map String.ofList

def ofSegments (segments : List String) : String :=
  "/".intercalate segments

/-- Whether a segment leads nowhere. -/
def isIdle (segment : String) : Bool :=
  segment == "" || segment == "."

/-- Whether a path begins at the root. -/
def isAbsolute (path : String) : Bool :=
  path.toList.head? == some '/'

/-- A path that is taken apart at its last name. -/
structure Parts where
  /-- The segments in front of the name. -/
  front : List String
  name : String
  /-- The segments behind the name, which lead nowhere. -/
  behind : List String
  deriving Repr, DecidableEq

/-- Takes a path apart, if there is a name in it. -/
def parts? (path : String) : Option Parts :=
  let backwards := (segments path).reverse
  match backwards.dropWhile isIdle with
  | [] => none
  | name :: front =>
    some { front := front.reverse, name, behind := (backwards.takeWhile isIdle).reverse }

/-- The name that a path means in a folder, if it leads to nothing but a name in it. -/
def inFolder? (path : String) : Option String :=
  match parts? path with
  | some { front, name, behind } =>
    if front.all isIdle && behind.isEmpty && name != ".." && !isAbsolute path then some name
    else none
  | none => none

/-- A path that is followed from a folder, given by the names that lead to it from the root. -/
def within (folder : List String) (path : String) : String :=
  if isAbsolute path then path else "/" ++ ofSegments (folder ++ [path])

/-- Splits a name at its last point.  A point in front of everything does not count. -/
def splitName (name : String) : String × Option String :=
  let characters := name.toList
  let ending := (characters.reverse.takeWhile (· ≠ '.')).reverse
  let stem := characters.take (characters.length - ending.length - 1)
  if ending.length = characters.length ∨ stem = [] ∨ name = ".." then (name, none)
  else (String.ofList stem, some (String.ofList ending))

/-- Puts another ending behind the stem of the last name, and leaves off what is behind it.  Two
points are no name that could have an ending.  They also are what is left of a name at the end of a
path that has a single point for a stem. -/
def withEnding (path ending : String) : String :=
  match parts? path with
  | none => path
  | some { front, name, behind } =>
    let stem := (splitName name).1
    if name = ".." then path
    else if stem = "." ∧ behind = [] then ofSegments (front ++ [".."])
    else ofSegments (front ++ [stem ++ "." ++ ending])

end Larder.Path
