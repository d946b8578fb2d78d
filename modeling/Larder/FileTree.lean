import Larder.FileOperation
import Larder.FiniteMap
import Larder.Path

/-!
# File trees

A tree of folders and files, in which files are found by paths.  A path is followed from folder to
folder, so every folder on the way has to be there, even where two points lead back.  A path that
ends in points means a folder; one that ends in a slash means a folder too, which is noticed only
after its name has been looked up.
-/

namespace Larder

/-- What is at a place in a tree. -/
inductive Node where
  | folder
  | file (content : Bytes)
  deriving Repr, DecidableEq

/-- Places with what is there.  A place is given by the names that lead to it from the root. -/
structure FileTree where
  nodes : FiniteMap (List String) Node := ∅
  deriving Repr, DecidableEq

namespace FileTree

/-- A path has to be shorter than this, in bytes. -/
def pathLimit : Nat := 4096

/-- A tree of the folders above a place and nothing else. -/
def above (place : List String) : FileTree :=
  { nodes := (List.range place.length).foldl
      (fun nodes depth => nodes.put (place.take depth) .folder) ∅ }

/-- What is at a place.  The root is always there. -/
def node? (tree : FileTree) (place : List String) : Option Node :=
  if place = [] then some .folder else tree.nodes.get? place

/-- The tree with something put to a place. -/
def put (tree : FileTree) (place : List String) (node : Node) : FileTree :=
  { nodes := tree.nodes.put place node }

def names (tree : FileTree) (folder : List String) : List String :=
  (tree.nodes.keys.filter fun place => place ≠ [] ∧ place.dropLast = folder).filterMap
    List.getLast?

/-- Follows segments of a path from folder to folder. -/
def walk (tree : FileTree) (place : List String) : List String → Except FileError (List String)
  | [] => .ok place
  | segment :: segments =>
    if Path.isIdle segment then tree.walk place segments
    else if segment = ".." then tree.walk place.dropLast segments
    else if maxNameLength < segment.utf8ByteSize then .error .nameTooLong
    else
      match tree.node? (place ++ [segment]) with
      | none => .error .notFound
      | some (.file _) => .error .notADirectory
      | some .folder => tree.walk (place ++ [segment]) segments

inductive Goal where
  /-- A folder that is there. -/
  | folder
  /-- A place for a name in a folder that is there, and whether there is a slash behind it. -/
  | entry (place : List String) (slashed : Bool)
  deriving Repr, DecidableEq

/-- Checks that a text can be a path. -/
def checkPath (path : String) : Except FileError Unit :=
  if path.toList.contains '\x00' then .error .unusableName
  else if pathLimit ≤ path.utf8ByteSize then .error .nameTooLong
  else .ok ()

def locate (tree : FileTree) (path : String) : Except FileError Goal := do
  checkPath path
  match Path.parts? path with
  | none => return .folder
  | some { front, name, behind } =>
    let folder ← tree.walk [] front
    if name = ".." then return .folder
    else if behind.contains "." then
      let _ ← tree.walk folder [name]
      return .folder
    else if maxNameLength < name.utf8ByteSize then throw .nameTooLong
    else return .entry (folder ++ [name]) (!behind.isEmpty)

def read (tree : FileTree) (path : String) : Except FileError Bytes := do
  match ← tree.locate path with
  | .folder => throw .isADirectory
  | .entry place slashed =>
    match tree.node? place with
    | none => throw .notFound
    | some .folder => throw .isADirectory
    | some (.file content) => if slashed then throw .notADirectory else return content

/-- Makes a folder of a name in the folder that segments lead to.  If there is one already, it
stays. -/
def makeFolder (tree : FileTree) (front : List String) (name : String) :
    Except FileError FileTree := do
  let folder ← tree.walk [] front
  if name = ".." then return tree
  else if maxNameLength < name.utf8ByteSize then throw .nameTooLong
  else
    match tree.node? (folder ++ [name]) with
    | none => return tree.put (folder ++ [name]) .folder
    | some .folder => return tree
    | some (.file _) => throw .exists

/-- Makes a folder with those above it, given by its names, the last one in front.  Folders that
were made stay there if a later one fails. -/
def makeFolders (tree : FileTree) : List String → Except FileError Unit × FileTree
  | [] => (.ok (), tree)
  | name :: names =>
    match tree.makeFolder names.reverse name with
    | .ok next => (.ok (), next)
    | .error .notFound =>
      match tree.makeFolders names with
      | (.ok (), next) =>
        match next.makeFolder names.reverse name with
        | .ok last => (.ok (), last)
        | .error error => (.error error, next)
      | (.error error, next) => (.error error, next)
    | .error error => (.error error, tree)

/-- Makes the folder that a file is to be in. -/
def prepare (tree : FileTree) (path : String) : Except FileError Unit × FileTree :=
  let front := ((Path.parts? path).map Path.Parts.front).getD []
  let backwards := front.reverse.dropWhile Path.isIdle
  match checkPath (Path.ofSegments backwards.reverse) with
  | .ok () => tree.makeFolders (backwards.filter (!Path.isIdle ·))
  | .error error => (.error error, tree)

/-- Makes a file empty, whether or not it was there. -/
def create (tree : FileTree) (path : String) : Except FileError FileTree := do
  match ← tree.locate path with
  | .folder => throw .isADirectory
  | .entry place slashed =>
    if slashed ∨ tree.node? place = some .folder then throw .isADirectory
    else return tree.put place (.file [])

/-- Puts bytes into a file at a place.  One that was taken away while it was open can still be
written to, and nobody will see it. -/
def write (tree : FileTree) (path : String) (offset : Nat) (bytes : Bytes) : FileTree :=
  match tree.locate path with
  | .ok (.entry place _) =>
    match tree.node? place with
    | some (.file content) => tree.put place (.file (content.overwrite offset bytes))
    | _ => tree
  | _ => tree

/-- Gives a file another name.  Names can only be given within folders, so both paths have to end
in one. -/
def rename (tree : FileTree) (source target : String) : Except FileError FileTree := do
  match ← tree.locate source, ← tree.locate target with
  | .entry old _, .entry new slashed =>
    match tree.node? old with
    | some (.file content) =>
      if slashed then throw .notADirectory
      else if tree.node? new = some .folder then throw .isADirectory
      else return { nodes := (tree.nodes.erase old).insert new (.file content) }
    | some .folder => throw .isADirectory
    | none => throw .notFound
  | _, _ => throw .busy

def remove (tree : FileTree) (path : String) : Except FileError FileTree := do
  match ← tree.locate path with
  | .folder => throw .isADirectory
  | .entry place slashed =>
    match tree.node? place with
    | none => throw .notFound
    | some .folder => throw .isADirectory
    | some (.file _) =>
      if slashed then throw .notADirectory else return { nodes := tree.nodes.erase place }

/-- The outcome of an operation that changes nothing if it fails. -/
def orSame (tree : FileTree) (result : Except FileError FileTree) :
    Except FileError Unit × FileTree :=
  match result with
  | .ok next => (.ok (), next)
  | .error error => (.error error, tree)

def apply (tree : FileTree) : FileOperation → Except FileError Unit × FileTree
  | .prepare file => tree.prepare file
  | .create file => tree.orSame (tree.create file)
  | .write file place bytes => (.ok (), tree.write file place bytes)
  | .sync _ => (.ok (), tree)
  | .rename source target => tree.orSame (tree.rename source target)
  | .remove file => tree.orSame (tree.remove file)

instance : FileStore FileTree where
  apply := FileTree.apply

end FileTree

end Larder
