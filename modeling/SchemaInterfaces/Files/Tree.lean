import SchemaInterfaces.Files.Access

/-!
# File trees

All files and directories, as a value. A place is the list of names that lead there from the root;
it holds a file, a directory or nothing. Paths are resolved step by step, absolute ones from the
root and others from the working directory, and every step needs a directory to start from. The null
device is the only file that is no regular one: it is empty, and what is written to it is lost.
-/
namespace SchemaInterfaces

/-- What a place holds. -/
inductive Node where
  | file (content : ByteArray)
  | directory

/-- The names that lead from the root to a place. -/
abbrev Place := List String

/-- A file tree with the place of its working directory. The working directory, all directories
above it and the null device are always there and have no entry. -/
structure FileTree where
  entries : List (Place × Node) := []
  here : Place := []

namespace FileTree

/-- The place of the null device. -/
def nullDevice : Place := ["dev", "null"]

/-- What a place holds. -/
def node? (tree : FileTree) (place : Place) : Option Node :=
  if place.isPrefixOf tree.here ∨ place = nullDevice.dropLast then some .directory
  else if place = nullDevice then some (.file ByteArray.empty)
  else tree.entries.lookup place

/-- Replaces what a place holds, or adds it. -/
def setEntry (place : Place) (node : Node) : List (Place × Node) → List (Place × Node)
  | [] => [(place, node)]
  | (p, n) :: rest => if p = place then (place, node) :: rest else (p, n) :: setEntry place node rest

def set (tree : FileTree) (place : Place) (node : Node) : FileTree :=
  { tree with entries := setEntry place node tree.entries }

/-- Puts a file at a place. The null device keeps nothing. -/
def store (tree : FileTree) (place : Place) (content : ByteArray) : FileTree :=
  if place = nullDevice then tree else tree.set place (.file content)

/-- Removes a place and all below it. -/
def remove (tree : FileTree) (place : Place) : FileTree :=
  { tree with entries := tree.entries.filter fun entry => !place.isPrefixOf entry.1 }

/-- The most bytes that a name may have. -/
def maxName : Nat := 255

/-- The most bytes that a path may have. -/
def maxPath : Nat := 4095

/-- Follows the parts of a path from a place that is a directory. The last part may lead to a place
that holds nothing. -/
def follow (tree : FileTree) (here : Place) : List String → Except FileError Place
  | [] => .ok here
  | part :: rest =>
    if part = "" ∨ part = "." then follow tree here rest
    else if part = ".." then follow tree here.dropLast rest
    else if maxName < part.utf8ByteSize then .error .nameTooLong
    else if rest = [] then .ok (here ++ [part])
    else
      match tree.node? (here ++ [part]) with
      | some .directory => follow tree (here ++ [part]) rest
      | some (.file _) => .error .notDirectory
      | none => .error .notFound

/-- The place from which a path starts. -/
def start (tree : FileTree) (path : String) : Place :=
  if Path.isAbsolute path then [] else tree.here

/-- The place that a path leads to. -/
def resolve (tree : FileTree) (path : String) : Except FileError Place :=
  if path.toList.contains '\x00' then .error .nulInPath
  else if path = "" then .error .notFound
  else if maxPath < path.utf8ByteSize then .error .nameTooLong
  else tree.follow (tree.start path) (Path.parts path)

/-- What a path leads to. -/
def find (tree : FileTree) (path : String) : Except FileError Node :=
  match tree.resolve path with
  | .error error => .error error
  | .ok place =>
    match tree.node? place with
    | some node => .ok node
    | none => .error .notFound

/-- The bytes of a file. -/
def read (tree : FileTree) (path : String) : Except FileError ByteArray :=
  match tree.find path with
  | .ok (.file content) => .ok content
  | .ok .directory => .error .isDirectory
  | .error error => .error error

/-- The place at which a path would create a file or directory: a trailing slash does not count. -/
def target (tree : FileTree) (path : String) : Except FileError Place :=
  match Path.parts path with
  | [] => tree.resolve path
  | parts =>
    let trimmed := (parts.reverse.dropWhile (· = "")).reverse
    if trimmed.isEmpty then tree.resolve path else tree.resolve ("/".intercalate trimmed)

/-- Creates a file or replaces its content. -/
def write (tree : FileTree) (path : String) (content : ByteArray) : Except FileError FileTree :=
  match tree.resolve path with
  | .error .notFound =>
    match tree.target path with
    | .ok _ => .error (if path.toList.getLast? = some '/' then .isDirectory else .notFound)
    | .error error => .error error
  | .error error => .error error
  | .ok place =>
    match tree.node? place with
    | some .directory => .error .isDirectory
    | _ => .ok (tree.store place content)

/-- Creates one directory. -/
def makeDirectory (tree : FileTree) (path : String) : Except FileError FileTree :=
  match tree.target path with
  | .error error => .error error
  | .ok place =>
    match tree.node? place with
    | some _ => .error .alreadyExists
    | none => .ok (tree.set place .directory)

/-- Whether a path leads to a regular file. -/
def isFile (tree : FileTree) (path : String) : Bool :=
  match tree.resolve path with
  | .error _ => false
  | .ok place =>
    match tree.node? place with
    | some (.file _) => place ≠ nullDevice
    | _ => false

def isDirectory (tree : FileTree) (path : String) : Bool :=
  match tree.find path with
  | .ok .directory => true
  | _ => false

/-- Creates the directory of the first `count` steps and the missing ones above it. What fails
below is the error, unless a directory is already there. -/
def makeSteps (tree : FileTree) (absolute : Bool) (steps : List String) :
    Nat → Except FileError Unit × FileTree
  | 0 => (.ok (), tree)
  | count + 1 =>
    let path := Path.join absolute (steps.take (count + 1))
    match tree.makeDirectory path with
    | .ok made => (.ok (), made)
    | .error .notFound =>
      match makeSteps tree absolute steps count with
      | (.error error, tree) => (.error error, tree)
      | (.ok (), tree) =>
        match tree.makeDirectory path with
        | .ok made => (.ok (), made)
        | .error error => (if tree.isDirectory path then .ok () else .error error, tree)
    | .error error => (if tree.isDirectory path then .ok () else .error error, tree)

/-- Creates a directory and the missing ones above it. -/
def makeDirectories (tree : FileTree) (path : String) : Except FileError Unit × FileTree :=
  tree.makeSteps (Path.isAbsolute path) (Path.steps path) (Path.steps path).length

/-- The order of names by their bytes. -/
def bytesLE (a b : String) : Bool := a ≤ b

/-- The order of places: by the first name that differs. -/
def placeLE : Place → Place → Bool
  | [], _ => true
  | _ :: _, [] => false
  | a :: as, b :: bs => if a = b then placeLE as bs else bytesLE a b

/-- All files below the working directory with their paths from there. Within a directory they are
sorted by name, and a directory stands among them with its files in its place. -/
def files (tree : FileTree) : List (String × ByteArray) :=
  let found := tree.entries.filterMap fun (place, node) =>
    match node with
    | .file content =>
      if tree.here.isPrefixOf place then some (place.drop tree.here.length, content) else none
    | .directory => none
  (found.mergeSort fun a b => placeLE a.1 b.1).map fun (place, content) =>
    ("/".intercalate place, content)

/-- A file tree offers file access as a state. -/
instance : FileAccess (StateM FileTree) where
  directory := fun tree => (Path.join true tree.here, tree)
  readBytes path := fun tree => (tree.read path, tree)
  writeBytes path content := fun tree =>
    match tree.write path content with
    | .ok written => (.ok (), written)
    | .error error => (.error error, tree)
  isPresent path := fun tree => ((tree.find path).isOk, tree)
  isFile path := fun tree => (tree.isFile path, tree)
  makeDirectories path := fun tree => tree.makeDirectories path

end FileTree

end SchemaInterfaces
