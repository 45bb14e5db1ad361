/-!
# File paths

A path is a text of steps between slashes. Empty steps and single dots stand for the directory
already reached, two dots for the one above.
-/
namespace SchemaInterfaces.Path

/-- The parts of a path between its slashes, the empty ones included. -/
def splitParts : List Char → List (List Char)
  | [] => [[]]
  | c :: rest =>
    if c = '/' then [] :: splitParts rest
    else
      match splitParts rest with
      | [] => [[c]]
      | part :: parts => (c :: part) :: parts

def parts (path : String) : List String :=
  (splitParts path.toList).map String.ofList

/-- The parts that lead somewhere: names, and two dots. -/
def steps (path : String) : List String :=
  (parts path).filter fun part => part ≠ "" ∧ part ≠ "."

def isAbsolute (path : String) : Bool :=
  path.toList.head? == some '/'

/-- The name of the file that a path ends in. -/
def fileName? (path : String) : Option String :=
  match (steps path).getLast? with
  | some ".." => none
  | last => last

/-- Cuts a name at its last dot. -/
def cutAtLastDot (name : List Char) : Option (List Char × List Char) :=
  let after := (name.reverse.takeWhile (· ≠ '.')).reverse
  let before := name.take (name.length - after.length)
  if before.isEmpty then none else some (before.dropLast, after)

/-- What stands behind the last dot of the file name, unless that dot is its first character. -/
def extension? (path : String) : Option String := do
  let (stem, after) ← cutAtLastDot (← fileName? path).toList
  if stem.isEmpty then none else some (String.ofList after)

/-- A path of the given steps. -/
def join (absolute : Bool) (steps : List String) : String :=
  (if absolute then "/" else "") ++ "/".intercalate steps

/-- A path with nothing but its steps. -/
def normal (path : String) : String := join (isAbsolute path) (steps path)

/-- The path of the directory that holds the last step; empty where that is the start. -/
def parent (path : String) : String := join (isAbsolute path) (steps path).dropLast

/-- A path as seen from a directory, which stands in front of it unless the path is absolute. -/
def within (directory path : String) : String :=
  if isAbsolute path then path
  else if directory.toList.getLast? = some '/' then directory ++ path
  else directory ++ "/" ++ path

/-- The steps from one place to another, both given from the same start. -/
def stepsBetween : List String → List String → List String
  | a :: as, b :: bs =>
    if a = b then stepsBetween as bs else List.replicate (bs.length + 1) ".." ++ a :: as
  | [], bs => List.replicate bs.length ".."
  | as, [] => as

/-- An absolute path as seen from a directory. Any other path only loses what is no step. -/
def relativeTo (directory path : String) : String :=
  if isAbsolute path then join false (stepsBetween (steps path) (steps directory)) else normal path

end SchemaInterfaces.Path
