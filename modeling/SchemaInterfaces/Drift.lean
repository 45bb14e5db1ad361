import SchemaInterfaces.Diff.Hunk
import SchemaInterfaces.Files.Access
import SchemaInterfaces.Text.Line

/-!
# Generated files and drift

Writing generated code, and finding out how a file on disk differs from code generated anew.
-/
namespace SchemaInterfaces

/-- How a file differs from generated code. A file that is not there has no differences, but it
does not agree either. -/
structure Drift where
  missing : Bool := false
  changes : List (Diff.ChangeKind × String) := []
  diff : String := ""
  deriving DecidableEq, Repr

namespace Drift

/-- The file is there and equals the generated code. -/
def agrees (drift : Drift) : Bool :=
  !drift.missing && drift.changes.isEmpty

def removedCount (drift : Drift) : Nat :=
  drift.changes.countP (·.1 == .removed)

def addedCount (drift : Drift) : Nat :=
  drift.changes.countP (·.1 == .added)

/-- A line without the line feeds at its end. -/
def dropLineFeeds (line : String) : String :=
  String.ofList (line.toList.reverse.dropWhile (· = '\n')).reverse

/-- The differences between the text of a file and generated code. -/
def ofTexts (path existing generated : String) : Drift :=
  let blocks := Diff.blocks (Text.terminatedLines existing) (Text.terminatedLines generated)
  { changes := (blocks.flatMap Diff.Block.changes).map fun (kind, line) =>
      (kind, dropLineFeeds line)
    diff := Diff.unifiedText path "generated" blocks }

end Drift

section

variable {m : Type → Type} [Monad m] [FileAccess m]

/-- Compares the file at a path with generated code. -/
def Drift.ofFile (path generated : String) : m (Except FileError Drift) := do
  match ← FileAccess.readText path with
  | .ok existing => return .ok (.ofTexts path existing generated)
  | .error .notFound => return .ok { missing := true }
  | .error error => return .error error

/-- Creates the directories in which a file at the path would lie. -/
def makeParent (path : String) : m (Except FileError Unit) := do
  let parent := Path.parent path
  if parent = "" then return .ok ()
  else if ← FileAccess.isPresent parent then return .ok ()
  else FileAccess.makeDirectories parent

/-- Writes generated code to a file and makes the directories above it. The answer is the number of
bytes. -/
def writeGenerated (path code : String) : m (Except FileError Nat) := do
  match ← makeParent path with
  | .error error => return .error error
  | .ok () =>
    match ← FileAccess.writeText path code with
    | .error error => return .error error
    | .ok () => return .ok code.utf8ByteSize

end

end SchemaInterfaces
