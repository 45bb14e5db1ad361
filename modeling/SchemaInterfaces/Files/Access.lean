import SchemaInterfaces.Files.Error
import SchemaInterfaces.Files.Path

/-!
# Access to files

The file operations that the program needs, over any monad that offers them. A file tree offers
them as a state, the program's outer layer as real input and output.
-/
namespace SchemaInterfaces

/-- Reading and changing files by path. -/
class FileAccess (m : Type → Type) where
  /-- The path of the working directory, from which relative paths start. -/
  directory : m String
  /-- The bytes of a file. -/
  readBytes : String → m (Except FileError ByteArray)
  /-- Creates a file or replaces its content. -/
  writeBytes : String → ByteArray → m (Except FileError Unit)
  /-- Whether a file or directory is there. -/
  isPresent : String → m Bool
  /-- Whether a file is there. -/
  isFile : String → m Bool
  /-- Creates a directory and the missing ones above it. -/
  makeDirectories : String → m (Except FileError Unit)

namespace FileAccess

variable {m : Type → Type} [Monad m] [FileAccess m]

/-- The text of a file, which has to be UTF-8. -/
def readText (path : String) : m (Except FileError String) := do
  match ← readBytes path with
  | .error error => return .error error
  | .ok bytes =>
    match String.fromUTF8? bytes with
    | some text => return .ok text
    | none => return .error .notText

def writeText (path text : String) : m (Except FileError Unit) :=
  writeBytes path text.toUTF8

end FileAccess

end SchemaInterfaces
