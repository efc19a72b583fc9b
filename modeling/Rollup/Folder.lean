/-
Files of text: why one cannot be read, and a folder of them held in memory.
-/
import Rollup.Text.Split

namespace Rollup

/-- Why a file cannot be read. -/
inductive FileFault where
  | notFound
  | notDirectory
  | isDirectory
  | notText
  | other (reason : String)
  deriving DecidableEq, Repr

/-- What the system says of the fault. -/
def FileFault.message : FileFault → String
  | notFound => "No such file or directory (os error 2)"
  | notDirectory => "Not a directory (os error 20)"
  | isDirectory => "Is a directory (os error 21)"
  | notText => "stream did not contain valid UTF-8"
  | other reason => reason

/-- Texts by the paths that lead to them from the folder. -/
structure Folder where
  files : List (String × String)

namespace Folder

/-- What a path leads to: a text, or the folder with these names on the way. -/
inductive Place where
  | file (text : String)
  | folder (way : List String)

/-- The names a path consists of. -/
def names (path : String) : List String :=
  (Text.split '/' path).filter fun n => n != "" && n != "."

/-- What the names on the way lead to. -/
def at? (f : Folder) (way : List String) : Option Place :=
  match f.files.find? fun e => names e.1 == way with
  | some e => some (.file e.2)
  | none =>
    if way.isEmpty || f.files.any fun e => way.isPrefixOf (names e.1) then some (.folder way)
    else none

/-- Follows the parts of a path. Nothing above the folder can be seen. -/
def follow (f : Folder) : Place → List String → Except FileFault Place
  | place, [] => .ok place
  | .file _, _ :: _ => .error .notDirectory
  | .folder way, part :: rest =>
    if part == "" || part == "." then follow f (.folder way) rest
    else if part == ".." then
      if way.isEmpty then .error .notFound else follow f (.folder way.dropLast) rest
    else match f.at? (way ++ [part]) with
      | some place => follow f place rest
      | none => .error .notFound

/-- The text of the file that a path leads to. -/
def read (f : Folder) (path : String) : Except FileFault String :=
  if path.startsWith "/" && !(names path).isEmpty then .error .notFound
  else do
    match ← f.follow (.folder []) (Text.split '/' path) with
    | .file text => .ok text
    | .folder _ => .error .isDirectory

end Folder

end Rollup
