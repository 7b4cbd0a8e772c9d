import PickIndent.Encoding.Basic
import PickIndent.Text.Quoted

/-!
# Files and directories

A tree holds directories and files at places below its top, and a place is the list of names that
leads to it. A path is followed name by name, from the top if it begins with a slash and else from the
working directory. Two points climb to the directory above, and above the top there is only the top.

Reading needs a file. Writing needs a directory to put the file into, and replaces a file that is
there already.
-/

namespace PickIndent

/-- The names that lead from the top to a file or a directory. -/
abbrev Place := List Text

/-- Why a path cannot be read or written. -/
inductive PathError where
  | missing
  | notDirectory
  | isDirectory
  | nameTooLong
  /-- The path has a character U+0000. -/
  | nullCharacter
  deriving DecidableEq, Repr

/-- What the system says about a path. -/
def PathError.message (path : String) : PathError → String
  | .missing => "[Errno 2] No such file or directory: " ++ quoted path
  | .notDirectory => "[Errno 20] Not a directory: " ++ quoted path
  | .isDirectory => "[Errno 21] Is a directory: " ++ quoted path
  | .nameTooLong => "[Errno 36] File name too long: " ++ quoted path
  | .nullCharacter => "embedded null byte"

structure FileTree where
  /-- The working directory. -/
  cwd : Place := []
  dirs : List Place := []
  files : List (Place × Bytes) := []
  deriving DecidableEq, Repr

namespace FileTree

/-- The bytes of the file at a place. -/
def file? (t : FileTree) (place : Place) : Option Bytes :=
  (t.files.find? (·.1 == place)).map Prod.snd

/-- Whether there is a directory at a place. What is above a directory is one as well. -/
def isDir (t : FileTree) (place : Place) : Bool := (t.cwd :: t.dirs).any (place.isPrefixOf ·)

/-- The longest name that the system allows, in bytes. -/
def maxName : Nat := 255

/-- The shortest path that the system does not allow, in bytes. -/
def maxPath : Nat := 4096

/-! ### Following a path -/

/-- Follows one name. An empty name and a single point stay, two points climb. -/
def follow (t : FileTree) (name : Text) (place : Place) : Except PathError Place :=
  if !t.isDir place then .error .notDirectory
  else if name = [] ∨ name = ['.'] then .ok place
  else if name = ['.', '.'] then .ok place.dropLast
  else if maxName < (String.ofList name).utf8ByteSize then .error .nameTooLong
  else if t.isDir (place ++ [name]) ∨ (t.file? (place ++ [name])).isSome then .ok (place ++ [name])
  else .error .missing

def followAll (t : FileTree) : List Text → Place → Except PathError Place
  | [], place => .ok place
  | name :: names, place =>
    match t.follow name place with
    | .error e => .error e
    | .ok place => t.followAll names place

/-- The directory that a path starts from. -/
def startOf (t : FileTree) (path : Text) : Place := if path.head? = some '/' then [] else t.cwd

/-- Faults that the path has by itself. -/
def pathFault? (path : String) : Option PathError :=
  if hasNull path then some .nullCharacter
  else if path.isEmpty then some .missing
  else if maxPath ≤ path.utf8ByteSize then some .nameTooLong
  else none

/-! ### Reading -/

/-- The bytes of the file that a path leads to. -/
def read (t : FileTree) (path : String) : Except PathError Bytes :=
  match pathFault? path with
  | some e => .error e
  | none =>
    match t.followAll (path.toList.splitOn '/') (t.startOf path.toList) with
    | .error e => .error e
    | .ok place =>
      match t.file? place with
      | some bytes => .ok bytes
      | none => .error .isDirectory

/-! ### Writing -/

/-- The place where a path would put a file: the last name in the directory that the names before it
lead to. -/
def target (t : FileTree) (path : String) : Except PathError Place :=
  match pathFault? path with
  | some e => .error e
  | none =>
    match (path.toList.splitOn '/').reverse.dropWhile (· == []) with
    | [] => .error .isDirectory
    | name :: parents =>
      match t.followAll parents.reverse (t.startOf path.toList) with
      | .error e => .error e
      | .ok parent =>
        if !t.isDir parent then .error .notDirectory
        else if name = ['.'] ∨ name = ['.', '.'] ∨ path.toList.getLast? = some '/' then
          .error .isDirectory
        else if maxName < (String.ofList name).utf8ByteSize then .error .nameTooLong
        else if t.isDir (parent ++ [name]) then .error .isDirectory
        else .ok (parent ++ [name])

/-- Files with the one at a place replaced, or a new one behind the others. -/
def putFile (place : Place) (bytes : Bytes) : List (Place × Bytes) → List (Place × Bytes)
  | [] => [(place, bytes)]
  | f :: fs => if f.1 = place then (place, bytes) :: fs else f :: putFile place bytes fs

/-- The tree with the bytes of the file at a place replaced, or with a new file there. -/
def put (t : FileTree) (place : Place) (bytes : Bytes) : FileTree :=
  { t with files := putFile place bytes t.files }

end FileTree

end PickIndent
