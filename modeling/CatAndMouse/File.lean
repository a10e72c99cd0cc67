import CatAndMouse.Text.Line
import CatAndMouse.Text.Quoted
import CatAndMouse.Text.Split
import CatAndMouse.Text.Utf8

/-!
# Files

Program texts and tables may come from files. A path is brought into a plain
form first: no empty parts, no parts that are a single dot, no slash at the end.
A file is read as UTF-8, and line ends of every kind become LF.

`Files` says what is found under a plain path. `Files.ofList` is a folder that
holds nothing but the given files.
-/

namespace CatAndMouse

/-- The parts of a path that lead somewhere. -/
def plainParts (path : String) : List String :=
  (Text.pieces '/' path).filter fun part => part ≠ "" ∧ part ≠ "."

/-- The slashes at the start of a plain path: two are kept if there are no more. -/
def plainRoot (path : String) : String :=
  match path.toList with
  | '/' :: '/' :: '/' :: _ => "/"
  | '/' :: '/' :: _ => "//"
  | '/' :: _ => "/"
  | _ => ""

/-- The plain form of a path; a path that leads nowhere is a dot. -/
def plainPath (path : String) : String :=
  let plain := plainRoot path ++ String.intercalate "/" (plainParts path)
  if plain = "" then "." else plain

/-- Why a path leads to no file. -/
inductive OpenError where
  | missing
  | isDirectory
  | notDirectory
  /-- The path, or a part of it, is too long to look up. -/
  | nameTooLong
deriving DecidableEq

/-- The title of the error. -/
def OpenError.title : OpenError → String
  | .missing => "FileNotFoundError"
  | .isDirectory => "IsADirectoryError"
  | .notDirectory => "NotADirectoryError"
  | .nameTooLong => "OSError"

/-- The number and the wording of the error. -/
def OpenError.message : OpenError → String
  | .missing => "[Errno 2] No such file or directory"
  | .isDirectory => "[Errno 21] Is a directory"
  | .notDirectory => "[Errno 20] Not a directory"
  | .nameTooLong => "[Errno 36] File name too long"

/-- Why a file has no text. -/
inductive FileError where
  /-- There is no file under the path. -/
  | unopened (path : String) (e : OpenError)
  /-- The path holds a NUL character. -/
  | nulInPath
  /-- The bytes are no UTF-8. -/
  | encoding (f : Text.Utf8.Fault)
deriving DecidableEq

/-- The wording of the error. -/
def FileError.message : FileError → String
  | .unopened path e => s!"{e.message}: {Text.quoted path}"
  | .nulInPath => "embedded null byte"
  | .encoding f => f.message

/-- The files that can be read: what is found under a plain path. -/
structure Files where
  bytes : String → Except OpenError (List UInt8)

namespace Files

/-- The longest part of a path, in bytes. -/
def maxPartBytes : Nat := 255

/-- The longest path, in bytes. -/
def maxPathBytes : Nat := 4095

/-- What the parts of a path lead to, from a folder of the given files. The folders above it
are there, but nothing is known to be in them. The parts are looked up from left to right,
so that the first that leads nowhere says why. -/
def follow (files : List (String × List UInt8)) : List String → Except OpenError (List UInt8)
  | [] => .error .isDirectory
  | part :: parts =>
    if part = ".." then follow [] parts
    else if part.utf8ByteSize > maxPartBytes then .error .nameTooLong
    else
      match files.lookup part, parts with
      | some bytes, [] => .ok bytes
      | some _, _ :: _ => .error .notDirectory
      | none, _ => .error .missing

/-- A folder that holds the given files and nothing else; the given files are not in the
root folder, where a path with a slash at its start begins. -/
def ofList (files : List (String × List UInt8)) : Files where
  bytes path :=
    let known := if path.toList.head? = some '/' then [] else files
    if path.utf8ByteSize > maxPathBytes then .error .nameTooLong
    else follow known (plainParts path)

/-- The text of a file, its line ends folded. -/
def readText (files : Files) (path : String) : Except FileError String :=
  if path.toList.contains '\x00' then .error .nulInPath
  else
    match files.bytes (plainPath path) with
    | .error e => .error (.unopened (plainPath path) e)
    | .ok bytes =>
      match Text.Utf8.decode bytes with
      | .ok text => .ok (String.ofList (Text.foldReturns text.toList))
      | .error f => .error (.encoding f)

end Files

end CatAndMouse
