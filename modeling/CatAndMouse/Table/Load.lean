import CatAndMouse.File
import CatAndMouse.Table.Reader

/-!
# Tables in files
-/

namespace CatAndMouse

/-- Why a file gives no table. -/
inductive LoadError where
  | file (e : FileError)
  | read (e : ReadError)
deriving DecidableEq

/-- The wording of the error. -/
def LoadError.message : LoadError → String
  | .file (.unopened path e) =>
    s!"cannot read parse table {Text.quoted path}: {(FileError.unopened path e).message}"
  | .file e => e.message
  | .read e => e.message

/-- There is no such file, or its text has not the form of a table. -/
def LoadError.isFormat : LoadError → Bool
  | .file (.unopened _ _) => true
  | .file _ => false
  | .read e => e.isFormat

/-- The table in a file. -/
def Table.load (files : Files) (spec : TableSpec) (path : String) : Except LoadError Table :=
  match files.readText path with
  | .error e => .error (.file e)
  | .ok text => (Table.read spec text).mapError .read

end CatAndMouse
