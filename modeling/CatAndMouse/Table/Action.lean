import CatAndMouse.Text.Blank
import CatAndMouse.Text.Numeral
import CatAndMouse.Text.Quoted

/-!
# The cells of a parse table

A cell of the first block says what to do: `s12` shifts and goes to state 12,
`r3` reduces by rule 3, `acc` accepts, and an empty cell or `err` is an error. A
cell of the second block is the number of a state, or empty. White space around
a cell does not count, and numbers may use the decimal digits of any script.
-/

namespace CatAndMouse

/-- What to do in a state, facing a terminal. -/
inductive Action where
  | shift (state : Nat)
  | reduce (rule : Nat)
  | accept
  | error
deriving DecidableEq

/-- The cell of an action. -/
def Action.text : Action → String
  | .shift state => s!"s{state}"
  | .reduce rule => s!"r{rule}"
  | .accept => "acc"
  | .error => "err"

/-- Why a cell cannot be read. -/
inductive CellError where
  /-- No action looks like this. -/
  | badAction (cell : String)
  /-- No state looks like this. -/
  | badTarget (cell : String)
  /-- The number is too long. -/
  | tooLong (e : Text.TooManyDigits)
deriving DecidableEq

/-- The wording of the error. -/
def CellError.message : CellError → String
  | .badAction cell => "unparsable action cell " ++ Text.quoted cell
  | .badTarget cell => "unparsable goto cell " ++ Text.quoted cell
  | .tooLong e => e.message

/-- The number that a non-empty run of digits shows, or the error `bad`. -/
def readNumber (bad : CellError) (cs : List Char) : Except CellError Nat :=
  match Text.digitRun? cs with
  | none => .error bad
  | some digits => (Text.readDigits digits).mapError .tooLong

/-- The action that a cell shows. -/
def Action.read (cell : String) : Except CellError Action :=
  match Text.strip cell.toList with
  | [] => .ok .error
  | ['e', 'r', 'r'] => .ok .error
  | ['a', 'c', 'c'] => .ok .accept
  | 's' :: digits => (readNumber (.badAction cell) digits).map .shift
  | 'r' :: digits => (readNumber (.badAction cell) digits).map .reduce
  | _ => .error (.badAction cell)

/-- The state that a cell shows, if it is not empty. -/
def readTarget (cell : String) : Except CellError (Option Nat) :=
  match Text.strip cell.toList with
  | [] => .ok none
  | digits => (readNumber (.badTarget cell) digits).map some

end CatAndMouse
