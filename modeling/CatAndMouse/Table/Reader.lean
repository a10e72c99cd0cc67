import CatAndMouse.Table
import CatAndMouse.Text.Index
import CatAndMouse.Text.Line

/-!
# Reading a parse table

The text of a table has one line for each row, its fields parted by `&`. A
header with the terminals comes first, then a row of actions for each state,
then a header with the nonterminals and a row of targets for each state. The
first field of a row is the number of its state. Empty lines do not count.

What the text must provide is a `TableSpec`: the symbols, in any order, the
number of states and the rules. Everything is checked, from the top down; the
first fault is reported with the number of its line.
-/

namespace CatAndMouse

/-- What a table must provide. -/
structure TableSpec where
  rules : RuleBook
  terminals : List String
  nonterminals : List String
  states : Int
  eof : String
deriving DecidableEq

/-- Why a text is no table. -/
inductive ReadError where
  | lineCount (expected : Int) (got : Nat)
  /-- The number of lines is wrong, and the right one has too many digits to be written. -/
  | hugeLineCount
  /-- The header of a table of fewer than no states. -/
  | noHeader
  | header (line : Nat) (found expected : List String)
  | symbols (e : SymbolError)
  | fieldCount (line expected got : Nat)
  | rowLabel (line state : Nat) (label : String)
  | cell (line : Nat) (column : String) (e : CellError)
  /-- A number that is too long to read. -/
  | number (e : Text.TooManyDigits)
  | shiftRange (line target : Nat)
  | unknownRule (line rule : Nat)
  | gotoRange (line target : Nat)
  | unknownLhs (rule : Int) (lhs : String)
  /-- The left-hand side of a rule is unknown, and its number has too many digits to be written. -/
  | hugeRule
deriving DecidableEq

/-- The wording of the error. -/
def ReadError.message : ReadError → String
  | .lineCount expected got => s!"expected {expected} non-empty lines, got {got}"
  | .hugeLineCount => Text.unwritableMessage
  | .noHeader => Text.outOfRangeMessage
  | .header line found expected =>
    s!"line {line}: header {Text.quotedList found} does not match symbols "
      ++ Text.quotedList expected
  | .symbols e => e.message
  | .fieldCount line expected got => s!"line {line}: expected {expected} fields, got {got}"
  | .rowLabel line state label =>
    s!"line {line}: expected row for state {state}, got {Text.quoted label}"
  | .number e => e.message
  | .cell line column e => s!"line {line}, column {column}: {e.message}"
  | .shiftRange line target => s!"line {line}: shift target {target} out of range"
  | .unknownRule line rule => s!"line {line}: reduce by unknown rule {rule}"
  | .gotoRange line target => s!"line {line}: goto target {target} out of range"
  | .unknownLhs rule lhs => s!"rule {rule}: unknown left-hand side {Text.quoted lhs}"
  | .hugeRule => Text.unwritableMessage

/-- The error of a cell, with its line and column. -/
def ReadError.ofCell (line : Nat) (column : String) : CellError → ReadError
  | .tooLong e => .number e
  | e => .cell line column e

/-- The text has not the form of a table. The other errors say that it cannot be told. -/
def ReadError.isFormat : ReadError → Bool
  | .hugeLineCount | .noHeader | .number _ | .hugeRule => false
  | _ => true

namespace Table

/-- The lines of a text that hold more than white space. -/
def textLines (text : String) : List String :=
  ((Text.splitAt '\n' (Text.joinReturns text.toList)).filter fun l => !l.all Text.isBlank).map
    String.ofList

/-- The names in a header, if they are the expected ones in some order. -/
def readHeader (expected : List String) (line : Nat) (text : String) :
    Except ReadError (List String) :=
  let names := ((Text.pieces '&' text).drop 1).map Text.stripped
  if names.isPerm expected then .ok names else .error (.header line names expected)

/-- The cells of the row of a state, after its label. -/
def readCells (width state line : Nat) (text : String) : Except ReadError (List String) :=
  match Text.pieces '&' text with
  | [] => .error (.fieldCount line (width + 1) 0)
  | label :: cells =>
    if cells.length ≠ width then .error (.fieldCount line (width + 1) (cells.length + 1))
    else if Text.stripped label ≠ toString state then .error (.rowLabel line state label)
    else .ok cells

/-- The action of a cell, if its state or rule exists. -/
def readAction (states : Nat) (rules : RuleBook) (line : Nat) (column cell : String) :
    Except ReadError Action :=
  match Action.read cell with
  | .error e => .error (.ofCell line column e)
  | .ok (.shift target) =>
    if target < states then .ok (.shift target) else .error (.shiftRange line target)
  | .ok (.reduce rule) =>
    if (rules.lookup (rule : Int)).isSome then .ok (.reduce rule)
    else .error (.unknownRule line rule)
  | .ok action => .ok action

/-- The target of a cell, if its state exists. -/
def readGoto (states line : Nat) (column cell : String) : Except ReadError (Option Nat) :=
  match readTarget cell with
  | .error e => .error (.ofCell line column e)
  | .ok none => .ok none
  | .ok (some target) =>
    if target < states then .ok (some target) else .error (.gotoRange line target)

/-- The rows of a block that begins with state `state` on line `line`. -/
def readRows {α : Type} (names : List String)
    (readCell : (line : Nat) → (column cell : String) → Except ReadError α) :
    (state line : Nat) → List String → Except ReadError (List (List α))
  | _, _, [] => .ok []
  | state, line, text :: texts => do
    let cells ← readCells names.length state line text
    let row ← (names.zip cells).mapM fun (column, cell) => readCell line column cell
    let rows ← readRows names readCell (state + 1) (line + 1) texts
    pure (row :: rows)

/-- Every rule leaves a nonterminal. -/
def checkRules (nonterminals : List String) (rules : RuleBook) : Except ReadError Unit :=
  match rules.find? fun (_, rule) => !nonterminals.contains rule.lhs with
  | none => .ok ()
  | some (number, rule) =>
    .error (if Text.isWritable number then .unknownLhs number rule.lhs else .hugeRule)

/-- The table that the lines of a text show, if there are two blocks of lines. -/
def readLines (spec : TableSpec) : List String → Except ReadError Table
  | [] => .error .noHeader
  | actionHeader :: rest =>
    let n := spec.states.toNat
    match rest.drop n with
    | [] => .error .noHeader
    | gotoHeader :: gotoLines => do
      let terminals ← readHeader spec.terminals 1 actionHeader
      let nonterminals ← readHeader spec.nonterminals (n + 2) gotoHeader
      let symbols ← (Symbols.ofNames terminals nonterminals spec.eof).mapError .symbols
      let actions ← readRows terminals (readAction n spec.rules) 0 2 (rest.take n)
      let gotos ← readRows nonterminals (readGoto n) 0 (n + 3) gotoLines
      checkRules nonterminals spec.rules
      pure ⟨symbols, actions, gotos, spec.rules, n⟩

/-- The table that a text shows. -/
def read (spec : TableSpec) (text : String) : Except ReadError Table :=
  let lines := textLines text
  let expected := 2 * (spec.states + 1)
  if (lines.length : Int) = expected then readLines spec lines
  else if Text.isWritable expected then .error (.lineCount expected lines.length)
  else .error .hugeLineCount

end Table

end CatAndMouse
