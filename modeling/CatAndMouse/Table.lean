import CatAndMouse.Grammar
import CatAndMouse.Table.Action
import CatAndMouse.Table.Symbols

/-!
# Parse tables

A table drives a shift/reduce automaton. For each state it has a row of actions,
one for each terminal, and a row of targets, one for each nonterminal; it also
has the rules that its actions name. The automaton begins in state 0.

States and rules are looked up by any integer: where there is no row or no
column, the action is an error and there is no target.
-/

namespace CatAndMouse

/-- A parse table. Row `s` of `actions` and of `gotos` belongs to state `s`. -/
structure Table where
  symbols : Symbols
  actions : List (List Action)
  gotos : List (List (Option Nat))
  rules : RuleBook
  states : Nat
deriving DecidableEq

/-- A name that no column has. -/
structure UnknownSymbol where
  name : String
deriving DecidableEq

/-- The wording of the error: the name, quoted. -/
def UnknownSymbol.message (e : UnknownSymbol) : String := Text.quoted e.name

/-- A number that no rule has. -/
structure UnknownRule where
  number : Int
deriving DecidableEq

/-- The wording of the error. -/
def UnknownRule.message (e : UnknownRule) : String := s!"no rule numbered {e.number}"

/-- The wording, if the number can be written. -/
def UnknownRule.report? (e : UnknownRule) : Option String := Text.report? [e.number] e.message

/-- The cell in row `row` and column `col` of a block. -/
def cellAt? {α : Type} (block : List (List α)) (row : Int) (col : Nat) : Option α :=
  match row with
  | .ofNat r => (block[r]?).bind (·[col]?)
  | .negSucc _ => none

/-- A cell found by a natural number. -/
@[simp]
theorem cellAt?_natCast {α : Type} (block : List (List α)) (row col : Nat) :
    cellAt? block row col = (block[row]?).bind (·[col]?) := rfl

namespace Table

/-- The state in which the automaton begins. -/
def start : Nat := 0

/-- The number of the column of a symbol. -/
def columnOf (t : Table) (name : String) : Except UnknownSymbol Nat :=
  match t.symbols.idOf? name with
  | some id => .ok id
  | none => .error ⟨name⟩

/-- What to do in a state, facing the symbol. -/
def actionOf (t : Table) (state : Int) (name : String) : Except UnknownSymbol Action :=
  (t.columnOf name).map fun col => (cellAt? t.actions state col).getD .error

/-- Where to go from a state, over the symbol. -/
def gotoOf (t : Table) (state : Int) (name : String) : Except UnknownSymbol (Option Nat) :=
  (t.columnOf name).map fun col =>
    if col < t.symbols.terminals.length then none
    else (cellAt? t.gotos state (col - t.symbols.terminals.length)).join

/-- The rule with a number. -/
def rule (t : Table) (number : Int) : Except UnknownRule Rule :=
  match t.rules.lookup number with
  | some r => .ok r
  | none => .error ⟨number⟩

/-- The row of actions of a state, each with its terminal. -/
def actionRow (t : Table) (state : Int) : List (String × Action) :=
  match state with
  | .ofNat s => t.symbols.terminals.zip (t.actions[s]?.getD [])
  | .negSucc _ => []

/-- The terminals that are no error in a state, in the order of the columns. -/
def expected (t : Table) (state : Int) : List String :=
  ((t.actionRow state).filter (·.2 ≠ .error)).map (·.1)

/-! ### Summary -/

/-- The actions that are no error, with state and column. -/
def actionEntries (t : Table) : List (Nat × Nat × Action) :=
  t.actions.zipIdx.flatMap fun (row, state) =>
    row.zipIdx.filterMap fun (action, col) =>
      if action = .error then none else some (state, col, action)

/-- The targets, with state and column; the columns count on from the terminals. -/
def gotoEntries (t : Table) : List (Nat × Nat × Nat) :=
  t.gotos.zipIdx.flatMap fun (row, state) =>
    row.zipIdx.filterMap fun (target, col) =>
      target.map fun next => (state, t.symbols.terminals.length + col, next)

/-- How many actions satisfy a test. -/
def countActions (t : Table) (p : Action → Bool) : Nat :=
  (t.actionEntries.filter fun (_, _, a) => p a).length

/-- A summary of the table, line by line. -/
def describe (t : Table) : List String :=
  let shifts := t.countActions fun | .shift _ => true | _ => false
  let reduces := t.countActions fun | .reduce _ => true | _ => false
  let accepts := t.countActions fun | .accept => true | _ => false
  let terminals := String.intercalate ", " t.symbols.terminals
  let nonterminals := String.intercalate ", " t.symbols.nonterminals
  [s!"States: {t.states}",
   s!"Terminals: {terminals}",
   s!"Nonterminals: {nonterminals}",
   s!"Rules: {t.rules.length}",
   s!"Actions: shift={shifts} reduce={reduces} accept={accepts}",
   s!"Gotos: {t.gotoEntries.length}"]

/-- The rules in the order of their numbers. -/
def sortedRules (t : Table) : RuleBook := t.rules.mergeSort fun a b => a.1 ≤ b.1

end Table

end CatAndMouse
