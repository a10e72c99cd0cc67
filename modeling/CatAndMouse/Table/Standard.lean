import CatAndMouse.Table.Reader
import CatAndMouse.Token

/-!
# The standard table

The table of the language: 38 states over the eighteen kinds of tokens and the
four nonterminals. Each state is given by its actions that are no error and by
its targets.
-/

namespace CatAndMouse

/-- The terminals, in the order of their columns. -/
def standardTerminals : List String := Kind.all.map Kind.symbol

/-- The name of the end of the input. -/
def endSymbol : String := Kind.endOfInput.symbol

/-- The number of states of the standard table. -/
def standardStates : Nat := 38

/-- What the text of a table for the language must provide. -/
def TableSpec.standard : TableSpec :=
  ⟨standardRules, standardTerminals, standardNonterminals, standardStates, endSymbol⟩

namespace Table

/-- The first word of a statement, shifted. -/
def statementShifts : List (Kind × Action) :=
  [(.cat, .shift 8), (.mouse, .shift 9), (.hole, .shift 10), (.move, .shift 11),
   (.clockwise, .shift 12), (.loop, .shift 13)]

/-- A heading, shifted. -/
def headingShifts : List (Kind × Action) :=
  [(.heading .north, .shift 33), (.heading .south, .shift 34), (.heading .east, .shift 35),
   (.heading .west, .shift 36)]

/-- Reduce by a rule before whatever can follow a list of statements. -/
def afterListReduces (rule : Nat) : List (Kind × Action) :=
  [Kind.halt, .cat, .mouse, .hole, .move, .clockwise, .loop, .done].map fun k => (k, .reduce rule)

/-- The actions of each state. -/
def standardActions : List (List (Kind × Action)) :=
  [[(.size, .shift 2)],
   [(.endOfInput, .accept)],
   [(.integer, .shift 3)],
   [(.integer, .shift 4)],
   [(.start, .shift 5)],
   statementShifts,
   (.halt, .shift 14) :: statementShifts,
   [(.semicolon, .shift 16)],
   [(.name, .shift 17)],
   [(.name, .shift 18)],
   [(.integer, .shift 19)],
   [(.name, .shift 20)],
   [(.name, .shift 21)],
   [(.integer, .shift 22)],
   [(.endOfInput, .reduce 1)],
   [(.semicolon, .shift 23)],
   afterListReduces 2,
   [(.integer, .shift 24)],
   [(.integer, .shift 25)],
   [(.integer, .shift 26)],
   [(.integer, .shift 27), (.semicolon, .reduce 7)],
   [(.semicolon, .reduce 9)],
   statementShifts,
   afterListReduces 3,
   [(.integer, .shift 29)],
   [(.integer, .shift 30)],
   [(.semicolon, .reduce 6)],
   [(.semicolon, .reduce 8)],
   (.done, .shift 31) :: statementShifts,
   headingShifts,
   headingShifts,
   [(.semicolon, .reduce 10)],
   [(.semicolon, .reduce 4)],
   [(.semicolon, .reduce 11)],
   [(.semicolon, .reduce 12)],
   [(.semicolon, .reduce 13)],
   [(.semicolon, .reduce 14)],
   [(.semicolon, .reduce 5)]]

/-- The states that have targets, with their targets. -/
def standardGotos : List (Nat × List (String × Nat)) :=
  [(0, [("_PROGRAM", 1)]),
   (5, [("_LIST", 6), ("_STATEMENT", 7)]),
   (6, [("_STATEMENT", 15)]),
   (22, [("_LIST", 28), ("_STATEMENT", 7)]),
   (28, [("_STATEMENT", 15)]),
   (29, [("_DIRECTION", 32)]),
   (30, [("_DIRECTION", 37)])]

/-- The standard table. -/
def standard : Table where
  symbols := ⟨standardTerminals, standardNonterminals⟩
  actions := standardActions.map fun row => Kind.all.map fun k => (row.lookup k).getD .error
  gotos := (List.range standardStates).map fun state =>
    let row := (standardGotos.lookup state).getD []
    standardNonterminals.map fun x => row.lookup x
  rules := standardRules
  states := standardStates

end Table

end CatAndMouse
