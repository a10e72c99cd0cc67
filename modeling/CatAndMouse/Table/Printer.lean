import CatAndMouse.Table

/-!
# Writing a parse table

The text form of a table, line by line: what `Table.read` reads. An error is
written as an empty cell.
-/

namespace CatAndMouse.Table

/-- The cell of an action in a row. -/
def actionCell (a : Action) : String := if a = .error then "" else a.text

/-- The cell of a target in a row. -/
def targetCell : Option Nat → String
  | none => ""
  | some state => toString state

/-- Fields joined to a line. -/
def joinFields (fields : List String) : String := String.intercalate "&" fields

/-- The rows of a block, each after the number of its state. -/
def blockLines {α : Type} (cell : α → String) (block : List (List α)) : List String :=
  block.zipIdx.map fun (row, state) => joinFields (toString state :: row.map cell)

/-- The lines of the text form. -/
def lines (t : Table) : List String :=
  joinFields ("STATE" :: t.symbols.terminals) :: blockLines actionCell t.actions
    ++ joinFields ("STATE" :: t.symbols.nonterminals) :: blockLines targetCell t.gotos

end CatAndMouse.Table
