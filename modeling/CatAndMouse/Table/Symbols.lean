import CatAndMouse.Text.Index
import CatAndMouse.Text.Quoted

/-!
# Symbols and columns

A parse table has a column for each symbol: the terminals first, then the
nonterminals. `Symbols` holds the two lists; the number of a symbol is its place
in both of them together. The lists are fixed once, all names distinct and the
end of the input among the terminals; after that they never change.
-/

namespace CatAndMouse

/-- The symbols of a table, in the order of their columns. -/
structure Symbols where
  terminals : List String
  nonterminals : List String
deriving DecidableEq

/-- Why lists of names are no symbols of a table. -/
inductive SymbolError where
  /-- A name comes twice. -/
  | duplicate (names : List String)
  /-- The end of the input is no terminal. -/
  | noEnd (eof : String) (terminals : List String)
deriving DecidableEq

/-- The wording of the error. -/
def SymbolError.message : SymbolError → String
  | .duplicate names => "duplicate symbol names in " ++ Text.quotedList names
  | .noEnd eof terminals =>
    s!"end-of-input terminal {Text.quoted eof} missing from {Text.quotedList terminals}"

/-- Why no symbol has a number. -/
inductive PlaceError where
  /-- No column is at this place. -/
  | outOfRange
  /-- The number is no index. -/
  | notIndex
deriving DecidableEq

/-- The wording of the error. -/
def PlaceError.message : PlaceError → String
  | .outOfRange => Text.outOfRangeMessage
  | .notIndex => Text.notIndexMessage

namespace Symbols

/-- No symbols yet. -/
def empty : Symbols := ⟨[], []⟩

/-- All names, in the order of the columns. -/
def names (s : Symbols) : List String := s.terminals ++ s.nonterminals

/-- The lists have been fixed. Fixed lists hold at least the end of the input. -/
def isFixed (s : Symbols) : Bool := !s.terminals.isEmpty

/-- The symbols with the given names. -/
def ofNames (terminals nonterminals : List String) (eof : String) :
    Except SymbolError Symbols :=
  if ¬ (terminals ++ nonterminals).Nodup then .error (.duplicate (terminals ++ nonterminals))
  else if eof ∉ terminals then .error (.noEnd eof terminals)
  else .ok ⟨terminals, nonterminals⟩

/-- Lists of names are accepted exactly if no name comes twice and the end of the input is a
terminal, and then they are kept as they are. -/
theorem ofNames_eq_ok_iff {terminals nonterminals : List String} {eof : String} {s : Symbols} :
    ofNames terminals nonterminals eof = .ok s ↔
      (terminals ++ nonterminals).Nodup ∧ eof ∈ terminals ∧ s = ⟨terminals, nonterminals⟩ := by
  unfold ofNames
  split
  · next h => simp [h]
  · next h =>
    rw [Classical.not_not] at h
    split
    · next he => simp [he]
    · next he =>
      rw [Classical.not_not] at he
      simp [h, he, eq_comm]

/-- Fix the lists, unless that has been done. -/
def freeze (s : Symbols) (terminals nonterminals : List String) (eof : String) :
    Except SymbolError Symbols :=
  if s.isFixed then .ok s else ofNames terminals nonterminals eof

/-- The number of a symbol. -/
def idOf? (s : Symbols) (name : String) : Option Nat := s.names.idxOf? name

/-- The symbol with a number; negative numbers count from the end. -/
def nameOf? (s : Symbols) (id : Int) : Option String :=
  if 0 ≤ id then s.names[id.toNat]?
  else if 0 ≤ id + s.names.length then s.names[(id + s.names.length).toNat]?
  else none

/-- The symbol with a number, or why there is none. -/
def nameAt (s : Symbols) (id : Int) : Except PlaceError String :=
  match s.nameOf? id with
  | some name => .ok name
  | none => .error (if Text.isIndex id then .outOfRange else .notIndex)

/-- Both lists, as a message shows them. -/
def describe (s : Symbols) : String :=
  s!"SymbolTable(terms={Text.quotedList s.terminals}, "
    ++ s!"nonterms={Text.quotedList s.nonterminals})"

end Symbols

end CatAndMouse
