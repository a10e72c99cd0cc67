import CatAndMouse.Automaton.Reach
import CatAndMouse.Grammar.Derivation
import CatAndMouse.Main
import CatAndMouse.Table.Printer
import CatAndMouse.Token.Lexical
import CatAndMouse.Tree.WellFormed
import CatAndMouse.Proofs.Computation
import CatAndMouse.Proofs.Grammar.Parse
import CatAndMouse.Proofs.Grammar.Rightmost
import CatAndMouse.Proofs.Table.Edges
import CatAndMouse.Proofs.Automaton.Path
import CatAndMouse.Proofs.Automaton.Sources
import CatAndMouse.Proofs.Automaton.Reading
import CatAndMouse.Proofs.Automaton.Completeness
import CatAndMouse.Proofs.Language
import CatAndMouse.Proofs.EarliestError
import CatAndMouse.Proofs.Token.Layout
import CatAndMouse.Proofs.Tree.Written
import CatAndMouse.Proofs.Automaton.Steps
import CatAndMouse.Proofs.Automaton.Consistency
import CatAndMouse.Proofs.Tree.Build
import CatAndMouse.Proofs.Tree.Frontier
import CatAndMouse.Proofs.Automaton.Conservation
import CatAndMouse.Proofs.Token.Eager
import CatAndMouse.Proofs.Token.Decomposition
import CatAndMouse.Proofs.FirstError
import CatAndMouse.Proofs.Token.Stream
import CatAndMouse.Proofs.Token.Protocol
import CatAndMouse.Proofs.Table.Cells
import CatAndMouse.Proofs.Table.Form
import CatAndMouse.Proofs.Table.Numbering
import CatAndMouse.Proofs.Table.Lookup
import CatAndMouse.Proofs.Table.Written
import CatAndMouse.Proofs.Automaton.Stack
import CatAndMouse.Proofs.Automaton.Tables
import CatAndMouse.Proofs.Token.Places
import CatAndMouse.Proofs.Table.Columns
import CatAndMouse.Proofs.Table.Following
import CatAndMouse.Proofs.Expected
import CatAndMouse.Proofs.Tree.Image
import CatAndMouse.Proofs.Automaton.EndOfInput
import CatAndMouse.Proofs.Table.Faults
import CatAndMouse.Proofs.Tree.Typed
import CatAndMouse.Proofs.Automaton.Fragments
import CatAndMouse.Proofs.Token.LineEnds
import CatAndMouse.Proofs.Token.Caret
import CatAndMouse.Proofs.Tree.Outline
import CatAndMouse.Proofs.Commands
import CatAndMouse.Proofs.Automaton.Alignment
import CatAndMouse.Proofs.Tree.Operands
import CatAndMouse.Proofs.Tree.Statements
import CatAndMouse.Proofs.Table.Canonical
