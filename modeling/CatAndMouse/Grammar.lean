import CatAndMouse.Text.Blank
import CatAndMouse.Text.Split

/-!
# Grammars

A *production* puts a sequence of symbols in the place of a nonterminal. A *rule* is what
a parse table needs of a production: how many symbols it takes off the stack,
the nonterminal it puts there, and a text to show. Rules are numbered, and a
table refers to them by their numbers.

The language itself has fourteen productions: a program has a size and a list
of statements, a statement places an animal or a hole, moves, turns or repeats.
-/

namespace CatAndMouse

/-- A nonterminal and the symbols that take its place. -/
structure Production where
  lhs : String
  rhs : List String
deriving DecidableEq

/-- A production as a table uses it: how many symbols it takes, the symbol it leaves, and
its text. Nothing ties the three together. -/
structure Rule where
  size : Int
  lhs : String
  text : String
deriving DecidableEq

/-- The text of a production: `lhs -> symbol symbol …`. -/
def Production.text (p : Production) : String :=
  p.lhs ++ " -> " ++ String.intercalate " " p.rhs

/-- The rule of a production. -/
def Production.rule (p : Production) : Rule := ⟨p.rhs.length, p.lhs, p.text⟩

/-- The production that a text shows: what stands before the first arrow, and the words
after it. Without an arrow, all of the text is the left-hand side. -/
def Production.ofText (text : String) : Production :=
  match Text.breakAt? " -> ".toList text.toList with
  | some (before, after) => ⟨String.ofList before, Text.words (String.ofList after)⟩
  | none => ⟨text, []⟩

/-- The rule that a text shows. The text is kept as it is. -/
def Rule.ofText (text : String) : Rule :=
  let p := Production.ofText text
  ⟨p.rhs.length, p.lhs, text⟩

/-- Numbered rules, in the order in which they were given; no number comes twice. -/
abbrev RuleBook := List (Int × Rule)

/-- Give a number its rule. A number that is there keeps its place. -/
def RuleBook.put (number : Int) (rule : Rule) : RuleBook → RuleBook
  | [] => [(number, rule)]
  | (m, r) :: rest =>
    if m = number then (number, rule) :: rest else (m, r) :: RuleBook.put number rule rest

/-- The rule book of a list in which later rules replace earlier ones. -/
def RuleBook.ofList (rules : List (Int × Rule)) : RuleBook :=
  rules.foldl (fun book (number, rule) => RuleBook.put number rule book) []

/-! ### The language -/

/-- The nonterminal of whole programs. -/
def programSymbol : String := "_PROGRAM"

/-- The nonterminals, in the order of their columns. -/
def standardNonterminals : List String := [programSymbol, "_LIST", "_STATEMENT", "_DIRECTION"]

/-- The productions of the language with their numbers. -/
def standardProductions : List (Int × Production) :=
  [(1, ⟨programSymbol, ["SIZE", "INTEGER", "INTEGER", "BEGIN", "_LIST", "HALT"]⟩),
   (2, ⟨"_LIST", ["_STATEMENT", "SEMICOLON"]⟩),
   (3, ⟨"_LIST", ["_LIST", "_STATEMENT", "SEMICOLON"]⟩),
   (4, ⟨"_STATEMENT", ["CAT", "VARIABLE", "INTEGER", "INTEGER", "_DIRECTION"]⟩),
   (5, ⟨"_STATEMENT", ["MOUSE", "VARIABLE", "INTEGER", "INTEGER", "_DIRECTION"]⟩),
   (6, ⟨"_STATEMENT", ["HOLE", "INTEGER", "INTEGER"]⟩),
   (7, ⟨"_STATEMENT", ["MOVE", "VARIABLE"]⟩),
   (8, ⟨"_STATEMENT", ["MOVE", "VARIABLE", "INTEGER"]⟩),
   (9, ⟨"_STATEMENT", ["CLOCKWISE", "VARIABLE"]⟩),
   (10, ⟨"_STATEMENT", ["REPEAT", "INTEGER", "_LIST", "END"]⟩),
   (11, ⟨"_DIRECTION", ["NORTH"]⟩),
   (12, ⟨"_DIRECTION", ["SOUTH"]⟩),
   (13, ⟨"_DIRECTION", ["EAST"]⟩),
   (14, ⟨"_DIRECTION", ["WEST"]⟩)]

/-- The rules of the language. -/
def standardRules : RuleBook := standardProductions.map fun (n, p) => (n, p.rule)

/-- The text of each production shows its rule. -/
theorem Rule.ofText_text_of_standard {n : Int} {p : Production}
    (h : (n, p) ∈ standardProductions) : Rule.ofText p.text = p.rule := by
  have hall : ∀ np ∈ standardProductions, Rule.ofText np.2.text = np.2.rule := by decide +kernel
  exact hall (n, p) h

end CatAndMouse
