import CatAndMouse.Grammar
import CatAndMouse.Token

/-!
# Phrases and parts

The grammar names its symbols by texts. Here the two sorts of symbols are told
apart: a `Part` of a production is a token of some kind or a phrase, and
`Part.symbol` gives its name. `phraseRules` lists the productions in this form,
and `standardProductions_eq` says that they are the productions of the language.
-/

namespace CatAndMouse

/-- The nonterminals of the language. -/
inductive Phrase where
  | program
  | list
  | statement
  | direction
deriving DecidableEq

/-- The name of a phrase in the grammar. -/
def Phrase.symbol : Phrase → String
  | .program => programSymbol
  | .list => "_LIST"
  | .statement => "_STATEMENT"
  | .direction => "_DIRECTION"

/-- A symbol of the grammar. -/
inductive Part where
  | token (k : Kind)
  | phrase (p : Phrase)
deriving DecidableEq

namespace Part

/-- The name of a part in the grammar. -/
def symbol : Part → String
  | token k => k.symbol
  | phrase p => p.symbol

/-- Tokens with a value, and all phrases, leave a tree. -/
def carriesValue : Part → Bool
  | token k => k.isLeaf
  | phrase _ => true

end Part

theorem Kind.symbol_inj {k k' : Kind} (h : k.symbol = k'.symbol) : k = k' := by
  have := congrArg Kind.ofSymbol? h
  rw [Kind.ofSymbol?_symbol, Kind.ofSymbol?_symbol] at this
  exact Option.some.inj this

theorem Phrase.symbol_inj {p p' : Phrase} (h : p.symbol = p'.symbol) : p = p' := by
  cases p <;> cases p' <;> first | rfl | exact absurd h (by decide)

/-- A token and a phrase never have the same name. -/
theorem Kind.symbol_ne (k : Kind) (p : Phrase) : k.symbol ≠ p.symbol := by
  intro h
  have hk := Kind.ofSymbol?_symbol k
  have hp : Kind.ofSymbol? p.symbol = none := by cases p <;> decide
  rw [h, hp] at hk
  cases hk

theorem Part.symbol_inj {x y : Part} (h : x.symbol = y.symbol) : x = y := by
  cases x with
  | token k =>
    cases y with
    | token k' => rw [Kind.symbol_inj h]
    | phrase p => exact absurd h (Kind.symbol_ne k p)
  | phrase p =>
    cases y with
    | token k => exact absurd h.symm (Kind.symbol_ne k p)
    | phrase p' => rw [Phrase.symbol_inj h]

theorem Part.map_symbol_inj {xs ys : List Part} (h : xs.map Part.symbol = ys.map Part.symbol) :
    xs = ys :=
  (List.map_inj_right fun _ _ => Part.symbol_inj).1 h

theorem Phrase.symbol_mem (p : Phrase) : p.symbol ∈ standardNonterminals := by
  cases p <;> decide

theorem mem_standardNonterminals_iff {x : String} :
    x ∈ standardNonterminals ↔ ∃ p : Phrase, x = p.symbol := by
  constructor
  · intro h
    simp only [standardNonterminals, List.mem_cons, List.not_mem_nil, or_false] at h
    rcases h with h | h | h | h
    · exact ⟨.program, h⟩
    · exact ⟨.list, h⟩
    · exact ⟨.statement, h⟩
    · exact ⟨.direction, h⟩
  · rintro ⟨p, rfl⟩
    exact p.symbol_mem

/-- The name of a kind of token is no nonterminal. -/
theorem Kind.symbol_not_mem (k : Kind) : k.symbol ∉ standardNonterminals := by
  rw [mem_standardNonterminals_iff]
  rintro ⟨p, h⟩
  exact Kind.symbol_ne k p h

/-! ### Productions -/

/-- A production with its number. -/
structure PhraseRule where
  number : Nat
  phrase : Phrase
  parts : List Part
deriving DecidableEq

/-- The production, its symbols named. -/
def PhraseRule.production (r : PhraseRule) : Production :=
  ⟨r.phrase.symbol, r.parts.map Part.symbol⟩

open CatAndMouse.Part CatAndMouse.Kind in
/-- The productions of the language. -/
def phraseRules : List PhraseRule :=
  [⟨1, .program, [token size, token integer, token integer, token start, phrase .list,
      token halt]⟩,
   ⟨2, .list, [phrase .statement, token semicolon]⟩,
   ⟨3, .list, [phrase .list, phrase .statement, token semicolon]⟩,
   ⟨4, .statement, [token cat, token name, token integer, token integer, phrase .direction]⟩,
   ⟨5, .statement, [token mouse, token name, token integer, token integer, phrase .direction]⟩,
   ⟨6, .statement, [token hole, token integer, token integer]⟩,
   ⟨7, .statement, [token move, token name]⟩,
   ⟨8, .statement, [token move, token name, token integer]⟩,
   ⟨9, .statement, [token clockwise, token name]⟩,
   ⟨10, .statement, [token loop, token integer, phrase .list, token done]⟩,
   ⟨11, .direction, [token (heading .north)]⟩,
   ⟨12, .direction, [token (heading .south)]⟩,
   ⟨13, .direction, [token (heading .east)]⟩,
   ⟨14, .direction, [token (heading .west)]⟩]

/-- The listed productions are those of the language. -/
theorem standardProductions_eq :
    standardProductions = phraseRules.map fun r => ((r.number : Int), r.production) := rfl

theorem mem_standardProductions_iff {n : Int} {p : Production} :
    (n, p) ∈ standardProductions ↔ ∃ r ∈ phraseRules, (r.number : Int) = n ∧ r.production = p := by
  rw [standardProductions_eq, List.mem_map]
  simp only [Prod.mk.injEq]

end CatAndMouse
