import CatAndMouse.Token.Scanner

/-!
# The lexical language

What the scanner reads, said without a scanner: a text is a sequence of lexemes
with gaps between them. A gap is made of blanks and of comments that a line end
closes; only the last gap may end in a comment that is not closed. Lexemes are
over the same classes of characters as the scanner.
-/

namespace CatAndMouse

/-- What stands between two tokens. -/
inductive Gap : List Char → Prop where
  | nil : Gap []
  | blank {c : Char} {cs : List Char} (hc : isGapChar c = true) (rest : Gap cs) : Gap (c :: cs)
  /-- A comment closed by its line end. -/
  | comment {text cs : List Char} (htext : ∀ c ∈ text, c ≠ '\n') (rest : Gap cs) :
      Gap ('#' :: text ++ '\n' :: cs)

/-- What stands after the last token. -/
inductive LastGap : List Char → Prop where
  | closed {cs : List Char} (h : Gap cs) : LastGap cs
  /-- A comment that the end of the text closes. -/
  | unclosed {cs text : List Char} (h : Gap cs) (htext : ∀ c ∈ text, c ≠ '\n') :
      LastGap (cs ++ '#' :: text)

variable {ids : Text.IdentClasses}

/-- A word: a first character and others that continue it. -/
def IsWord (ids : Text.IdentClasses) (cs : List Char) : Prop :=
  ∃ c rest, cs = c :: rest ∧ ids.isWordStart c = true ∧ ∀ d ∈ rest, ids.isContinue d = true

/-- The text of a token of some kind. -/
inductive Lexeme (ids : Text.IdentClasses) : Kind → List Char → Prop where
  | semicolon : Lexeme ids .semicolon [';']
  | integer {cs : List Char} (hne : cs ≠ []) (h : ∀ c ∈ cs, Text.isAsciiDigit c = true) :
      Lexeme ids .integer cs
  | word {cs : List Char} (h : IsWord ids cs) : Lexeme ids (Kind.ofWord (String.ofList cs)) cs

/-- Gaps joined in front of a gap are a gap. -/
theorem Gap.append {g h : List Char} (hg : Gap g) (hh : Gap h) : Gap (g ++ h) := by
  induction hg with
  | nil => exact hh
  | blank hc _ ih => exact .blank hc ih
  | comment htext _ ih =>
    rw [List.append_assoc]
    exact .comment htext ih

/-- A lexeme is not empty. -/
theorem Lexeme.ne_nil {k : Kind} {cs : List Char} (h : Lexeme ids k cs) : cs ≠ [] := by
  cases h with
  | semicolon => simp
  | integer hne => exact hne
  | word h =>
    obtain ⟨c, rest, rfl, -⟩ := h
    simp

/-- Two lexemes may stand side by side if one of them is a semicolon. -/
def MayTouch (k k' : Kind) : Prop := k = .semicolon ∨ k' = .semicolon

/-- `LexicalBody ids ls cs`: the text `cs` begins with the first of the lexemes `ls`, goes on with
the others, and ends in a last gap. Where a gap is empty, its neighbours may touch. -/
inductive LexicalBody (ids : Text.IdentClasses) : List (Kind × List Char) → List Char → Prop where
  | last {k : Kind} {l g : List Char} (hl : Lexeme ids k l) (hg : LastGap g) :
      LexicalBody ids [(k, l)] (l ++ g)
  | cons {k k' : Kind} {l l' g cs : List Char} {ls : List (Kind × List Char)}
      (hl : Lexeme ids k l) (hg : Gap g) (htouch : g = [] → MayTouch k k')
      (rest : LexicalBody ids ((k', l') :: ls) cs) :
      LexicalBody ids ((k, l) :: (k', l') :: ls) (l ++ g ++ cs)

/-- `Lexical ids ls cs`: the text `cs` is made of the lexemes `ls` and of gaps. -/
inductive Lexical (ids : Text.IdentClasses) : List (Kind × List Char) → List Char → Prop where
  | nil {g : List Char} (hg : LastGap g) : Lexical ids [] g
  | cons {g cs : List Char} {ls : List (Kind × List Char)} (hg : Gap g)
      (hb : LexicalBody ids ls cs) : Lexical ids ls (g ++ cs)

end CatAndMouse
