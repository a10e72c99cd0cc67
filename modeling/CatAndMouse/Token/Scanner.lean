import CatAndMouse.Text.Blank
import CatAndMouse.Text.Digit
import CatAndMouse.Text.Identifier
import CatAndMouse.Text.Line
import CatAndMouse.Text.Numeral
import CatAndMouse.Token

/-!
# The scanner

A scanner turns a text into tokens, one at a time. Between tokens it skips
*gaps*: spaces, tabs, line ends, form feeds and comments from `#` to the end of
the line. A token is a semicolon, the longest run of ASCII digits, or the
longest word; a word is a keyword or a name. A run of digits must not run into
a word. Which characters make a word is said by the classes that the scanner is
over, `ids`.

`Scanner.peek` and `Scanner.next` answer with a token, with nothing once the
end of the input has been delivered, or with an error. An error leaves the
scanner in front of what it could not read, so it comes up again.
-/

namespace CatAndMouse

/-- A place in a text, by line and column. -/
structure Position where
  line : Int
  col : Int
deriving DecidableEq

/-- The place after a character. -/
def Position.after (p : Position) (c : Char) : Position :=
  if c = '\n' then ⟨p.line + 1, 1⟩ else ⟨p.line, p.col + 1⟩

/-- The place after a stretch of text. -/
def Position.afterAll (p : Position) (cs : List Char) : Position := cs.foldl Position.after p

/-- What the scanner cannot read. -/
inductive ScanFault where
  /-- A run of digits that goes on as a word. -/
  | malformedInteger
  /-- A character that begins no token. -/
  | unexpected (c : Char)
deriving DecidableEq

/-- A fault with the place where the token would begin, and a snippet of the text. -/
structure ScanError where
  fault : ScanFault
  line : Int
  col : Int
  snippet : String
deriving DecidableEq

/-- What is wrong, in words. -/
def ScanFault.message : ScanFault → String
  | .malformedInteger => "malformed integer"
  | .unexpected c => "unexpected character " ++ Text.quoted (String.singleton c)

/-- The error message: fault, place and snippet. -/
def ScanError.message (e : ScanError) : String :=
  s!"Lexing error: {e.fault.message} at {e.line}:{e.col}\n{e.snippet}"

/-- The error message, if its place can be written. -/
def ScanError.report? (e : ScanError) : Option String :=
  Text.report? [e.line, e.col] e.message

/-! ### Gaps and lexemes -/

/-- A character that stands between tokens. -/
def isGapChar (c : Char) : Bool :=
  c == ' ' || c == '\t' || c == '\r' || c == '\n' || c == '\x0c'

/-- Skip a gap, within a comment or not; the place after it and what follows. -/
def skipGap (inComment : Bool) (p : Position) : List Char → Position × List Char
  | [] => (p, [])
  | c :: cs =>
    if inComment then skipGap (c ≠ '\n') (p.after c) cs
    else if c = '#' then skipGap true (p.after c) cs
    else if isGapChar c then skipGap false (p.after c) cs
    else (p, c :: cs)

/-- The kind and the characters of the token at the start of a text that begins with
`c`, and what follows it; or the fault, and the text from the faulty character on. -/
def readLexeme (ids : Text.IdentClasses) (c : Char) (cs : List Char) :
    Except (ScanFault × List Char) (Kind × List Char × List Char) :=
  if c = ';' then .ok (.semicolon, [c], cs)
  else if Text.isAsciiDigit c then
    let rest := cs.dropWhile Text.isAsciiDigit
    match rest with
    | d :: _ =>
      if ids.isContinue d then .error (.malformedInteger, rest)
      else .ok (.integer, c :: cs.takeWhile Text.isAsciiDigit, rest)
    | [] => .ok (.integer, c :: cs.takeWhile Text.isAsciiDigit, rest)
  else if ids.isWordStart c then
    let word := c :: cs.takeWhile ids.isContinue
    .ok (Kind.ofWord (String.ofList word), word, cs.dropWhile ids.isContinue)
  else .error (.unexpected c, c :: cs)

/-! ### The scanner -/

/-- A scanner over classes of characters: the whole text, the part not yet read and its place, a
token that was looked at and not taken, and whether the end of the input was delivered. -/
structure Scanner (ids : Text.IdentClasses) where
  source : List Char
  rest : List Char
  position : Position
  ahead : Option Token
  finished : Bool
deriving DecidableEq

namespace Scanner

variable {ids : Text.IdentClasses}

/-- A scanner at the start of a text that begins at the given place. -/
def startAt (ids : Text.IdentClasses) (text : String) (p : Position) : Scanner ids :=
  ⟨text.toList, text.toList, p, none, false⟩

/-- A scanner at the start of a text, whose lines and columns count from one. -/
def ofText (ids : Text.IdentClasses) (text : String) : Scanner ids := startAt ids text ⟨1, 1⟩

/-- Put the scanner at the start of another text. -/
def reset (s : Scanner ids) (text : String) (p : Position) : Scanner ids :=
  { s with
    source := text.toList
    rest := text.toList
    position := p
    ahead := none
    finished := false }

/-- Nothing of what the scanner has done is left after a reset. -/
@[simp]
theorem reset_eq_startAt (s : Scanner ids) (text : String) (p : Position) :
    s.reset text p = startAt ids text p := rfl

/-- Read one token; the scanner moves past the gap even if the token cannot be read. -/
def read (s : Scanner ids) : Except ScanError Token × Scanner ids :=
  let (p, rest) := skipGap false s.position s.rest
  let here := { s with rest, position := p }
  match rest with
  | [] => (.ok ⟨.endOfInput, "", p.line, p.col⟩, here)
  | c :: cs =>
    match readLexeme ids c cs with
    | .ok (kind, lexeme, after) =>
      (.ok ⟨kind, String.ofList lexeme, p.line, p.col⟩,
        { here with rest := after, position := p.afterAll lexeme })
    | .error (fault, bad) =>
      let offset := s.source.length - bad.length
      (.error ⟨fault, p.line, p.col, String.ofList (Text.caretSnippet s.source offset)⟩, here)

/-- The next token, left in place. -/
def peek (s : Scanner ids) : Except ScanError (Option Token) × Scanner ids :=
  match s.ahead with
  | some t => (.ok (some t), s)
  | none =>
    if s.finished then (.ok none, s)
    else
      match s.read with
      | (.ok t, s') => (.ok (some t), { s' with ahead := some t })
      | (.error e, s') => (.error e, s')

/-- The next token, taken from the text. -/
def next (s : Scanner ids) : Except ScanError (Option Token) × Scanner ids :=
  match s.peek with
  | (.ok (some t), s') =>
    (.ok (some t), { s' with ahead := none, finished := s'.finished || t.kind = .endOfInput })
  | (.ok none, s') => (.ok none, s')
  | (.error e, s') => (.error e, s')

/-! ### All the tokens -/

/-- An upper bound on the tokens still to come. -/
def bound (s : Scanner ids) : Nat :=
  (if s.finished then 0 else s.rest.length + 1) + (if s.ahead.isSome then 1 else 0)

end Scanner

/-- Skipping a gap leaves no more than there was. -/
theorem length_skipGap_le (b : Bool) (p : Position) (cs : List Char) :
    (skipGap b p cs).2.length ≤ cs.length := by
  induction cs generalizing b p with
  | nil => simp [skipGap]
  | cons c cs ih =>
    rw [skipGap]
    split
    · exact Nat.le_succ_of_le (ih _ _)
    · split
      · exact Nat.le_succ_of_le (ih _ _)
      · split
        · exact Nat.le_succ_of_le (ih _ _)
        · simp

/-- A lexeme and what follows it are the text: nothing is lost, and the lexeme is not empty. -/
theorem eq_append_of_readLexeme {ids : Text.IdentClasses} {c : Char}
    {cs lexeme after : List Char} {k : Kind} (h : readLexeme ids c cs = .ok (k, lexeme, after)) :
    c :: cs = lexeme ++ after ∧ lexeme ≠ [] := by
  unfold readLexeme at h
  split at h
  · simp only [Except.ok.injEq, Prod.mk.injEq] at h
    obtain ⟨-, rfl, rfl⟩ := h
    simp
  · split at h
    · have hsplit := (List.takeWhile_append_dropWhile (p := Text.isAsciiDigit) (l := cs)).symm
      dsimp only at h
      split at h
      · split at h
        · simp at h
        · simp only [Except.ok.injEq, Prod.mk.injEq] at h
          obtain ⟨-, rfl, rfl⟩ := h
          simp [← hsplit]
      · simp only [Except.ok.injEq, Prod.mk.injEq] at h
        obtain ⟨-, rfl, rfl⟩ := h
        simp [← hsplit]
    · split at h
      · simp only [Except.ok.injEq, Prod.mk.injEq] at h
        obtain ⟨-, rfl, rfl⟩ := h
        simp
      · simp at h

namespace Scanner

variable {ids : Text.IdentClasses}

/-- Reading a token keeps what was looked at, and shortens the text unless the text is over. -/
theorem read_shortens {s s' : Scanner ids} {t : Token} (h : s.read = (.ok t, s')) :
    s'.ahead = s.ahead ∧ s'.finished = s.finished ∧
      (t.kind = .endOfInput ∨ s'.rest.length < s.rest.length) := by
  have hgap := length_skipGap_le false s.position s.rest
  unfold read at h
  generalize skipGap false s.position s.rest = g at h hgap
  obtain ⟨p, rest⟩ := g
  cases rest with
  | nil =>
    simp only [Prod.mk.injEq, Except.ok.injEq] at h
    obtain ⟨rfl, rfl⟩ := h
    simp
  | cons c cs =>
    dsimp only at h
    split at h
    · next kind lexeme after hread =>
      simp only [Prod.mk.injEq, Except.ok.injEq] at h
      obtain ⟨rfl, rfl⟩ := h
      obtain ⟨hsplit, hne⟩ := eq_append_of_readLexeme hread
      refine ⟨rfl, rfl, .inr ?_⟩
      have hlen := congrArg List.length hsplit
      have hpos := List.length_pos_iff.2 hne
      simp only [List.length_append] at hlen
      dsimp only at hgap ⊢
      omega
    · simp at h

/-- Taking a token leaves fewer to come. -/
theorem bound_next_lt {s s' : Scanner ids} {t : Token} (h : s.next = (.ok (some t), s')) :
    s'.bound < s.bound := by
  unfold next peek at h
  cases ha : s.ahead with
  | some u =>
    simp only [ha, Prod.mk.injEq, Except.ok.injEq, Option.some.injEq] at h
    obtain ⟨rfl, rfl⟩ := h
    cases hf : s.finished <;> simp [bound, ha, hf]
    split <;> omega
  | none =>
    cases hf : s.finished with
    | true => simp [ha, hf] at h
    | false =>
      simp only [ha, hf, Bool.false_eq_true, if_false] at h
      cases hr : s.read with
      | mk r s₁ =>
        cases r with
        | error e => simp [hr] at h
        | ok u =>
          simp only [hr, Prod.mk.injEq, Except.ok.injEq, Option.some.injEq] at h
          obtain ⟨rfl, rfl⟩ := h
          obtain ⟨-, hfin, hshort⟩ := read_shortens hr
          rcases hshort with hend | hlt
          · simp [bound, ha, hf, hend]
          · simp only [bound, ha, hf, hfin]
            cases decide (u.kind = .endOfInput) <;> simp
            omega

/-- Every token up to the end of the input or the first error. -/
def all (s : Scanner ids) : List Token × Option ScanError × Scanner ids :=
  match h : s.next with
  | (.ok (some t), s') =>
    have := bound_next_lt h
    let (ts, e, last) := s'.all
    (t :: ts, e, last)
  | (.ok none, s') => ([], none, s')
  | (.error e, s') => ([], some e, s')
termination_by s.bound

end Scanner

end CatAndMouse
