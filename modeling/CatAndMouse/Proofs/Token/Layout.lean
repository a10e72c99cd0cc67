import CatAndMouse.Proofs.Token.Eager
import CatAndMouse.Token.Lexical

/-!
# Reading a laid-out text

A text that is made of lexemes and gaps is read as these lexemes
(`exists_yields_of_lexical`). A lexeme is read as far as it goes: what follows it
never continues it, because gaps, semicolons and the end of the text continue no
word and no run of digits.
-/

namespace CatAndMouse

variable {ids : Text.IdentClasses}

/-! ### Characters -/

/-- A digit begins no word. -/
theorem isWordStart_of_isAsciiDigit (ids : Text.IdentClasses) {c : Char}
    (h : Text.isAsciiDigit c = true) : ids.isWordStart c = false := by
  have hne : c ≠ '_' := by
    rintro rfl
    cases h
  rw [Text.IdentClasses.isWordStart, ids.digit_not_start c h, Bool.false_or, beq_eq_false_iff_ne]
  exact hne

/-- A blank continues no word. -/
theorem isContinue_of_isGapChar (ids : Text.IdentClasses) {c : Char} (h : isGapChar c = true) :
    ids.isContinue c = false := by
  refine ids.separator_not_continue c ?_
  simp only [isGapChar, Bool.or_eq_true, beq_iff_eq] at h
  rcases h with (((rfl | rfl) | rfl) | rfl) | rfl <;> decide

theorem isGapChar_of_isContinue {c : Char} (h : ids.isContinue c = true) :
    isGapChar c = false := by
  cases hc : isGapChar c with
  | false => rfl
  | true =>
    rw [isContinue_of_isGapChar ids hc] at h
    cases h

theorem ne_of_isContinue {c : Char} (h : ids.isContinue c = true) : c ≠ '#' ∧ c ≠ ';' := by
  constructor <;>
  · rintro rfl
    rw [ids.separator_not_continue _ (by decide)] at h
    cases h

theorem ne_lineEnd_of_not_gap {c : Char} (h : isGapChar c = false) : c ≠ '\n' := by
  rintro rfl
  cases h

theorem ne_lineEnd_of_isContinue {c : Char} (h : ids.isContinue c = true) : c ≠ '\n' :=
  ne_lineEnd_of_not_gap (isGapChar_of_isContinue h)

/-! ### Gaps -/

/-- The text does not continue a word, nor a run of digits. -/
def Stops (ids : Text.IdentClasses) (cs : List Char) : Prop :=
  ∀ c ∈ cs.head?, ids.isContinue c = false

theorem stops_nil : Stops ids [] := by simp [Stops]

theorem Gap.stops_append {g cs : List Char} (hg : Gap g) (h : g = [] → Stops ids cs) :
    Stops ids (g ++ cs) := by
  cases hg with
  | nil => exact h rfl
  | blank hc =>
    rintro d ⟨⟩
    exact isContinue_of_isGapChar ids hc
  | comment =>
    rintro d ⟨⟩
    exact ids.separator_not_continue _ (by decide)

theorem LastGap.stops {g : List Char} (hg : LastGap g) : Stops ids g := by
  cases hg with
  | closed hg => simpa using hg.stops_append fun _ => stops_nil
  | unclosed hg =>
    refine hg.stops_append fun _ => ?_
    rintro d ⟨⟩
    exact ids.separator_not_continue _ (by decide)

theorem skipGap_comment {text : List Char} (htext : ∀ c ∈ text, c ≠ '\n') (p : Position)
    (cs : List Char) :
    skipGap true p (text ++ '\n' :: cs) = skipGap false (p.afterAll (text ++ ['\n'])) cs := by
  induction text generalizing p with
  | nil => simp [skipGap, Position.afterAll]
  | cons c text ih =>
    have hc : c ≠ '\n' := htext c (by simp)
    rw [List.cons_append, skipGap, if_pos rfl, show decide (c ≠ '\n') = true by simp [hc],
      ih fun d hd => htext d (by simp [hd])]
    rfl

theorem skipGap_unclosed {text : List Char} (htext : ∀ c ∈ text, c ≠ '\n') (p : Position) :
    skipGap true p text = (p.afterAll text, []) := by
  induction text generalizing p with
  | nil => rfl
  | cons c text ih =>
    have hc : c ≠ '\n' := htext c (by simp)
    rw [skipGap, if_pos rfl, show decide (c ≠ '\n') = true by simp [hc],
      ih fun d hd => htext d (by simp [hd])]
    rfl

theorem skipGap_hash (p : Position) (cs : List Char) :
    skipGap false p ('#' :: cs) = skipGap true (p.after '#') cs := by
  rw [skipGap, if_neg Bool.false_ne_true, if_pos rfl]

/-- A gap is skipped whole. -/
theorem Gap.skipGap_append {g : List Char} (hg : Gap g) (p : Position) (cs : List Char) :
    skipGap false p (g ++ cs) = skipGap false (p.afterAll g) cs := by
  induction hg generalizing p with
  | nil => rfl
  | @blank c g hc _ ih =>
    have hne : c ≠ '#' := by
      rintro rfl
      exact absurd hc (by decide)
    rw [List.cons_append, skipGap, if_neg Bool.false_ne_true, if_neg hne, if_pos hc, ih]
    rfl
  | @comment text g htext _ ih =>
    rw [List.cons_append, List.cons_append, skipGap_hash, List.append_assoc, List.cons_append,
      skipGap_comment htext, ih]
    simp [Position.afterAll]

theorem LastGap.skipGap_eq {g : List Char} (hg : LastGap g) (p : Position) :
    skipGap false p g = (p.afterAll g, []) := by
  cases hg with
  | closed hg => simpa [skipGap] using hg.skipGap_append p []
  | unclosed hg htext =>
    rw [hg.skipGap_append, skipGap_hash, skipGap_unclosed htext]
    simp [Position.afterAll]

/-- Nothing is skipped before a character that belongs to no gap. -/
theorem skipGap_of_not_gap {c : Char} (hc : isGapChar c = false) (hne : c ≠ '#') (p : Position)
    (cs : List Char) : skipGap false p (c :: cs) = (p, c :: cs) := by
  simp [skipGap, hc, hne]

/-! ### Lexemes -/

theorem Kind.lookup_keywords_eq_some_iff {w : String} {k : Kind} :
    keywords.lookup w = some k ↔ k.isKeyword = true ∧ w = k.spelling := by
  have hall : ∀ wk ∈ keywords, wk.2.isKeyword = true ∧ wk.1 = wk.2.spelling ∧
      keywords.lookup wk.1 = some wk.2 := by decide
  constructor
  · intro h
    obtain ⟨l₁, l₂, hl, -⟩ := List.lookup_eq_some_iff.1 h
    obtain ⟨hkeyword, hspelling, -⟩ := hall (w, k) (by simp [hl])
    exact ⟨hkeyword, hspelling⟩
  · rintro ⟨hk, rfl⟩
    obtain ⟨-, -, hsome⟩ := hall (k.spelling, k)
      (List.mem_map_of_mem (List.mem_filter.2 ⟨k.mem_all, hk⟩))
    exact hsome

/-- **The kind of a word**: a keyword's is its own, and every other word is a name. -/
theorem Kind.ofWord_eq_iff {w : String} {k : Kind} :
    Kind.ofWord w = k ↔ (k.isKeyword = true ∧ w = k.spelling) ∨
      (k = .name ∧ ∀ k' : Kind, k'.isKeyword = true → w ≠ k'.spelling) := by
  simp only [← Kind.lookup_keywords_eq_some_iff]
  cases h : keywords.lookup w with
  | none =>
    have hnot : ∀ k' : Kind, k'.isKeyword = true → w ≠ k'.spelling := by
      intro k' hk' hw
      rw [Kind.lookup_keywords_eq_some_iff.2 ⟨hk', hw⟩] at h
      cases h
    rw [ofWord, h, Option.getD_none]
    constructor
    · rintro rfl
      exact .inr ⟨rfl, hnot⟩
    · rintro (hsome | ⟨rfl, -⟩)
      · cases hsome
      · rfl
  | some k' =>
    obtain ⟨hk', hw⟩ := Kind.lookup_keywords_eq_some_iff.1 h
    have hnot : ¬ ∀ k' : Kind, k'.isKeyword = true → w ≠ k'.spelling := fun hne => hne k' hk' hw
    simp [ofWord, h, hnot]

/-- A word is a keyword or a name, and nothing else. -/
theorem Kind.ofWord_ne (w : String) {k : Kind} (hname : k ≠ .name) (hk : k.isKeyword = false) :
    Kind.ofWord w ≠ k := by
  intro h
  rcases Kind.ofWord_eq_iff.1 h with ⟨hkeyword, -⟩ | ⟨hk', -⟩
  · rw [hk] at hkeyword
    cases hkeyword
  · exact hname hk'

theorem Lexeme.kind_ne_endOfInput {k : Kind} {l : List Char} (h : Lexeme ids k l) :
    k ≠ .endOfInput := by
  cases h with
  | semicolon => simp
  | integer => simp
  | word => exact Kind.ofWord_ne _ (by simp) rfl

/-- A semicolon has one text only. -/
theorem Lexeme.eq_of_semicolon {l : List Char} (h : Lexeme ids .semicolon l) : l = [';'] := by
  generalize hk : Kind.semicolon = k at h
  cases h with
  | semicolon => rfl
  | integer => cases hk
  | word => exact absurd hk.symm (Kind.ofWord_ne _ (by simp) rfl)

/-- A lexeme begins with a character of a word, or is a semicolon. -/
theorem Lexeme.head_cases {k : Kind} {c : Char} {l : List Char} (h : Lexeme ids k (c :: l)) :
    c = ';' ∨ ids.isContinue c = true := by
  generalize hcs : c :: l = cs at h
  cases h with
  | semicolon =>
    cases hcs
    exact .inl rfl
  | integer _ hdigits =>
    exact .inr (ids.digit_continue _ (hdigits c (by simp [← hcs])))
  | word h =>
    obtain ⟨d, rest, rfl, hd, -⟩ := h
    cases hcs
    exact .inr (ids.continue_of_wordStart hd)

/-- A lexeme stands in one line. -/
theorem Lexeme.ne_lineEnd {k : Kind} {l : List Char} (h : Lexeme ids k l) : ∀ c ∈ l, c ≠ '\n' := by
  intro c hc
  cases h with
  | semicolon =>
    obtain rfl := List.mem_singleton.1 hc
    decide
  | integer _ hdigits =>
    exact ne_lineEnd_of_isContinue (ids.digit_continue _ (hdigits c hc))
  | word h =>
    obtain ⟨d, rest, rfl, hd, hrest⟩ := h
    rcases List.mem_cons.1 hc with rfl | hc
    · exact ne_lineEnd_of_isContinue (ids.continue_of_wordStart hd)
    · exact ne_lineEnd_of_isContinue (hrest c hc)

theorem Lexeme.skipGap_eq {k : Kind} {c : Char} {l : List Char} (h : Lexeme ids k (c :: l))
    (p : Position) (cs : List Char) : skipGap false p (c :: cs) = (p, c :: cs) := by
  rcases h.head_cases with rfl | hc
  · exact skipGap_of_not_gap (by decide) (by decide) p cs
  · exact skipGap_of_not_gap (isGapChar_of_isContinue hc) (ne_of_isContinue hc).1 p cs

/-- A gap is skipped up to the lexeme after it. -/
theorem Gap.skipGap_lexeme {g l : List Char} {k : Kind} (hg : Gap g) (hl : Lexeme ids k l)
    (p : Position) (cs : List Char) :
    skipGap false p (g ++ (l ++ cs)) = (p.afterAll g, l ++ cs) := by
  obtain ⟨c, l, rfl⟩ := List.exists_cons_of_ne_nil hl.ne_nil
  rw [hg.skipGap_append, List.cons_append, hl.skipGap_eq]

theorem takeWhile_append_of_stops {p : Char → Bool} {l cs : List Char} (hl : ∀ c ∈ l, p c = true)
    (hcs : ∀ c ∈ cs.head?, p c = false) :
    (l ++ cs).takeWhile p = l ∧ (l ++ cs).dropWhile p = cs := by
  have hnil : cs.takeWhile p = [] ∧ cs.dropWhile p = cs := by
    cases cs with
    | nil => exact ⟨rfl, rfl⟩
    | cons c cs => simp [hcs c rfl]
  rw [List.takeWhile_append_of_pos hl, List.dropWhile_append_of_pos hl, hnil.1, hnil.2,
    List.append_nil]
  exact ⟨rfl, rfl⟩

/-- **A lexeme is read** as far as it goes, if what follows stops words. A semicolon needs
nothing. -/
theorem Lexeme.readLexeme_append {k : Kind} {c : Char} {l : List Char} (h : Lexeme ids k (c :: l))
    {cs : List Char} (hcs : k = .semicolon ∨ Stops ids cs) :
    readLexeme ids c (l ++ cs) = .ok (k, c :: l, cs) := by
  generalize hw : c :: l = w at h
  cases h with
  | semicolon =>
    cases hw
    rfl
  | integer _ hdigits =>
    have hstops := hcs.resolve_left (by simp)
    have hc : Text.isAsciiDigit c = true := hdigits c (by simp [← hw])
    have hl : ∀ d ∈ l, Text.isAsciiDigit d = true := fun d hd => hdigits d (by simp [← hw, hd])
    have hnot : ∀ d ∈ cs.head?, Text.isAsciiDigit d = false := fun d hd => by
      cases hdigit : Text.isAsciiDigit d with
      | false => rfl
      | true =>
        rw [← hstops d hd, ids.digit_continue _ hdigit]
    obtain ⟨htake, hdrop⟩ := takeWhile_append_of_stops hl hnot
    have hne : c ≠ ';' := (ne_of_isContinue (ids.digit_continue _ hc)).2
    simp only [readLexeme, hne, hc, htake, hdrop, if_true, if_false]
    cases cs with
    | nil => rw [hw]
    | cons d cs => simp only [hstops d rfl, Bool.false_eq_true, if_false, hw]
  | word h =>
    obtain ⟨d, rest, rfl, hd, hrest⟩ := h
    cases hw
    have hstops := hcs.resolve_left (Kind.ofWord_ne _ (by simp) rfl)
    obtain ⟨htake, hdrop⟩ := takeWhile_append_of_stops hrest hstops
    have hc := ids.continue_of_wordStart hd
    have hdigit : Text.isAsciiDigit c = false := by
      cases hdigit : Text.isAsciiDigit c with
      | false => rfl
      | true => rw [← hd, isWordStart_of_isAsciiDigit ids hdigit]
    simp only [readLexeme, (ne_of_isContinue hc).2, hdigit, hd, htake, hdrop, if_true,
      if_false, Bool.false_eq_true]

/-- Lexemes are laid out with a blank between two of them. -/
theorem lexical_intercalate {ls : List (Kind × List Char)} (h : ∀ kl ∈ ls, Lexeme ids kl.1 kl.2) :
    Lexical ids ls ([' '].intercalate (ls.map Prod.snd)) := by
  have hbody : ∀ kl ls, (∀ kl' ∈ kl :: ls, Lexeme ids kl'.1 kl'.2) →
      LexicalBody ids (kl :: ls) ([' '].intercalate ((kl :: ls).map Prod.snd)) := by
    intro kl ls h
    induction ls generalizing kl with
    | nil =>
      rw [List.map_singleton, List.intercalate_singleton, ← List.append_nil kl.2]
      exact .last (h kl (by simp)) (.closed .nil)
    | cons kl' ls ih =>
      rw [List.map_cons, List.map_cons, List.intercalate_cons_cons]
      -- a blank between two lexemes is always enough
      exact .cons (h kl (by simp)) (.blank rfl .nil) (by simp)
        (ih kl' fun kl'' hmem => h kl'' (List.mem_cons_of_mem _ hmem))
  cases ls with
  | nil => exact .nil (.closed .nil)
  | cons kl ls => exact .cons .nil (hbody kl ls h)

/-- Lexemes can be laid out. -/
theorem exists_lexical {ls : List (Kind × List Char)} (h : ∀ kl ∈ ls, Lexeme ids kl.1 kl.2) :
    ∃ cs, Lexical ids ls cs :=
  ⟨_, lexical_intercalate h⟩

/-! ### The scanner -/

namespace Scanner

variable {s : Scanner ids} {g : List Char}

/-- Taking a lexeme after a gap. -/
theorem next_lexeme {k : Kind} {l cs : List Char} (hahead : s.ahead = none)
    (hfinished : s.finished = false) (hrest : s.rest = g ++ (l ++ cs)) (hg : Gap g)
    (hl : Lexeme ids k l) (hcs : k = .semicolon ∨ Stops ids cs) :
    s.next = (.ok (some ⟨k, String.ofList l, (s.position.afterAll g).line,
        (s.position.afterAll g).col⟩),
      { s with rest := cs, position := (s.position.afterAll g).afterAll l }) := by
  obtain ⟨source, rest, position, ahead, finished⟩ := s
  dsimp only at hahead hfinished hrest
  subst hahead hfinished hrest
  obtain ⟨c, l, rfl⟩ := List.exists_cons_of_ne_nil hl.ne_nil
  have hskip := hg.skipGap_lexeme hl position cs
  rw [List.cons_append] at hskip
  have hread : (⟨source, g ++ (c :: l ++ cs), position, none, false⟩ : Scanner ids).read =
      (.ok ⟨k, String.ofList (c :: l), (position.afterAll g).line, (position.afterAll g).col⟩,
        ⟨source, cs, (position.afterAll g).afterAll (c :: l), none, false⟩) := by
    simp only [read, List.cons_append, hskip, hl.readLexeme_append hcs]
  simp only [next, peek, hread, Bool.false_eq_true, if_false, hl.kind_ne_endOfInput,
    decide_false, Bool.or_false]

/-- Taking the end of the input after the last gap. -/
theorem next_end (hahead : s.ahead = none) (hfinished : s.finished = false) (hg : LastGap s.rest) :
    s.next = (.ok (some ⟨.endOfInput, "", (s.position.afterAll s.rest).line,
        (s.position.afterAll s.rest).col⟩),
      { s with rest := [], position := s.position.afterAll s.rest, finished := true }) := by
  simp [next, peek, read, hahead, hfinished, hg.skipGap_eq]

theorem next_finished (hahead : s.ahead = none) (hfinished : s.finished = true) :
    s.next = (.ok none, s) := by
  simp [next, peek, hahead, hfinished]

theorem yields_nil (hahead : s.ahead = none) (hfinished : s.finished = true) :
    TokenSource.Yields s [] :=
  .nil (next_finished hahead hfinished)

/-- No more tokens are taken than the bound says. -/
theorem length_le_bound {ts : List Token} (h : TokenSource.Yields s ts) :
    ts.length ≤ s.bound := by
  obtain ⟨last, hall⟩ := exists_all_iff_yields.2 h
  exact length_le_bound_of_all hall

end Scanner

/-- The kind of the token and its text. -/
def Token.lexeme (t : Token) : Kind × List Char := (t.kind, t.text.toList)

/-- The scanner reads what is laid out, and then the end of the input. -/
theorem exists_yields_of_lastGap {s : Scanner ids} (hahead : s.ahead = none)
    (hfinished : s.finished = false) (hg : LastGap s.rest) :
    ∃ ts, TokenSource.Yields s ts ∧ ts.map Token.lexeme = [(.endOfInput, [])] :=
  ⟨_, .cons (Scanner.next_end hahead hfinished hg) (Scanner.yields_nil hahead rfl), rfl⟩

/-- A text that begins with a semicolon continues no word. -/
theorem LexicalBody.stops_of_semicolon {k : Kind} {l cs : List Char}
    {ls : List (Kind × List Char)} (h : LexicalBody ids ((k, l) :: ls) cs) (hk : k = .semicolon) :
    Stops ids cs := by
  subst hk
  have hstops : ∀ cs : List Char, Stops ids ([';'] ++ cs) := by
    rintro cs d ⟨⟩
    exact ids.separator_not_continue _ (by decide)
  cases h with
  | last hl =>
    rw [hl.eq_of_semicolon]
    exact hstops _
  | cons hl =>
    rw [hl.eq_of_semicolon, List.append_assoc]
    exact hstops _

theorem exists_yields_of_body {ls : List (Kind × List Char)} {cs : List Char}
    (h : LexicalBody ids ls cs) {s : Scanner ids} {g : List Char} (hahead : s.ahead = none)
    (hfinished : s.finished = false) (hg : Gap g) (hrest : s.rest = g ++ cs) :
    ∃ ts, TokenSource.Yields s ts ∧ ts.map Token.lexeme = ls ++ [(.endOfInput, [])] := by
  induction h generalizing s g with
  | @last _ l g' hl hg' =>
    have hnext := Scanner.next_lexeme hahead hfinished hrest hg hl (.inr hg'.stops)
    let s' : Scanner ids := { s with rest := g', position := (s.position.afterAll g).afterAll l }
    obtain ⟨ts, hts, hls⟩ := exists_yields_of_lastGap (s := s') hahead hfinished hg'
    exact ⟨_ :: ts, .cons hnext hts, by simp [hls, Token.lexeme]⟩
  | @cons k k' l l' g' cs ls hl hg' htouch rest ih =>
    rw [List.append_assoc] at hrest
    -- a gap stops words, and so does a semicolon
    have hstops : k = .semicolon ∨ Stops ids (g' ++ cs) := by
      by_cases hk : k = .semicolon
      · exact .inl hk
      · refine .inr (hg'.stops_append fun hnil => ?_)
        exact rest.stops_of_semicolon ((htouch hnil).resolve_left hk)
    have hnext := Scanner.next_lexeme hahead hfinished hrest hg hl hstops
    let s' : Scanner ids :=
      { s with rest := g' ++ cs, position := (s.position.afterAll g).afterAll l }
    obtain ⟨ts, hts, hls⟩ := ih (s := s') hahead hfinished hg' rfl
    exact ⟨_ :: ts, .cons hnext hts, by simp [hls, Token.lexeme]⟩

/-- **Laid-out texts**: the scanner reads the lexemes of which a text is made, in order, and
then the end of the input. -/
theorem exists_yields_of_lexical {ls : List (Kind × List Char)} {text : String}
    (h : Lexical ids ls text.toList) :
    ∃ ts, TokenSource.Yields (Scanner.ofText ids text) ts ∧
      ts.map Token.lexeme = ls ++ [(.endOfInput, [])] := by
  generalize hcs : text.toList = cs at h
  cases h with
  | nil hg =>
    exact exists_yields_of_lastGap rfl rfl (by simpa [Scanner.ofText, Scanner.startAt, hcs])
  | cons hg hb => exact exists_yields_of_body hb rfl rfl hg hcs

end CatAndMouse
