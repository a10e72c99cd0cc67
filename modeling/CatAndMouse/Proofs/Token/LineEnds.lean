import CatAndMouse.Proofs.Token.Places

/-!
# Line ends of two characters

A text may end its lines with CR LF as well as with LF (`Text.withReturns`). CR is a blank
between tokens, it belongs to a comment at whose end it stands, and the LF after it sets the column
back. So gaps stay gaps, lexemes are not touched, what stops a lexeme still stops it, and what
cannot be read still cannot: every text begins as it did before.

The main result is `returns_change_nothing`: both texts have the same tokens in the same places,
and the same error after them. Only the lines that the error shows differ.
-/

namespace CatAndMouse

variable {ids : Text.IdentClasses}

/-! ### Texts -/

namespace Text

/-- Each LF becomes CR LF. -/
def withReturns : List Char → List Char
  | [] => []
  | c :: cs => if c = '\n' then '\r' :: '\n' :: withReturns cs else c :: withReturns cs

theorem withReturns_lineEnd (cs : List Char) :
    withReturns ('\n' :: cs) = '\r' :: '\n' :: withReturns cs :=
  if_pos rfl

theorem withReturns_cons {c : Char} (hc : c ≠ '\n') (cs : List Char) :
    withReturns (c :: cs) = c :: withReturns cs :=
  if_neg hc

theorem withReturns_append (cs ds : List Char) :
    withReturns (cs ++ ds) = withReturns cs ++ withReturns ds := by
  induction cs with
  | nil => rfl
  | cons c cs ih =>
    by_cases hc : c = '\n'
    · subst hc
      rw [List.cons_append, withReturns_lineEnd, withReturns_lineEnd, ih]
      rfl
    · rw [List.cons_append, withReturns_cons hc, withReturns_cons hc, ih]
      rfl

/-- Within a line nothing changes. -/
theorem withReturns_eq_self {cs : List Char} (h : ∀ c ∈ cs, c ≠ '\n') : withReturns cs = cs := by
  induction cs with
  | nil => rfl
  | cons c cs ih =>
    obtain ⟨hc, hcs⟩ := List.forall_mem_cons.1 h
    rw [withReturns_cons hc, ih hcs]

end Text

open Text

/-- CR takes a column, and LF sets the column back. -/
theorem Position.afterAll_withReturns (p : Position) (cs : List Char) :
    p.afterAll (withReturns cs) = p.afterAll cs := by
  induction cs generalizing p with
  | nil => rfl
  | cons c cs ih =>
    by_cases hc : c = '\n'
    · subst hc
      rw [withReturns_lineEnd]
      exact ih (p.after '\n')
    · rw [withReturns_cons hc]
      exact ih (p.after c)

/-! ### Gaps and lexemes -/

theorem Gap.withReturns {g : List Char} (hg : Gap g) : Gap (withReturns g) := by
  induction hg with
  | nil => exact .nil
  | @blank c g hc _ ih =>
    by_cases hend : c = '\n'
    · subst hend
      rw [withReturns_lineEnd]
      exact .blank rfl (.blank hc ih)
    · rw [withReturns_cons hend]
      exact .blank hc ih
  | @comment text g htext _ ih =>
    -- CR is the last character of the comment
    have htext' : ∀ c ∈ text ++ ['\r'], c ≠ '\n' :=
      List.forall_mem_append.2 ⟨htext, List.forall_mem_singleton.2 (by decide)⟩
    have hcomment := Gap.comment htext' ih
    rw [List.cons_append, withReturns_cons (by decide), withReturns_append,
      withReturns_eq_self htext, withReturns_lineEnd]
    simpa using hcomment

theorem LastGap.withReturns {g : List Char} (hg : LastGap g) : LastGap (withReturns g) := by
  cases hg with
  | closed hg => exact .closed hg.withReturns
  | unclosed hg htext =>
    rw [withReturns_append, withReturns_cons (by decide), withReturns_eq_self htext]
    exact .unclosed hg.withReturns htext

/-- What stops a word before a line end also stops it before CR. -/
theorem Stops.withReturns {cs : List Char} (h : Stops ids cs) : Stops ids (withReturns cs) := by
  cases cs with
  | nil => exact h
  | cons c cs =>
    by_cases hc : c = '\n'
    · subst hc
      rw [withReturns_lineEnd]
      rintro d ⟨⟩
      exact ids.separator_not_continue _ (by decide)
    · rw [withReturns_cons hc]
      rintro d ⟨⟩
      exact h c rfl

theorem Unreadable.withReturns {f : ScanFault} {l bad : List Char} (h : Unreadable ids f l bad) :
    Unreadable ids f l (withReturns bad) := by
  cases h with
  | malformedInteger hne hdigits hc hdigit =>
    rw [withReturns_cons (ne_lineEnd_of_isContinue hc)]
    exact .malformedInteger hne hdigits hc hdigit
  | @unexpected c _ hgap hhash hlexeme =>
    rw [withReturns_cons (ne_lineEnd_of_not_gap hgap)]
    exact .unexpected hgap hhash hlexeme

/-- What is unreadable is not read. -/
theorem readLexeme_of_unreadable {f : ScanFault} {l bad cs : List Char} {c : Char}
    (h : Unreadable ids f l bad) (heq : c :: cs = l ++ bad) :
    readLexeme ids c cs = .error (f, bad) := by
  cases h with
  | @malformedInteger ds ds' d hne hdigits hd hdigit =>
    obtain ⟨d', ds, rfl⟩ := List.exists_cons_of_ne_nil hne
    rw [List.cons_append] at heq
    obtain ⟨rfl, rfl⟩ := List.cons.inj heq
    obtain ⟨hc, hdigits⟩ := List.forall_mem_cons.1 hdigits
    have hend : ∀ x ∈ (d :: ds').head?, isAsciiDigit x = false := by
      rintro x ⟨⟩
      exact hdigit
    obtain ⟨-, hdrop⟩ := takeWhile_append_of_stops hdigits hend
    have hsemicolon : c ≠ ';' := (ne_of_isContinue (ids.digit_continue _ hc)).2
    simp only [readLexeme, hsemicolon, hc, hdrop, hd, if_true, if_false]
  | unexpected _ _ hlexeme =>
    obtain ⟨rfl, rfl⟩ := List.cons.inj heq
    have hsemicolon : c ≠ ';' := by
      rintro rfl
      exact hlexeme _ _ .semicolon
    have hdigit : isAsciiDigit c = false := by
      cases hc : isAsciiDigit c with
      | false => rfl
      | true => exact absurd (.integer (List.cons_ne_nil c []) (by simpa using hc)) (hlexeme _ [])
    have hstart : ids.isWordStart c = false := by
      cases hc : ids.isWordStart c with
      | false => rfl
      | true => exact absurd (.word ⟨c, [], rfl, hc, List.forall_mem_nil _⟩) (hlexeme _ [])
    simp [readLexeme, hsemicolon, hdigit, hstart]

/-! ### The scanner -/

/-- What is wrong, and where it begins. -/
def ScanError.report (e : ScanError) : ScanFault × Int × Int := (e.fault, e.line, e.col)

namespace Scanner

variable {s s' : Scanner ids}

/-- The scanner at the same place of the text with the other line ends. -/
def withReturns (s : Scanner ids) : Scanner ids :=
  { s with source := Text.withReturns s.source, rest := Text.withReturns s.rest }

/-- A token is taken from both texts. -/
theorem next_withReturns {t : Token} (hahead : s.ahead = none) (hfinished : s.finished = false)
    (h : s.next = (.ok (some t), s')) : s.withReturns.next = (.ok (some t), s'.withReturns) := by
  generalize hrest : s.rest = rest
  cases front ids rest with
  | last hg =>
    rw [next_end hahead hfinished (hrest ▸ hg)] at h
    cases h
    have hg' : LastGap s.withReturns.rest := by
      rw [withReturns, hrest]
      exact hg.withReturns
    rw [next_end (s := s.withReturns) hahead hfinished hg']
    simp only [withReturns, Position.afterAll_withReturns, Text.withReturns]
  | @lexeme g l cs k hg hl hcs =>
    rw [next_lexeme hahead hfinished hrest hg hl hcs] at h
    cases h
    have hrest' : s.withReturns.rest =
        Text.withReturns g ++ (l ++ Text.withReturns cs) := by
      rw [withReturns, hrest, withReturns_append, withReturns_append,
        withReturns_eq_self hl.ne_lineEnd]
    rw [next_lexeme (s := s.withReturns) hahead hfinished hrest' hg.withReturns hl
      (hcs.imp_right Stops.withReturns)]
    simp only [withReturns, Position.afterAll_withReturns]
  | fault hg hc hne hread =>
    rw [next_fault hahead hfinished hrest hg hc hne hread] at h
    cases h

/-- An error is met in both texts. -/
theorem next_withReturns_error {e : ScanError} (h : s.next = (.error e, s')) :
    ∃ e' s'', s.withReturns.next = (.error e', s'') ∧ e'.report = e.report := by
  obtain ⟨hahead, hfinished⟩ := unread_of_error h
  generalize hrest : s.rest = rest
  cases front ids rest with
  | last hg =>
    rw [next_end hahead hfinished (hrest ▸ hg)] at h
    cases h
  | lexeme hg hl hcs =>
    rw [next_lexeme hahead hfinished hrest hg hl hcs] at h
    cases h
  | @fault g cs bad c f hg hc hne hread =>
    rw [next_fault hahead hfinished hrest hg hc hne hread] at h
    cases h
    obtain ⟨l, hl, hunreadable⟩ := unreadable_of_readLexeme hc hne hread
    have hlineEnd := ne_lineEnd_of_not_gap hc
    have hl' : c :: Text.withReturns cs = l ++ Text.withReturns bad := by
      rw [← withReturns_cons hlineEnd, hl, withReturns_append,
        withReturns_eq_self hunreadable.ne_lineEnd]
    have hrest' : s.withReturns.rest = Text.withReturns g ++ c :: Text.withReturns cs := by
      rw [withReturns, hrest, withReturns_append, withReturns_cons hlineEnd]
    have hread' := readLexeme_of_unreadable hunreadable.withReturns hl'
    refine ⟨_, _, next_fault (s := s.withReturns) hahead hfinished hrest' hg.withReturns hc hne
      hread', ?_⟩
    simp only [ScanError.report, withReturns, Position.afterAll_withReturns]

/-- All at once: the tokens are the same, and so is the error after them. -/
theorem all_withReturns (hahead : s.ahead = none) (hfinished : s.finished = false) :
    s.withReturns.all.1 = s.all.1 ∧
      s.withReturns.all.2.1.map ScanError.report = s.all.2.1.map ScanError.report := by
  fun_induction all s with
  | case1 s t s' hnext _ ts e last hall ih =>
    rw [all_of_token (next_withReturns hahead hfinished hnext)]
    rw [hall] at ih
    rcases next_eq_token hahead hfinished hnext with
      ⟨-, -, hahead', hfinished'⟩ | ⟨_, -, -, -, -, hahead', hfinished'⟩
    · rw [all_finished hahead' hfinished'] at hall
      cases hall
      rw [all_finished (s := s'.withReturns) hahead' hfinished']
      exact ⟨rfl, rfl⟩
    · obtain ⟨htokens, herror⟩ := ih hahead' hfinished'
      exact ⟨congrArg (t :: ·) htokens, herror⟩
  | case2 s s' hnext => exact absurd hnext (next_ne_none hahead hfinished)
  | case3 s e s' hnext =>
    obtain ⟨e', s'', hnext', hreport⟩ := next_withReturns_error hnext
    rw [all_of_error hnext']
    exact ⟨rfl, congrArg some hreport⟩

end Scanner

/-- **Line ends of two characters**: if each LF of a text becomes CR LF, wherever the text is said
to begin, its tokens stay the same: their kinds and texts, their lines and columns, up to the end of
the input. If an error comes after them, it comes as before: the same fault, in the same line
and column. -/
theorem returns_change_nothing (ids : Text.IdentClasses) (text : String) (p : Position) :
    let before := (Scanner.startAt ids text p).all
    let after := (Scanner.startAt ids (String.ofList (withReturns text.toList)) p).all
    after.1 = before.1 ∧ after.2.1.map ScanError.report = before.2.1.map ScanError.report := by
  have hstart : Scanner.startAt ids (String.ofList (withReturns text.toList)) p =
      (Scanner.startAt ids text p).withReturns := by
    rw [Scanner.startAt, String.toList_ofList]
    rfl
  rw [hstart]
  exact Scanner.all_withReturns rfl rfl

/-- The comment takes CR in, and the number stands in the first column. -/
example :
    (Scanner.ofText .unicode14 "halt#\r\n1a").all.1 = [⟨.halt, "halt", 1, 1⟩] ∧
      (Scanner.ofText .unicode14 "halt#\r\n1a").all.2.1.map ScanError.report =
        some (.malformedInteger, 2, 1) := by cbv

end CatAndMouse
