import CatAndMouse.Proofs.Token.Layout
import Mathlib.Data.List.Chain

/-!
# The lexical language

A `Cut` of a text names every gap and every lexeme of it. The scanner reads a text
without an error exactly if the text has a proper cut; the cut is the only one, and
its lexemes are the tokens (`scanner_accepts_iff_cut`). Every text begins in one of
three ways (`front`): with the last gap, with a lexeme that is read as far as it goes,
or with something that is no lexeme. From there the scanner is followed token by
token.
-/

namespace CatAndMouse

variable {ids : Text.IdentClasses}

/-! ### How a text begins -/

/-- A gap joined in front of the last gap belongs to it. -/
theorem Gap.append_lastGap {g h : List Char} (hg : Gap g) (hh : LastGap h) : LastGap (g ++ h) := by
  cases hh with
  | closed hh => exact .closed (hg.append hh)
  | unclosed hh htext =>
    rw [← List.append_assoc]
    exact .unclosed (hg.append hh) htext

/-- In front of the first character that belongs to no gap there is a gap. -/
theorem exists_gap (cs : List Char) :
    LastGap cs ∨ ∃ g c rest, Gap g ∧ cs = g ++ c :: rest ∧ isGapChar c = false ∧ c ≠ '#' := by
  induction hn : cs.length using Nat.strongRecOn generalizing cs with
  | ind n ih =>
    subst hn
    -- what is left after a gap is shorter, and begins in the same way
    have hafter : ∀ {g rest : List Char}, Gap g → g ≠ [] → cs = g ++ rest →
        LastGap cs ∨ ∃ g c rest, Gap g ∧ cs = g ++ c :: rest ∧ isGapChar c = false ∧ c ≠ '#' := by
      rintro g rest hg hne rfl
      have hlt : rest.length < (g ++ rest).length := by
        have hpos := List.length_pos_iff.2 hne
        rw [List.length_append]
        omega
      rcases ih _ hlt rest rfl with hlast | ⟨g', c, rest', hg', rfl, hc⟩
      · exact .inl (hg.append_lastGap hlast)
      · exact .inr ⟨g ++ g', c, rest', hg.append hg', (List.append_assoc ..).symm, hc⟩
    cases cs with
    | nil => exact .inl (.closed .nil)
    | cons c cs =>
      by_cases hhash : c = '#'
      · subst hhash
        by_cases hend : '\n' ∈ cs
        · obtain ⟨text, rest, rfl, hnot⟩ := List.eq_append_cons_of_mem hend
          have htext : ∀ c ∈ text, c ≠ '\n' := fun c hc heq => hnot (heq ▸ hc)
          exact hafter (.comment htext .nil) (List.cons_ne_nil _ _) (show _ = _ ++ rest by simp)
        · have htext : ∀ c ∈ cs, c ≠ '\n' := fun c hc heq => hend (heq ▸ hc)
          exact .inl (.unclosed .nil htext)
      · cases hgap : isGapChar c with
        | true => exact hafter (.blank hgap .nil) (List.cons_ne_nil _ _) rfl
        | false => exact .inr ⟨[], c, cs, .nil, rfl, hgap, hhash⟩

theorem stops_dropWhile (cs : List Char) : Stops ids (cs.dropWhile ids.isContinue) := by
  intro d hd
  have hnot := List.head?_dropWhile_not ids.isContinue cs
  rw [Option.mem_def.1 hd] at hnot
  exact hnot

/-- **What is read is a lexeme**, and it is read as far as it goes. -/
theorem lexeme_of_readLexeme {c : Char} {cs l after : List Char} {k : Kind}
    (h : readLexeme ids c cs = .ok (k, l, after)) :
    Lexeme ids k l ∧ (k = .semicolon ∨ Stops ids after) := by
  unfold readLexeme at h
  split at h
  · next hc =>
    cases h
    subst hc
    exact ⟨.semicolon, .inl rfl⟩
  · split at h
    · next hc =>
      have hdigits : Lexeme ids .integer (c :: cs.takeWhile Text.isAsciiDigit) := by
        refine .integer (List.cons_ne_nil _ _) fun d hd => ?_
        rcases List.mem_cons.1 hd with rfl | hd
        · exact hc
        · exact List.all_eq_true.1 List.all_takeWhile d hd
      dsimp only at h
      split at h
      · next d rest hrest =>
        split at h
        · cases h
        · next hd =>
          cases h
          refine ⟨hdigits, .inr ?_⟩
          rw [hrest]
          rintro d ⟨⟩
          simpa using hd
      · next hrest =>
        cases h
        rw [hrest]
        exact ⟨hdigits, .inr stops_nil⟩
    · split at h
      · next hc =>
        cases h
        exact ⟨.word ⟨c, _, rfl, hc, List.all_eq_true.1 List.all_takeWhile⟩,
          .inr (stops_dropWhile cs)⟩
      · cases h

/-- How a text begins. -/
inductive Front (ids : Text.IdentClasses) : List Char → Prop where
  | last {g : List Char} (hg : LastGap g) : Front ids g
  /-- After a gap there is a lexeme. -/
  | lexeme {g l cs : List Char} {k : Kind} (hg : Gap g) (hl : Lexeme ids k l)
      (hcs : k = .semicolon ∨ Stops ids cs) : Front ids (g ++ (l ++ cs))
  /-- After a gap there is no lexeme, or a run of digits that goes on as a word. -/
  | fault {g cs bad : List Char} {c : Char} {e : ScanFault} (hg : Gap g)
      (hc : isGapChar c = false) (hne : c ≠ '#') (hread : readLexeme ids c cs = .error (e, bad)) :
      Front ids (g ++ c :: cs)

/-- Every text begins in one of these ways. -/
theorem front (ids : Text.IdentClasses) (cs : List Char) : Front ids cs := by
  rcases exists_gap cs with hlast | ⟨g, c, rest, hg, rfl, hc, hne⟩
  · exact .last hlast
  · cases hread : readLexeme ids c rest with
    | error e => exact .fault hg hc hne hread
    | ok read =>
      obtain ⟨k, l, after⟩ := read
      obtain ⟨hl, hafter⟩ := lexeme_of_readLexeme hread
      rw [(eq_append_of_readLexeme hread).1]
      exact .lexeme hg hl hafter

/-- Only a semicolon stops a word. -/
theorem Lexeme.eq_semicolon_of_stops {k : Kind} {l cs : List Char} (h : Lexeme ids k l)
    (hstops : Stops ids (l ++ cs)) : k = .semicolon := by
  cases h with
  | semicolon => rfl
  | @integer l hne hdigits =>
    obtain ⟨c, l, rfl⟩ := List.exists_cons_of_ne_nil hne
    have hc := ids.digit_continue _ (hdigits c (by simp))
    rw [hstops c rfl] at hc
    cases hc
  | word h =>
    obtain ⟨c, l, rfl, hc, -⟩ := h
    have hc := ids.continue_of_wordStart hc
    rw [hstops c rfl] at hc
    cases hc

theorem Lexeme.digits {l : List Char} (h : Lexeme ids .integer l) :
    l ≠ [] ∧ ∀ c ∈ l, Text.isAsciiDigit c = true := by
  generalize hk : Kind.integer = k at h
  cases h with
  | semicolon => cases hk
  | integer hne hdigits => exact ⟨hne, hdigits⟩
  | word => exact absurd hk.symm (Kind.ofWord_ne _ (by simp) rfl)

/-- The scanner stops in front of what is no lexeme. -/
theorem Scanner.next_fault {s : Scanner ids} {g cs bad : List Char} {c : Char} {e : ScanFault}
    (hahead : s.ahead = none) (hfinished : s.finished = false) (hrest : s.rest = g ++ c :: cs)
    (hg : Gap g) (hc : isGapChar c = false) (hne : c ≠ '#')
    (hread : readLexeme ids c cs = .error (e, bad)) :
    s.next = (.error ⟨e, (s.position.afterAll g).line, (s.position.afterAll g).col,
        String.ofList (Text.caretSnippet s.source ↑(s.source.length - bad.length))⟩,
      { s with rest := c :: cs, position := s.position.afterAll g }) := by
  simp [next, peek, read, hahead, hfinished, hrest, hg.skipGap_append, skipGap_of_not_gap hc hne,
    hread]

/-- There is a token until the end of the input has been delivered. -/
theorem Scanner.next_ne_none {s s' : Scanner ids} (hahead : s.ahead = none)
    (hfinished : s.finished = false) : s.next ≠ (.ok none, s') := by
  unfold next peek
  simp only [hahead, hfinished, Bool.false_eq_true, if_false]
  cases hread : s.read with
  | mk r s₁ => cases r <;> simp

/-- **Taking a token**: after a gap the scanner has come to a lexeme, or the text is over. -/
theorem Scanner.next_eq_token {s s' : Scanner ids} {t : Token} (hahead : s.ahead = none)
    (hfinished : s.finished = false) (h : s.next = (.ok (some t), s')) :
    (LastGap s.rest ∧ t.lexeme = (.endOfInput, []) ∧ s'.ahead = none ∧ s'.finished = true) ∨
      ∃ g, Gap g ∧ Lexeme ids t.kind t.text.toList ∧ (t.kind = .semicolon ∨ Stops ids s'.rest) ∧
        s.rest = g ++ (t.text.toList ++ s'.rest) ∧ s'.ahead = none ∧ s'.finished = false := by
  generalize hrest : s.rest = rest
  cases front ids rest with
  | last hg =>
    rw [next_end hahead hfinished (hrest ▸ hg)] at h
    cases h
    exact .inl ⟨hg, rfl, hahead, rfl⟩
  | @lexeme g l cs k hg hl hcs =>
    rw [next_lexeme hahead hfinished hrest hg hl hcs] at h
    cases h
    rw [String.toList_ofList]
    exact .inr ⟨g, hg, hl, hcs, rfl, hahead, hfinished⟩
  | fault hg hc hne hread =>
    rw [next_fault hahead hfinished hrest hg hc hne hread] at h
    cases h

/-- The tokens before an error are lexemes. -/
theorem Scanner.lexeme_of_all {s last : Scanner ids} {ts : List Token} {e : ScanError}
    (hahead : s.ahead = none) (hfinished : s.finished = false)
    (h : s.all = (ts, some e, last)) : ∀ t ∈ ts, Lexeme ids t.kind t.text.toList := by
  fun_induction all s generalizing ts with
  | case1 s t s' hnext _ ts' e' last' hall ih =>
    cases h
    rcases next_eq_token hahead hfinished hnext with
      ⟨-, -, hahead', hfinished'⟩ | ⟨_, -, hl, -, -, hahead', hfinished'⟩
    · -- after the end of the input there is no error
      obtain ⟨-, herror⟩ := answers_of_all hall
      rw [yields_nil hahead' hfinished', TokenSource.answer_list] at herror
      cases herror
    · rintro u hu
      rcases List.mem_cons.1 hu with rfl | hu
      · exact hl
      · exact ih hahead' hfinished' hall u hu
  | case2 => cases h
  | case3 =>
    cases h
    simp

/-! ### Cuts -/

/-- A lexeme, its kind, and the gap in front of it. -/
@[ext]
structure Piece where
  gap : List Char
  kind : Kind
  text : List Char

/-- A text cut into pieces; the last gap is left. -/
structure Cut where
  pieces : List Piece
  last : List Char

namespace Cut

variable {p : Piece} {ps : List Piece} {g : List Char} {d d' : Cut}

/-- The text that is cut. -/
def text (d : Cut) : List Char := d.pieces.flatMap (fun p => p.gap ++ p.text) ++ d.last

/-- The lexemes, without the gaps. -/
def lexemes (d : Cut) : List (Kind × List Char) := d.pieces.map fun p => (p.kind, p.text)

/-- Gaps are gaps and lexemes are lexemes; neighbours with nothing between them may touch. -/
structure Proper (ids : Text.IdentClasses) (d : Cut) : Prop where
  gap : ∀ p ∈ d.pieces, Gap p.gap
  lexeme : ∀ p ∈ d.pieces, Lexeme ids p.kind p.text
  last : LastGap d.last
  apart : d.pieces.IsChain fun p q => q.gap = [] → MayTouch p.kind q.kind

theorem text_cons : text ⟨p :: ps, g⟩ = p.gap ++ (p.text ++ text ⟨ps, g⟩) := by
  simp [text]

theorem proper_nil_iff : Proper ids ⟨[], g⟩ ↔ LastGap g :=
  ⟨fun h => h.last, fun h => ⟨by simp, by simp, h, .nil⟩⟩

theorem proper_cons_iff :
    Proper ids ⟨p :: ps, g⟩ ↔ Gap p.gap ∧ Lexeme ids p.kind p.text ∧
      (∀ q ∈ ps.head?, q.gap = [] → MayTouch p.kind q.kind) ∧ Proper ids ⟨ps, g⟩ := by
  constructor
  · rintro ⟨hgap, hlexeme, hlast, hapart⟩
    rw [List.forall_mem_cons] at hgap hlexeme
    rw [List.isChain_cons] at hapart
    exact ⟨hgap.1, hlexeme.1, hapart.1, hgap.2, hlexeme.2, hlast, hapart.2⟩
  · rintro ⟨hgap, hlexeme, htouch, h⟩
    exact ⟨List.forall_mem_cons.2 ⟨hgap, h.gap⟩, List.forall_mem_cons.2 ⟨hlexeme, h.lexeme⟩,
      h.last, List.isChain_cons.2 ⟨htouch, h.apart⟩⟩

/-- What is cut is laid out. -/
theorem Proper.lexical (h : d.Proper ids) : Lexical ids d.lexemes d.text := by
  have hbody : ∀ p ps g, Proper ids ⟨p :: ps, g⟩ →
      LexicalBody ids ((p.kind, p.text) :: lexemes ⟨ps, g⟩) (p.text ++ text ⟨ps, g⟩) := by
    intro p ps g h
    induction ps generalizing p with
    | nil =>
      obtain ⟨-, hl, -, h⟩ := proper_cons_iff.1 h
      exact .last hl (proper_nil_iff.1 h)
    | cons q qs ih =>
      obtain ⟨-, hl, htouch, h⟩ := proper_cons_iff.1 h
      rw [text_cons, ← List.append_assoc]
      exact .cons hl (proper_cons_iff.1 h).1 (htouch q rfl) (ih q h)
  obtain ⟨ps, g⟩ := d
  cases ps with
  | nil => exact .nil (proper_nil_iff.1 h)
  | cons p ps =>
    rw [text_cons]
    exact .cons (proper_cons_iff.1 h).1 (hbody p ps g h)

/-- The gaps of a text are where its lexemes are not. -/
theorem Proper.eq_of_lexemes (h : d.Proper ids) (h' : d'.Proper ids) (htext : d.text = d'.text)
    (hlexemes : d.lexemes = d'.lexemes) : d = d' := by
  obtain ⟨ps, g⟩ := d
  obtain ⟨ps', g'⟩ := d'
  induction ps generalizing ps' with
  | nil =>
    obtain rfl : ps' = [] := List.map_eq_nil_iff.1 hlexemes.symm
    rw [show g = g' from htext]
  | cons p ps ih =>
    obtain _ | ⟨p', ps'⟩ := ps'
    · cases hlexemes
    · obtain ⟨hgap, hl, -, hproper⟩ := proper_cons_iff.1 h
      obtain ⟨hgap', hl', -, hproper'⟩ := proper_cons_iff.1 h'
      obtain ⟨hp, hps⟩ := List.cons.inj hlexemes
      obtain ⟨hkind, hptext⟩ := Prod.mk.inj hp
      rw [text_cons, text_cons] at htext
      -- both gaps are skipped, and what is left is the same
      have hskip := congrArg (fun cs => (skipGap false ⟨1, 1⟩ cs).2) htext
      simp only [hgap.skipGap_lexeme hl, hgap'.skipGap_lexeme hl'] at hskip
      rw [hskip] at htext
      have hgaps : p.gap = p'.gap := List.append_cancel_right htext
      rw [hptext] at hskip
      obtain rfl : p = p' := Piece.ext hgaps hkind hptext
      have hrest := ih hproper ps' hproper' (List.append_cancel_left hskip) hps
      obtain ⟨rfl, rfl⟩ := Cut.mk.inj hrest
      rfl

/-- What stops a word or a number begins with a gap or with a semicolon. -/
theorem Proper.mayTouch {k : Kind} (h : Proper ids ⟨ps, g⟩)
    (hstops : k = .semicolon ∨ Stops ids (text ⟨ps, g⟩)) :
    ∀ q ∈ ps.head?, q.gap = [] → MayTouch k q.kind := by
  rintro q hq hnil
  obtain _ | ⟨q, qs⟩ := ps
  · cases hq
  · cases hq
    rcases hstops with hk | hstops
    · exact .inl hk
    · obtain ⟨-, hl, -⟩ := proper_cons_iff.1 h
      rw [text_cons, hnil] at hstops
      exact .inr (hl.eq_semicolon_of_stops hstops)

/-- **Reading cuts**: what the scanner yields are the lexemes of a cut, and then the end of the
input. -/
theorem exists_of_yields {s : Scanner ids} {ts : List Token} (hahead : s.ahead = none)
    (hfinished : s.finished = false) (h : TokenSource.Yields s ts) :
    ∃ d, Proper ids d ∧ d.text = s.rest ∧
      ts.map Token.lexeme = d.lexemes ++ [(.endOfInput, [])] := by
  induction ts generalizing s with
  | nil =>
    have hnone : s.next = (.ok none, s.next.2) := Prod.ext (h 0) rfl
    exact absurd hnone (Scanner.next_ne_none hahead hfinished)
  | cons t ts ih =>
    obtain ⟨s', hnext, hs'⟩ := h.tail
    rcases Scanner.next_eq_token hahead hfinished hnext with
      ⟨hlast, ht, hahead', hfinished'⟩ |
      ⟨g, hg, hl, hcs, hrest, hahead', hfinished'⟩
    · obtain rfl := hs'.unique (Scanner.yields_nil hahead' hfinished')
      exact ⟨⟨[], s.rest⟩, proper_nil_iff.2 hlast, rfl, by simp [ht, lexemes]⟩
    · obtain ⟨⟨ps, g'⟩, hproper, htext, hlexemes⟩ := ih hahead' hfinished' hs'
      rw [← htext] at hcs hrest
      refine ⟨⟨⟨g, t.kind, t.text.toList⟩ :: ps, g'⟩,
        proper_cons_iff.2 ⟨hg, hl, hproper.mayTouch hcs, hproper⟩, ?_, ?_⟩
      · rw [text_cons, hrest]
      · rw [List.map_cons, hlexemes]
        rfl

end Cut

open Cut

/-- **The lexical language**: the scanner reads a text without an error exactly if the text can
be cut into gaps and lexemes, and then there is one way to do so; the tokens are the lexemes, in
order, with their kinds and texts, and then the end of the input. If there is no such cut an error
is reported. -/
theorem scanner_accepts_iff_cut (text : String) :
    ((∃ ts last, (Scanner.ofText ids text).all = (ts, none, last)) ↔
      ∃! d : Cut, d.Proper ids ∧ d.text = text.toList) ∧
    ((∃ ts e last, (Scanner.ofText ids text).all = (ts, some e, last)) ↔
      ∀ d : Cut, d.Proper ids → d.text ≠ text.toList) ∧
    ∀ ts last (d : Cut), (Scanner.ofText ids text).all = (ts, none, last) → d.Proper ids →
      d.text = text.toList → ts.map Token.lexeme = d.lexemes ++ [(.endOfInput, [])] := by
  have hcut : ∀ {ts}, TokenSource.Yields (Scanner.ofText ids text) ts →
      ∃ d, Proper ids d ∧ d.text = text.toList ∧
        ts.map Token.lexeme = d.lexemes ++ [(.endOfInput, [])] :=
    fun h => exists_of_yields rfl rfl h
  have hyields : ∀ {d : Cut}, d.Proper ids → d.text = text.toList →
      ∃ ts, TokenSource.Yields (Scanner.ofText ids text) ts ∧
        ts.map Token.lexeme = d.lexemes ++ [(.endOfInput, [])] := by
    intro d hd htext
    have hlexical := hd.lexical
    rw [htext] at hlexical
    exact exists_yields_of_lexical hlexical
  have hlexemes : ∀ ts last (d : Cut),
      (Scanner.ofText ids text).all = (ts, none, last) → d.Proper ids →
      d.text = text.toList → ts.map Token.lexeme = d.lexemes ++ [(.endOfInput, [])] := by
    intro ts last d hall hd htext
    obtain ⟨us, hus, hlexemes⟩ := hyields hd htext
    rwa [← hus.unique (Scanner.yields_of_all hall)]
  have hread : ∀ {d : Cut}, d.Proper ids → d.text = text.toList →
      ∃ ts last, (Scanner.ofText ids text).all = (ts, none, last) := by
    intro d hd htext
    obtain ⟨ts, hts, -⟩ := hyields hd htext
    exact ⟨ts, Scanner.exists_all_iff_yields.2 hts⟩
  refine ⟨⟨?_, ?_⟩, ⟨?_, ?_⟩, hlexemes⟩
  · rintro ⟨ts, last, hall⟩
    obtain ⟨d, hd, htext, hts⟩ := hcut (Scanner.yields_of_all hall)
    refine ⟨d, ⟨hd, htext⟩, ?_⟩
    rintro d' ⟨hd', htext'⟩
    have hts' := hlexemes ts last d' hall hd' htext'
    exact hd'.eq_of_lexemes hd (htext'.trans htext.symm)
      (List.append_cancel_right (hts'.symm.trans hts))
  · rintro ⟨d, ⟨hd, htext⟩, -⟩
    exact hread hd htext
  · rintro ⟨ts, e, last, hall⟩ d hd htext
    obtain ⟨us, last', hall'⟩ := hread hd htext
    rw [hall] at hall'
    cases hall'
  · intro hnot
    obtain ⟨⟨ts, e?, last⟩, hall⟩ : ∃ r, (Scanner.ofText ids text).all = r := ⟨_, rfl⟩
    cases e? with
    | none =>
      obtain ⟨d, hd, htext, -⟩ := hcut (Scanner.yields_of_all hall)
      exact absurd htext (hnot d hd)
    | some e => exact ⟨ts, e, last, hall⟩

/-- With the classes of Unicode 14.0 Hangul syllables are a word, but not next to a number. -/
theorem scanner_accepts_iff_cut_hangul :
    (∃! d : Cut, d.Proper .unicode14 ∧ d.text = "move 고양이;".toList) ∧
      ∀ d : Cut, d.Proper .unicode14 → d.text ≠ "move 12고".toList := by
  have haccepts : (Scanner.ofText .unicode14 "move 고양이;").all.2.1 = none := by decide +kernel
  have hrefuses : (Scanner.ofText .unicode14 "move 12고").all.2.1 =
      some ⟨.malformedInteger, 1, 6, "move 12고\n       ^"⟩ := by decide +kernel
  exact ⟨(scanner_accepts_iff_cut _).1.1 ⟨_, _, Prod.ext rfl (Prod.ext haccepts rfl)⟩,
    (scanner_accepts_iff_cut _).2.1.1 ⟨_, _, _, Prod.ext rfl (Prod.ext hrefuses rfl)⟩⟩

end CatAndMouse
