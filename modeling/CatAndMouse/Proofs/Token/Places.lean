import CatAndMouse.Proofs.Token.Stream

/-!
# Where tokens stand

The scanner counts lines and columns as it goes on, and never looks back. Where an offset of a
text stands can also be told from the text alone (`Position.IsAt`): its line by the number of line
ends before it, its column by how far it is from the last of them. Counting comes to the same
(`Position.isAt_afterAll`), across gaps and lexemes of any shape and from any start.

So every token and every error of a text stands at an offset where its text, or what cannot be
read, begins, and the tokens follow one another (`positions_exact`). No line or column is further
from where the text begins than the text is long, so they can be written unless the text is said to
begin very far off (`TokenStream.writable_ofText`).
-/

namespace CatAndMouse

variable {ids : Text.IdentClasses}

/-! ### Lines and columns of an offset -/

/-- `Position.IsAt start cs o p`: in the text `cs`, which begins at `start`, the offset `o` is in
the line and the column of `p`. -/
structure Position.IsAt (start : Position) (cs : List Char) (o : Nat) (p : Position) : Prop where
  le : o ≤ cs.length
  line : p.line = start.line + (cs.take o).count '\n'
  /-- In the first line columns go on from where the text begins. -/
  first : '\n' ∉ cs.take o → p.col = start.col + o
  /-- In any other they count from the line end before it. -/
  later : ∀ j < o, cs[j]? = some '\n' → '\n' ∉ (cs.take o).drop (j + 1) → p.col = o - j

namespace Position

variable {p : Position} {cs : List Char}

theorem afterAll_append (p : Position) (cs ds : List Char) :
    p.afterAll (cs ++ ds) = (p.afterAll cs).afterAll ds :=
  List.foldl_append

theorem after_of_ne {c : Char} (hc : c ≠ '\n') : p.after c = ⟨p.line, p.col + 1⟩ := if_neg hc

theorem line_afterAll (p : Position) (cs : List Char) :
    (p.afterAll cs).line = p.line + cs.count '\n' := by
  induction cs generalizing p with
  | nil => simp [afterAll]
  | cons c cs ih =>
    have hcons : p.afterAll (c :: cs) = (p.after c).afterAll cs := rfl
    rw [hcons, ih]
    by_cases hc : c = '\n'
    · subst hc
      rw [List.count_cons_self, after, if_pos rfl]
      dsimp only
      omega
    · rw [List.count_cons_of_ne hc, after_of_ne hc]

/-- Without a line end the column goes on. -/
theorem col_afterAll (hcs : '\n' ∉ cs) : (p.afterAll cs).col = p.col + cs.length := by
  induction cs generalizing p with
  | nil => simp [afterAll]
  | cons c cs ih =>
    obtain ⟨hc, hcs⟩ := not_or.1 (mt List.mem_cons.2 hcs)
    have hcons : p.afterAll (c :: cs) = (p.after c).afterAll cs := rfl
    rw [hcons, ih hcs, after_of_ne (Ne.symm hc), List.length_cons]
    dsimp only
    omega

/-- After a line end it starts again. -/
theorem col_afterAll_lineEnd (hcs : '\n' ∉ cs) (ds : List Char) :
    (p.afterAll (ds ++ '\n' :: cs)).col = 1 + cs.length := by
  have hcons : p.afterAll (ds ++ '\n' :: cs) = ((p.afterAll ds).after '\n').afterAll cs :=
    afterAll_append p ds _
  rw [hcons, col_afterAll hcs, after, if_pos rfl]

/-- **Counting is exact**: what has been counted over the characters before an offset is where the
offset stands. -/
theorem isAt_afterAll (start : Position) {o : Nat} (ho : o ≤ cs.length) :
    IsAt start cs o (start.afterAll (cs.take o)) where
  le := ho
  line := line_afterAll start _
  first hnot := by rw [col_afterAll hnot, List.length_take_of_le ho]
  later j hj hend hnot := by
    have hget : (cs.take o)[j]? = some '\n' := by rw [List.getElem?_take_of_lt hj, hend]
    obtain ⟨hlt, hget⟩ := List.getElem?_eq_some_iff.1 hget
    have hsplit : cs.take o = (cs.take o).take j ++ '\n' :: (cs.take o).drop (j + 1) := by
      rw [← hget, ← List.drop_eq_getElem_cons hlt, List.take_append_drop]
    rw [hsplit, col_afterAll_lineEnd hnot, List.length_drop, List.length_take_of_le ho]
    omega

/-- The same for a text that is cut at the offset. -/
theorem isAt_append (start : Position) (before cs : List Char) :
    IsAt start (before ++ cs) before.length (start.afterAll before) := by
  have hle : before.length ≤ (before ++ cs).length := by
    rw [List.length_append]
    exact Nat.le_add_right ..
  have h := isAt_afterAll start hle
  rwa [List.take_left] at h

end Position

/-! ### Tokens and errors -/

/-- `t.StandsAt start cs o`: in the text `cs` the token begins at the offset `o`. -/
structure Token.StandsAt (start : Position) (cs : List Char) (t : Token) (o : Nat) : Prop where
  place : Position.IsAt start cs o ⟨t.line, t.col⟩
  text : (cs.drop o).take t.text.length = t.text.toList
  /-- The end of the input comes where the text is over. -/
  atEnd : t.kind = .endOfInput → o = cs.length

/-- `Unreadable ids f l bad`: the text `l ++ bad` begins with no lexeme, because of `f`; what is
wrong comes after `l`. -/
inductive Unreadable (ids : Text.IdentClasses) : ScanFault → List Char → List Char → Prop where
  /-- A run of digits that goes on as a word. -/
  | malformedInteger {ds cs : List Char} {c : Char} (hne : ds ≠ [])
      (hdigits : ∀ d ∈ ds, Text.isAsciiDigit d = true) (hc : ids.isContinue c = true)
      (hdigit : Text.isAsciiDigit c = false) : Unreadable ids .malformedInteger ds (c :: cs)
  /-- A character with which nothing begins. -/
  | unexpected {c : Char} {cs : List Char} (hgap : isGapChar c = false) (hhash : c ≠ '#')
      (hlexeme : ∀ k l, ¬ Lexeme ids k (c :: l)) : Unreadable ids (.unexpected c) [] (c :: cs)

/-- `e.StandsAt ids start cs o`: what cannot be read in the text `cs` begins at the offset `o`, and
the caret is put where it goes wrong. -/
structure ScanError.StandsAt (ids : Text.IdentClasses) (start : Position) (cs : List Char)
    (e : ScanError) (o : Nat) : Prop where
  place : Position.IsAt start cs o ⟨e.line, e.col⟩
  fault : ∃ l bad, cs.drop o = l ++ bad ∧ Unreadable ids e.fault l bad ∧
    e.snippet = String.ofList (Text.caretSnippet cs ↑(o + l.length))

/-- `d.PlacedFrom ids start cs i os`: from the offset `i` on, the tokens of the stream stand in the
text at the offsets `os`, one after the other, and so does the error after them. -/
structure TokenStream.PlacedFrom (ids : Text.IdentClasses) (start : Position) (cs : List Char)
    (i : Nat) (d : TokenStream) (os : List Nat) : Prop where
  token : List.Forall₂ (Token.StandsAt start cs) d.tokens os
  increasing : os.Pairwise (· < ·)
  le : ∀ o ∈ os, i ≤ o
  /-- Every token begins at the end of each before it, or later. -/
  apart : (d.tokens.zip os).Pairwise fun a b => a.2 + a.1.text.length ≤ b.2
  error : ∀ e ∈ d.error, ∃ o, e.StandsAt ids start cs o ∧ i ≤ o ∧
    ∀ a ∈ d.tokens.zip os, a.2 + a.1.text.length ≤ o

/-- What cannot be read is one of the two things that are unreadable. -/
theorem unreadable_of_readLexeme {c : Char} {cs bad : List Char} {f : ScanFault}
    (hgap : isGapChar c = false) (hhash : c ≠ '#') (h : readLexeme ids c cs = .error (f, bad)) :
    ∃ l, c :: cs = l ++ bad ∧ Unreadable ids f l bad := by
  unfold readLexeme at h
  split at h
  · cases h
  · next hsemicolon =>
    split at h
    · next hc =>
      dsimp only at h
      split at h
      · next d rest hrest =>
        split at h
        · next hd =>
          cases h
          have hnot := List.head?_dropWhile_not Text.isAsciiDigit cs
          rw [hrest] at hnot
          rw [hrest]
          refine ⟨c :: cs.takeWhile Text.isAsciiDigit, ?_, .malformedInteger (by simp) ?_ hd hnot⟩
          · rw [List.cons_append, ← hrest, List.takeWhile_append_dropWhile]
          · rintro d hd
            rcases List.mem_cons.1 hd with rfl | hd
            · exact hc
            · exact List.all_eq_true.1 List.all_takeWhile d hd
        · cases h
      · cases h
    · next hdigit =>
      split at h
      · cases h
      · next hstart =>
        cases h
        refine ⟨[], rfl, .unexpected hgap hhash fun k l hl => ?_⟩
        generalize hcs : c :: l = w at hl
        cases hl with
        | semicolon =>
          cases hcs
          exact hsemicolon rfl
        | integer _ hdigits => exact hdigit (hdigits c (by simp [← hcs]))
        | word h =>
          obtain ⟨d, rest, rfl, hd, -⟩ := h
          cases hcs
          exact hstart hd

/-- What can be read of it stands in one line. -/
theorem Unreadable.ne_lineEnd {f : ScanFault} {l bad : List Char} (h : Unreadable ids f l bad) :
    ∀ c ∈ l, c ≠ '\n' := by
  cases h with
  | malformedInteger _ hdigits =>
    exact fun c hc =>
      ne_lineEnd_of_isContinue (ids.digit_continue _ (hdigits c hc))
  | unexpected => exact List.forall_mem_nil _

/-- In the same line it goes wrong, at a character. -/
theorem Unreadable.exists_cons {f : ScanFault} {l bad : List Char} (h : Unreadable ids f l bad) :
    ∃ c cs, bad = c :: cs ∧ c ≠ '\n' := by
  cases h with
  | malformedInteger _ _ hc => exact ⟨_, _, rfl, ne_lineEnd_of_isContinue hc⟩
  | unexpected hgap => exact ⟨_, _, rfl, ne_lineEnd_of_not_gap hgap⟩

/-- A lexeme stands where the text before it is over. -/
theorem Token.standsAt_append (start : Position) (before l after : List Char) {k : Kind}
    (hend : k = .endOfInput → l ++ after = []) :
    StandsAt start (before ++ (l ++ after))
      ⟨k, String.ofList l, (start.afterAll before).line, (start.afterAll before).col⟩
      before.length where
  place := Position.isAt_append start before _
  text := by rw [List.drop_left, String.length_ofList, List.take_left, String.toList_ofList]
  atEnd hk := by rw [hend hk, List.append_nil]

namespace TokenStream

variable {start : Position} {cs : List Char} {i o : Nat} {t : Token} {e : ScanError}

/-- After a token that is not empty the others stand further on. -/
theorem PlacedFrom.cons {ts : List Token} {e? : Option ScanError} {os : List Nat}
    (ht : t.StandsAt start cs o) (hi : i ≤ o) (hne : t.text.toList ≠ [])
    (h : PlacedFrom ids start cs (o + t.text.length) ⟨ts, e?⟩ os) :
    PlacedFrom ids start cs i ⟨t :: ts, e?⟩ (o :: os) := by
  have hlt : o < o + t.text.length :=
    Nat.lt_add_of_pos_right (List.length_pos_iff.2 hne)
  have hlast : ∀ p, o + t.text.length ≤ p → i ≤ p := fun p hp => by omega
  refine ⟨.cons ht h.token, ?_, ?_, ?_, ?_⟩
  · exact List.pairwise_cons.2 ⟨fun p hp => Nat.lt_of_lt_of_le hlt (h.le p hp), h.increasing⟩
  · exact List.forall_mem_cons.2 ⟨hi, fun p hp => hlast p (h.le p hp)⟩
  · exact List.pairwise_cons.2 ⟨fun a ha => h.le a.2 (List.of_mem_zip ha).2, h.apart⟩
  · rintro e he
    obtain ⟨p, hp, hle, hbefore⟩ := h.error e he
    exact ⟨p, hp, hlast p hle, List.forall_mem_cons.2 ⟨hle, hbefore⟩⟩

theorem PlacedFrom.atEnd (ht : t.StandsAt start cs o) (hi : i ≤ o) :
    PlacedFrom ids start cs i ⟨[t], none⟩ [o] :=
  ⟨.cons ht .nil, List.pairwise_singleton _ _, by simpa using hi, List.pairwise_singleton _ _,
    by simp⟩

theorem PlacedFrom.atError (he : e.StandsAt ids start cs o) (hi : i ≤ o) :
    PlacedFrom ids start cs i ⟨[], some e⟩ [] :=
  ⟨.nil, .nil, by simp, .nil, by simpa using ⟨o, he, hi⟩⟩

end TokenStream

/-! ### Counting on -/

/-- A scanner that has read `before` and has counted right. -/
structure Scanner.Counted (start : Position) (before : List Char) (s : Scanner ids) : Prop where
  source : s.source = before ++ s.rest
  position : s.position = start.afterAll before

namespace Scanner

open TokenStream

variable {start : Position} {before : List Char} {s s' last : Scanner ids}

theorem counted_startAt (text : String) (start : Position) :
    Counted start [] (startAt ids text start) :=
  ⟨rfl, rfl⟩

theorem all_finished (hahead : s.ahead = none) (hfinished : s.finished = true) :
    s.all = ([], none, s) :=
  all_of_nothing (next_finished hahead hfinished)

/-- **Taking a token**: it stands where it was counted to stand, after what has been read. It is
the end of the input, or it is not empty and the scanner counts on from its end. -/
theorem Counted.token {t : Token} (h : s.Counted start before) (hahead : s.ahead = none)
    (hfinished : s.finished = false) (hnext : s.next = (.ok (some t), s')) :
    ∃ o, before.length ≤ o ∧ t.StandsAt start s.source o ∧ s'.source = s.source ∧
      s'.ahead = none ∧ (s'.finished = true ∨ s'.finished = false ∧ t.text.toList ≠ [] ∧
        ∃ before', s'.Counted start before' ∧ before'.length = o + t.text.length) := by
  obtain ⟨hsource, hposition⟩ := h
  generalize hrest : s.rest = rest at hsource
  cases front ids rest with
  | last hg =>
    rw [next_end hahead hfinished (hrest ▸ hg)] at hnext
    cases hnext
    have ht := Token.standsAt_append (k := .endOfInput) start (before ++ rest) [] [] fun _ => rfl
    have hover : (before ++ rest) ++ ([] ++ []) = s.source := by
      rw [hsource, List.append_nil, List.append_nil]
    rw [hover, Position.afterAll_append, ← hposition, ← hrest] at ht
    exact ⟨_, by simp, ht, rfl, hahead, .inl rfl⟩
  | @lexeme g l after k hg hl hstops =>
    rw [next_lexeme hahead hfinished hrest hg hl hstops] at hnext
    cases hnext
    have hbefore : s.source = (before ++ g) ++ (l ++ after) := by
      rw [hsource, List.append_assoc]
    have ht := Token.standsAt_append start (before ++ g) l after fun hk =>
      absurd hk hl.kind_ne_endOfInput
    rw [← hbefore, Position.afterAll_append, ← hposition] at ht
    have hcounted : Counted start ((before ++ g) ++ l)
        ({ s with
          rest := after
          position := (s.position.afterAll g).afterAll l } : Scanner ids) :=
      ⟨hbefore.trans (List.append_assoc _ _ _).symm,
        by rw [Position.afterAll_append, Position.afterAll_append, hposition]⟩
    exact ⟨_, by simp, ht, rfl, hahead,
      .inr ⟨hfinished, by simpa using hl.ne_nil, _, hcounted, by simp [Nat.add_assoc]⟩⟩
  | fault hg hc hne hread =>
    rw [next_fault hahead hfinished hrest hg hc hne hread] at hnext
    cases hnext

/-- **Stopping**: the error stands where it was counted to stand. -/
theorem Counted.error {e : ScanError} (h : s.Counted start before) (hahead : s.ahead = none)
    (hfinished : s.finished = false) (hnext : s.next = (.error e, s')) :
    ∃ o, before.length ≤ o ∧ e.StandsAt ids start s.source o := by
  obtain ⟨hsource, hposition⟩ := h
  generalize hrest : s.rest = rest at hsource
  cases front ids rest with
  | last hg =>
    rw [next_end hahead hfinished (hrest ▸ hg)] at hnext
    cases hnext
  | lexeme hg hl hcs =>
    rw [next_lexeme hahead hfinished hrest hg hl hcs] at hnext
    cases hnext
  | @fault g cs bad c f hg hc hne hread =>
    rw [next_fault hahead hfinished hrest hg hc hne hread] at hnext
    cases hnext
    have hbefore : s.source = (before ++ g) ++ (c :: cs) := by
      rw [hsource, List.append_assoc]
    obtain ⟨l, hl, hunreadable⟩ := unreadable_of_readLexeme hc hne hread
    have hplace := Position.isAt_append start (before ++ g) (c :: cs)
    rw [← hbefore, Position.afterAll_append, ← hposition] at hplace
    -- the caret goes where the faulty text begins, seen from the end of the text
    have hcaret : s.source.length - bad.length = (before ++ g).length + l.length := by
      rw [hbefore, hl, ← List.append_assoc, List.length_append, Nat.add_sub_cancel,
        List.length_append]
    refine ⟨_, by simp, hplace, l, bad, ?_, hunreadable, by rw [hcaret]⟩
    rw [hbefore, List.drop_left, hl]

/-- A scanner that has counted right goes on to do so, up to the end of the input or an error. -/
theorem Counted.exists_placedFrom {ts : List Token} {e? : Option ScanError}
    (h : s.Counted start before) (hahead : s.ahead = none) (hfinished : s.finished = false)
    (hall : s.all = (ts, e?, last)) :
    ∃ os, PlacedFrom ids start s.source before.length ⟨ts, e?⟩ os := by
  fun_induction all s generalizing ts before with
  | case1 s t s' hnext _ ts' e' last' hall' ih =>
    cases hall
    obtain ⟨o, hle, ht, hsource, hahead', hend | ⟨hfinished', hne, before', hcounted, hlength⟩⟩ :=
      h.token hahead hfinished hnext
    · rw [all_finished hahead' hend] at hall'
      cases hall'
      exact ⟨_, .atEnd ht hle⟩
    · obtain ⟨os, hos⟩ := ih hcounted hahead' hfinished' hall'
      rw [hsource, hlength] at hos
      exact ⟨_, .cons ht hle hne hos⟩
  | case2 s s' hnext => exact absurd hnext (next_ne_none hahead hfinished)
  | case3 s e s' hnext =>
    cases hall
    obtain ⟨o, hle, he⟩ := h.error hahead hfinished hnext
    exact ⟨_, .atError he hle⟩

end Scanner

theorem TokenStream.exists_placedFrom (ids : Text.IdentClasses) (text : String)
    (start : Position) :
    ∃ os, (TokenStream.ofText ids text start).PlacedFrom ids start text.toList 0 os := by
  rcases hall : (Scanner.startAt ids text start).all with ⟨ts, e?, last⟩
  rw [TokenStream.ofText, hall]
  exact (Scanner.counted_startAt text start).exists_placedFrom rfl rfl hall

/-! ### Places that can be written -/

/-- A text with line ends has a last one. -/
theorem exists_last_lineEnd {cs : List Char} (h : '\n' ∈ cs) :
    ∃ j < cs.length, cs[j]? = some '\n' ∧ '\n' ∉ cs.drop (j + 1) := by
  obtain ⟨ds, es, hsplit, hnot⟩ := List.eq_append_cons_of_mem (List.mem_reverse.2 h)
  obtain rfl : cs = es.reverse ++ '\n' :: ds.reverse := by
    rw [← List.reverse_reverse cs, hsplit]
    simp
  refine ⟨es.reverse.length, by simp, ?_, ?_⟩
  · rw [List.getElem?_append_right (Nat.le_refl _), Nat.sub_self, List.getElem?_cons_zero]
  · rw [List.drop_append, List.drop_eq_nil_of_le (Nat.le_succ _)]
    simpa using hnot

/-- No offset is further from the start than the text is long. -/
theorem Position.IsAt.natAbs_le {start p : Position} {cs : List Char} {o : Nat}
    (h : IsAt start cs o p) :
    p.line.natAbs ≤ start.line.natAbs + cs.length ∧
      p.col.natAbs ≤ start.col.natAbs + cs.length := by
  have hle := h.le
  constructor
  · have hcount : (cs.take o).count '\n' ≤ cs.length :=
      List.count_le_length.trans (List.length_take_le' o cs)
    have hline := h.line
    omega
  · by_cases hend : '\n' ∈ cs.take o
    · obtain ⟨j, hj, hget, hlast⟩ := exists_last_lineEnd hend
      rw [List.length_take_of_le hle] at hj
      rw [List.getElem?_take_of_lt hj] at hget
      have hcol := h.later j hj hget hlast
      omega
    · have hcol := h.first hend
      omega

/-- **Places can be written** if the text begins where the numbers have few enough digits: those of
the tokens, and that of the error, which then is a lexing error. -/
theorem TokenStream.writable_ofText (ids : Text.IdentClasses) (text : String) (start : Position)
    (hline : start.line.natAbs + text.length < Text.writeBound)
    (hcol : start.col.natAbs + text.length < Text.writeBound) :
    (∀ t ∈ (ofText ids text start).tokens, t.isPlaceWritable = true) ∧
      ∀ e ∈ (ofText ids text start).error, e.isLexError = true := by
  obtain ⟨os, hplaced⟩ := exists_placedFrom ids text start
  have hwritable : ∀ {o : Nat} {p : Position}, Position.IsAt start text.toList o p →
      Text.isWritable p.line = true ∧ Text.isWritable p.col = true := by
    intro o p hp
    obtain ⟨hl, hc⟩ := hp.natAbs_le
    rw [String.length_toList] at hl hc
    exact ⟨Text.isWritable_iff.2 (Nat.lt_of_le_of_lt hl hline),
      Text.isWritable_iff.2 (Nat.lt_of_le_of_lt hc hcol)⟩
  constructor
  · intro t ht
    obtain ⟨i, hi, rfl⟩ := List.getElem_of_mem ht
    have hstands := hplaced.token.get hi (hplaced.token.length_eq ▸ hi)
    have hplace := hwritable hstands.place
    rw [Token.isPlaceWritable, Bool.and_eq_true]
    exact hplace
  · intro e he
    obtain ⟨o, hstands, -⟩ := hplaced.error e he
    have hplace := hwritable hstands.place
    exact ScanError.isLexError_iff.2 hplace

/-- In a text whose lines and columns count from one only the length matters. -/
theorem Scanner.writable_of_all {text : String} {ts : List Token} {e? : Option ScanError}
    {last : Scanner ids} (hall : (Scanner.ofText ids text).all = (ts, e?, last))
    (hlength : 1 + text.length < Text.writeBound) :
    (∀ t ∈ ts, t.isPlaceWritable = true) ∧ ∀ e ∈ e?, e.isLexError = true := by
  have hstream : TokenStream.ofText ids text ⟨1, 1⟩ = ⟨ts, e?⟩ :=
    congrArg (fun d => TokenStream.mk d.1 d.2.1) hall
  have hwritable := TokenStream.writable_ofText ids text ⟨1, 1⟩ hlength hlength
  rwa [hstream] at hwritable

/-- **Positions are exact**, wherever a text is said to begin. Its tokens, the end of the input
among them, and the error after them stand at offsets of the text: the text of a token is found at
its offset, what cannot be read begins at that of the error, and line and column are those of the
offset. The offsets increase, and no token begins before those in front of it end. These tokens
and this error are what a scanner answers that is put at the start of the text, whatever it has
done before. -/
theorem positions_exact (text : String) (start : Position) :
    (∃ os, (TokenStream.ofText ids text start).PlacedFrom ids start text.toList 0 os) ∧
    ∀ (s : Scanner ids) i,
      TokenSource.answer i (s.reset text start) = (TokenStream.ofText ids text start).answer i := by
  refine ⟨TokenStream.exists_placedFrom ids text start, fun s i => ?_⟩
  rw [Scanner.reset_eq_startAt, Scanner.answer_startAt]

end CatAndMouse
