import CatAndMouse.Proofs.Token.Decomposition

/-!
# What a text delivers

A text delivers a stream: tokens up to the end of the input, or up to an error
(`TokenStream.closed_ofText`). The error comes again whenever more is asked for, because the
scanner stays in front of what it cannot read (`Scanner.next_of_error`). So what a new scanner
answers is told by the stream (`Scanner.answer_startAt`).

The error shows its line and its column. It comes as a lexing error if these can be written
(`ScanError.isLexError_iff`), and otherwise nothing but the refusal to write them comes of it.
-/

namespace CatAndMouse

open TokenSource

variable {ids : Text.IdentClasses}

/-- What a source answers when it is asked for a token. -/
abbrev Answer := Except ScanError (Option Token)

/-- What a text delivers: its tokens, and the error that comes after them if there is one. -/
structure TokenStream where
  tokens : List Token
  error : Option ScanError

namespace TokenStream

/-- What a new scanner reads in a text that begins at a place. -/
def ofText (ids : Text.IdentClasses) (text : String) (p : Position) : TokenStream :=
  ⟨(Scanner.startAt ids text p).all.1, (Scanner.startAt ids text p).all.2.1⟩

/-- The answer of a number. After the tokens there is nothing any more, or always the error. -/
def answer (d : TokenStream) (i : Nat) : Answer :=
  match d.tokens[i]?, d.error with
  | some t, _ => .ok (some t)
  | none, none => .ok none
  | none, some e => .error e

/-- The tokens go up to the only end of the input, or there is none and an error follows; whether it
is a lexing error depends on its place (`ScanError.isLexError`). -/
inductive Closed : TokenStream → Prop where
  | atEnd {ts : List Token} {t : Token} (hts : ∀ u ∈ ts, u.kind ≠ .endOfInput)
      (ht : t.kind = .endOfInput) : Closed ⟨ts ++ [t], none⟩
  | atError {ts : List Token} {e : ScanError} (hts : ∀ u ∈ ts, u.kind ≠ .endOfInput) :
      Closed ⟨ts, some e⟩

end TokenStream

/-! ### Errors -/

/-- The error can be worded, and comes as a lexing error. -/
def ScanError.isLexError (e : ScanError) : Bool := e.report?.isSome

theorem ScanError.isLexError_iff {e : ScanError} :
    e.isLexError = true ↔ Text.isWritable e.line = true ∧ Text.isWritable e.col = true := by
  rw [isLexError, report?, Text.isSome_report?_iff, List.forall_mem_cons, List.forall_mem_singleton]

namespace TokenSource

variable {σ : Type} [TokenSource σ]

theorem after_add (n i : Nat) (s : σ) : after (n + i) s = after i (after n s) := by
  induction n generalizing s with
  | zero => rw [Nat.zero_add, after]
  | succ n ih => rw [Nat.succ_add, after, ih, after]

theorem answer_add (n i : Nat) (s : σ) : answer (n + i) s = answer i (after n s) := by
  rw [answer, after_add, answer]

end TokenSource

namespace Scanner

variable {s s' : Scanner ids} {e : ScanError}

/-- An error comes while there is nothing ahead, before the end of the input. -/
theorem unread_of_error (h : s.next = (.error e, s')) : s.ahead = none ∧ s.finished = false := by
  cases hahead : s.ahead with
  | some t => simp [next, peek, hahead] at h
  | none =>
    cases hfinished : s.finished with
    | true => simp [next, peek, hahead, hfinished] at h
    | false => exact ⟨rfl, rfl⟩

/-- **Errors come again**: the scanner stays in front of what it cannot read. -/
theorem next_of_error (h : s.next = (.error e, s')) : s'.next = (.error e, s') := by
  obtain ⟨hahead, hfinished⟩ := unread_of_error h
  generalize hrest : s.rest = rest
  cases front ids rest with
  | last hg =>
    rw [next_end hahead hfinished (hrest ▸ hg)] at h
    cases h
  | lexeme hg hl hcs =>
    rw [next_lexeme hahead hfinished hrest hg hl hcs] at h
    cases h
  | @fault g cs bad c _ hg hc hne hread =>
    rw [next_fault hahead hfinished hrest hg hc hne hread] at h
    cases h
    -- the gap has been skipped, and an empty gap is left
    exact next_fault (g := []) hahead hfinished rfl .nil hc hne hread

/-- After an error there are only errors. -/
theorem answer_of_error (h : s.next = (.error e, s')) (i : Nat) :
    TokenSource.answer i s = .error e := by
  have hnext := next_of_error h
  have hafter : ∀ i, TokenSource.after i s' = s' := by
    intro i
    induction i with
    | zero => rfl
    | succ i ih =>
      rw [TokenSource.after_succ, ih]
      exact congrArg Prod.snd hnext
  cases i with
  | zero => exact answer_zero h
  | succ i =>
    rw [answer_succ h, TokenSource.answer, hafter]
    exact congrArg Prod.fst hnext

end Scanner

/-! ### Streams and scanners -/

theorem TokenStream.closed_ofText (text : String) (p : Position) :
    (ofText ids text p).Closed := by
  rcases hall : (Scanner.startAt ids text p).all with ⟨ts, e?, last⟩
  rw [ofText, hall]
  cases e? with
  | some e =>
    exact .atError fun u hu => (Scanner.lexeme_of_all rfl rfl hall u hu).kind_ne_endOfInput
  | none =>
    obtain ⟨d, hd, -, hlexemes⟩ := Cut.exists_of_yields rfl rfl (Scanner.yields_of_all hall)
    obtain ⟨us, vs, rfl, hus, hvs⟩ := List.map_eq_append_iff.1 hlexemes
    obtain ⟨t, rfl, ht⟩ := List.map_eq_singleton_iff.1 hvs
    refine .atEnd (fun u hu => ?_) (Prod.mk.inj ht).1
    have hmem : u.lexeme ∈ d.lexemes := hus ▸ List.mem_map_of_mem hu
    obtain ⟨q, hq, hqu⟩ := List.mem_map.1 hmem
    rw [← show q.kind = u.kind from congrArg Prod.fst hqu]
    exact (hd.lexeme q hq).kind_ne_endOfInput

/-- **A new scanner** answers what its text delivers. -/
theorem Scanner.answer_startAt (text : String) (p : Position) (i : Nat) :
    TokenSource.answer i (startAt ids text p) = (TokenStream.ofText ids text p).answer i := by
  rcases hall : (Scanner.startAt ids text p).all with ⟨ts, e?, last⟩
  rw [TokenStream.ofText, hall]
  cases e? with
  | none =>
    rw [Scanner.yields_of_all hall i, answer_list, TokenStream.answer]
    cases ts[i]? <;> rfl
  | some e =>
    obtain ⟨hsame, herror⟩ := Scanner.answers_of_all hall
    rw [TokenStream.answer]
    by_cases hi : i < ts.length
    · rw [hsame i hi, answer_list, List.getElem?_eq_getElem hi]
    · obtain ⟨j, rfl⟩ := Nat.exists_eq_add_of_le (Nat.not_lt.1 hi)
      rw [List.getElem?_eq_none (Nat.le_add_right _ j), TokenSource.answer_add]
      exact Scanner.answer_of_error (Prod.ext herror rfl) j

/-- A text that begins on line 3 delivers one token there, and then always the same error. -/
example :
    TokenStream.ofText .unicode14 "size ?" ⟨3, 5⟩ =
      ⟨[⟨.size, "size", 3, 5⟩], some ⟨.unexpected '?', 3, 10, "size ?\n     ^"⟩⟩ := by cbv

end CatAndMouse
