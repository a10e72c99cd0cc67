import CatAndMouse.Proofs.Automaton.Completeness

/-!
# The language of the standard table

The automaton with the standard table accepts the programs, no more and no less
(`standard_accepts_iff_sentence`): what stands before the end of the input must
be a sentence of the grammar, and its integers must be numerals. The rules that
it reports are a rightmost derivation of the tokens, and there is no other
(`standard_rules_unique`). Both come from `halts_accepted_iff`, which says that
the automaton finds exactly the parses.

What is no program is refused at one of its tokens. The refusal shows the place of
the token, so it comes as a parse error only if that place can be written
(`Failure.RefusedAt`), and a token may be said to stand in any line and column
(`not_forall_refused_isParseError`).
-/

namespace CatAndMouse

/-- The tokens before the first end of the input. -/
def beforeEnd (ts : List Token) : List Token := ts.takeWhile fun t => t.kind ≠ .endOfInput

theorem exists_eq_beforeEnd_append (ts : List Token) :
    ∃ rest, ts = beforeEnd ts ++ rest ∧ ∀ t ∈ rest.head?, t.kind = .endOfInput := by
  refine ⟨ts.dropWhile fun t => t.kind ≠ .endOfInput, List.takeWhile_append_dropWhile.symm, ?_⟩
  intro t ht
  have hnot := List.head?_dropWhile_not (fun t : Token => decide (t.kind ≠ .endOfInput)) ts
  rw [Option.mem_def.1 ht] at hnot
  simpa using hnot

theorem take_eq_beforeEnd {ts : List Token} {k : Nat}
    (hbefore : ∀ t ∈ ts.take k, t.kind ≠ .endOfInput)
    (hend : ∀ t, ts[k]? = some t → t.kind = .endOfInput) : ts.take k = beforeEnd ts := by
  have hrest : (ts.drop k).takeWhile (fun t => t.kind ≠ .endOfInput) = [] := by
    cases hd : ts.drop k with
    | nil => rfl
    | cons t rest =>
      have ht : ts[k]? = some t := by rw [← List.head?_drop, hd]; rfl
      simp [hend t ht]
  have happend : beforeEnd (ts.take k ++ ts.drop k) = ts.take k := by
    rw [beforeEnd, List.takeWhile_append_of_pos (by simpa using hbefore), hrest,
      List.append_nil]
  rw [List.take_append_drop] at happend
  exact happend.symm

/-! ### Refusals -/

theorem Token.isPlaceWritable_iff {t : Token} :
    t.isPlaceWritable = true ↔ ∀ n ∈ [t.line, t.col], Text.isWritable n = true := by
  simp [isPlaceWritable]

/-- The first number that cannot be written is that of no place that can. -/
theorem Token.not_isPlaceWritable {t : Token} (h : (Text.writeBound : Int) ∈ [t.line, t.col]) :
    ¬ t.isPlaceWritable = true :=
  fun hplace => Text.not_isWritable_writeBound (isPlaceWritable_iff.1 hplace _ h)

namespace Failure

/-- The program is refused: what fails is not the source of its tokens, and not the table. -/
def isRefusal : Failure → Bool
  | .badLeaf .. | .unexpected .. => true
  | _ => false

/-- The token that the program fails at. -/
def token? : Failure → Option Token
  | .badLeaf t _ | .unexpected t _ _ => some t
  | _ => none

/-- The refusal can be worded, and comes as a parse error. -/
def isParseError (e : Failure) : Bool := e.isRefusal && e.report?.isSome

/-- The program is refused at the token. A parse error comes of it unless the place of the token
cannot be written; the end of the input is shown without its place. -/
structure RefusedAt (e : Failure) (t : Token) : Prop where
  isRefusal : e.isRefusal = true
  token : e.token? = some t
  isParseError_iff : e.isParseError = true ↔ t.kind = .endOfInput ∨ t.isPlaceWritable = true

variable {t : Token}

/-- **When a message can be written**: all the numbers that it shows can be. -/
theorem isSome_report?_iff {e : Failure} :
    e.report?.isSome = true ↔ ∀ n ∈ e.numbers, Text.isWritable n = true :=
  Text.isSome_report?_iff

theorem refusedAt_unexpected (t : Token) (state : Nat) (expected : List String) :
    (unexpected t state expected).RefusedAt t where
  isRefusal := rfl
  token := rfl
  isParseError_iff := by
    rw [isParseError, isRefusal, Bool.true_and, isSome_report?_iff, numbers]
    split
    · next hk => simp [hk]
    · next hk => rw [or_iff_right hk, Token.isPlaceWritable_iff]

theorem refusedAt_badLeaf (hk : t.kind ≠ .endOfInput) (e : LeafError) :
    (badLeaf t e).RefusedAt t where
  isRefusal := rfl
  token := rfl
  isParseError_iff := by
    rw [isParseError, isRefusal, Bool.true_and, isSome_report?_iff, numbers, or_iff_right hk,
      Token.isPlaceWritable_iff]

/-- Where all places can be written, the refusal is a parse error. -/
theorem RefusedAt.isParseError {e : Failure} {ts : List Token} (h : e.RefusedAt t)
    (ht : t ∈ ts ∨ t.kind = .endOfInput) (hts : ∀ u ∈ ts, u.isPlaceWritable = true) :
    e.isParseError = true :=
  h.isParseError_iff.2 (ht.symm.imp_right (hts t))

theorem RefusedAt.not_isParseError {e : Failure} (h : e.RefusedAt t) (hk : t.kind ≠ .endOfInput)
    (hplace : ¬ t.isPlaceWritable = true) : ¬ e.isParseError = true :=
  fun hparse => (h.isParseError_iff.1 hparse).elim hk hplace

end Failure

/-- A run accepts at the end of the input, or the program is refused at one of its tokens or at
its end. -/
theorem Ending.verdict_cases {ts : List Token} {k : Nat} {o : Outcome (List Token)}
    (h : Ending ts k o) :
    (∃ root, o.verdict = .accepted root ∧ ∀ t, ts[k]? = some t → t.kind = .endOfInput) ∨
      ∃ e t, o.verdict = .failed e ∧ e.RefusedAt t ∧ (t ∈ ts ∨ t.kind = .endOfInput) := by
  cases h with
  | accepted root hv hend => exact .inl ⟨root, hv, hend⟩
  | unexpected look _ hv hlook =>
    refine .inr ⟨_, look, hv, Failure.refusedAt_unexpected look _ _, ?_⟩
    cases ht : ts[k]? with
    | some t =>
      rw [hlook, ht]
      exact .inl (List.mem_of_getElem? ht)
    | none =>
      rw [hlook, ht]
      exact .inr rfl
  | badLeaf t e hv ht he =>
    have hk : t.kind = .integer := (Token.leaves_eq_error_iff.1 he).1
    exact .inr ⟨_, t, hv, Failure.refusedAt_badLeaf (by rw [hk]; nofun) e,
      .inl (List.mem_of_getElem? ht)⟩

/-- Where the places of the tokens can be written, a run accepts or comes to a parse error. -/
theorem Ending.exists_accepted_or_isParseError {ts : List Token} {k : Nat}
    {o : Outcome (List Token)} (h : Ending ts k o)
    (hplaces : ∀ t ∈ ts, t.isPlaceWritable = true) :
    (∃ root, o.verdict = .accepted root) ∨
      ∃ e, o.verdict = .failed e ∧ e.isParseError = true := by
  rcases h.verdict_cases with ⟨root, hv, -⟩ | ⟨e, t, hv, hrefused, ht⟩
  · exact .inl ⟨root, hv⟩
  · exact .inr ⟨e, hv, hrefused.isParseError ht hplaces⟩

/-! ### Programs -/

/-- **Parses are found**: the standard table accepts what has a parse as a program, with the
tree and the rules of the parse. -/
theorem halts_accepted_iff {ts : List Token} {root : Node} {rs : List Nat} :
    (∃ o, Table.standard.HaltsWith ts o ∧ o.verdict = .accepted root ∧ o.rules = rs) ↔
      Parses [.phrase .program] rs (beforeEnd ts) [root] := by
  constructor
  · rintro ⟨o, ho, hv, rfl⟩
    obtain ⟨o', k, ho', -, -, hending⟩ := exists_derive? ts
    obtain rfl : o = o' := ho.unique (Table.haltsWith_of_derive? ho')
    cases hending with
    | accepted root' hv' hend hparse =>
      rw [hv] at hv'
      cases hv'
      have hbefore := hparse.ne_endOfInput (by simp)
      rwa [take_eq_beforeEnd hbefore hend] at hparse
    | unexpected _ _ hv' =>
      rw [hv] at hv'
      cases hv'
    | badLeaf _ _ hv' =>
      rw [hv] at hv'
      cases hv'
  · intro hparse
    obtain ⟨rest, hts, hrest⟩ := exists_eq_beforeEnd_append ts
    have haccepts := accepts_of_parses hparse hrest
    rwa [← hts] at haccepts

/-- **Exactly the programs**: over any list of tokens the standard table comes to an end. It
accepts if the tokens before the end of the input are a sentence and their integers are
numerals; in every other case it refuses the program at one of the tokens, or at their end. Where
the places of the tokens can be written, the refusal is a parse error. -/
theorem standard_accepts_iff_sentence (ts : List Token) :
    ∃ o, Table.standard.derive? ts = some o ∧
      ((∃ root, o.verdict = .accepted root) ↔
        Sentence (symbolsOf (beforeEnd ts)) ∧
          ∀ t ∈ beforeEnd ts, t.kind = .integer → IsNumeral t.text) ∧
      ((∃ root, o.verdict = .accepted root) ∨
        ∃ e t, o.verdict = .failed e ∧ e.RefusedAt t ∧ (t ∈ ts ∨ t.kind = .endOfInput)) ∧
      ((∀ t ∈ ts, t.isPlaceWritable = true) →
        (∃ root, o.verdict = .accepted root) ∨
          ∃ e, o.verdict = .failed e ∧ e.isParseError = true) := by
  obtain ⟨o, k, ho, -, -, hending⟩ := exists_derive? ts
  have hhalts := Table.haltsWith_of_derive? ho
  refine ⟨o, ho, ?_, hending.verdict_cases.imp_left fun ⟨root, hv, _⟩ => ⟨root, hv⟩,
    hending.exists_accepted_or_isParseError⟩
  have hgood : (∀ t ∈ beforeEnd ts, t.kind = .integer → IsNumeral t.text) ↔
      ∀ t ∈ beforeEnd ts, ∃ us, t.leaves = .ok us :=
    forall₂_congr fun _ _ => Token.exists_leaves_iff.symm
  rw [hgood, ← readsAsProgram_iff]
  constructor
  · rintro ⟨root, hv⟩
    exact ⟨o.rules, root, halts_accepted_iff.1 ⟨o, hhalts, hv, rfl⟩⟩
  · rintro ⟨rs, root, hparse⟩
    obtain ⟨o', ho', hv, -⟩ := halts_accepted_iff.2 hparse
    obtain rfl := hhalts.unique ho'
    exact ⟨root, hv⟩

/-- The first word of no program, in the first line whose number cannot be written. -/
def farHalt : Token := ⟨.halt, "halt", Text.writeBound, 1⟩

/-- The list with this one token is refused, and no parse error comes of it. -/
theorem not_forall_refused_isParseError :
    ¬ ∀ (ts : List Token) (o : Outcome (List Token)), Table.standard.derive? ts = some o →
      (∃ root, o.verdict = .accepted root) ∨
        ∃ e, o.verdict = .failed e ∧ e.isParseError = true := by
  intro h
  have hrun : (Table.standard.derive? [farHalt]).map Outcome.verdict =
      some (.failed (.unexpected farHalt 0 ["SIZE"])) := by rfl
  obtain ⟨o, ho, hv⟩ := Option.map_eq_some_iff.1 hrun
  rcases h _ o ho with ⟨root, hroot⟩ | ⟨e, he, hparse⟩
  · rw [hv] at hroot
    cases hroot
  · rw [hv] at he
    cases he
    have hfar : ¬ farHalt.isPlaceWritable = true := Token.not_isPlaceWritable List.mem_cons_self
    exact (Failure.refusedAt_unexpected farHalt _ _).not_isParseError nofun hfar hparse

/-! ### Derivations -/

/-- The table shows its productions as they are written. -/
theorem derivation_eq {rules : List Int} {ps : List Production}
    (h : List.Forall₂ (fun n p => (n, p) ∈ standardProductions) rules.reverse ps) :
    Table.standard.derivation rules = .ok (ps.map Production.text) := by
  rw [Table.derivation]
  generalize rules.reverse = ns at h
  induction h with
  | nil => rfl
  | cons hn _ ih =>
    rw [List.mapM_cons, Table.standard_rule hn, ih]
    rfl

/-- **The derivation**: the rules applied to an accepted list, the last one first, are a
rightmost derivation of the tokens before the end of the input, and the table shows it. No
other rules are one. -/
theorem standard_rules_unique {ts : List Token} {o : Outcome (List Token)} {root : Node}
    (ho : Table.standard.derive? ts = some o) (hv : o.verdict = .accepted root) :
    (∃ ps, List.Forall₂ (fun n p => (n, p) ∈ standardProductions)
        (o.rules.map Int.ofNat).reverse ps ∧
      Rightmost standardNonterminals ps [programSymbol] (symbolsOf (beforeEnd ts)) ∧
      Table.standard.derivation (o.rules.map Int.ofNat) = .ok (ps.map Production.text)) ∧
    ∀ rules : List Int,
      RightmostBy rules.reverse [programSymbol] (symbolsOf (beforeEnd ts)) →
        rules = o.rules.map Int.ofNat := by
  have hhalts := Table.haltsWith_of_derive? ho
  have hparse : Parses [.phrase .program] o.rules (beforeEnd ts) [root] :=
    halts_accepted_iff.1 ⟨o, hhalts, hv, rfl⟩
  constructor
  · obtain ⟨ps, hps, hd⟩ := hparse.rightmost
    rw [List.map_reverse] at hps
    exact ⟨ps, hps, hd, derivation_eq hps⟩
  · intro rules h
    obtain ⟨xs, rs, vs, hxs, hrules, hparse'⟩ := exists_parses_of_rightmost hparse.exists_leaves h
    obtain rfl := parts_eq_of_programSymbol hxs
    obtain ⟨root', rfl⟩ := hparse'.exists_root
    -- both parses are what the automaton finds
    obtain ⟨o', ho', -, hrs⟩ := halts_accepted_iff.2 hparse'
    obtain rfl := hhalts.unique ho'
    rw [List.map_reverse, List.reverse_inj] at hrules
    rw [hrules, hrs]

/-- A program that makes one hole. -/
def holeProgram : List Token :=
  [.size, .integer, .integer, .start, .hole, .integer, .integer, .semicolon, .halt].map Token.sample

theorem standard_rules_unique_holeProgram :
    ∃ o, Table.standard.derive? holeProgram = some o ∧ o.rules = [6, 2, 1] ∧
      ∀ rules : List Int,
        RightmostBy rules.reverse [programSymbol] (symbolsOf (beforeEnd holeProgram)) →
          rules = [6, 2, 1] := by
  have hrun : (Table.standard.derive? holeProgram).map (fun o => (o.verdict, o.rules)) =
      some (.accepted (.program (.number 0 1) (.number 0 1) (.hole (.number 0 1) (.number 0 1))),
        [6, 2, 1]) := by rfl
  obtain ⟨o, ho, hpair⟩ := Option.map_eq_some_iff.1 hrun
  obtain ⟨hv, hrules⟩ := Prod.mk.inj hpair
  have hunique := (standard_rules_unique ho hv).2
  rw [hrules] at hunique
  exact ⟨o, ho, hrules, hunique⟩

end CatAndMouse
