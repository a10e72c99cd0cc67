import CatAndMouse.Proofs.Automaton.Consistency
import CatAndMouse.Proofs.EarliestError
import CatAndMouse.Proofs.Token.Places

/-!
# The first error is reported

The automaton takes tokens from a scanner as it needs them, so an error of the
scanner and an error of the program may compete. A text that is read without an
error is parsed as the list of its tokens. Otherwise the error of the scanner is
reported exactly if the tokens before it begin a sentence and have no integer that
is too long; if not, the program fails as these tokens alone do
(`lazy_agrees_with_eager`).
-/

namespace CatAndMouse

open TokenSource

/-! ### Sources that fail -/

section Failing

variable {σ τ : Type} [TokenSource σ] [TokenSource τ] {t : Table} {source : σ} {k m n : Nat}
  {c : Config σ} {look : Token} {o : Outcome σ} {s : τ} {e : ScanError}

/-- On its way a run has shifted every smaller number of tokens. -/
theorem Launched.exists_shifts (h : Launched t source k c look) (hm : m < k) :
    ∃ c' look', Launched t source m c' look' ∧ Config.Shifts t c' look' ∧
      c'.applied.length ≤ c.applied.length := by
  induction h with
  | first => exact absurd hm (Nat.not_lt_zero m)
  | @shift k c _ look _ h hshifts hstep ih =>
    have hle := Config.length_applied_le_of_step hstep
    rcases Nat.lt_succ_iff_lt_or_eq.1 hm with hlt | rfl
    · obtain ⟨c₁, look₁, h₁, hs₁, hle₁⟩ := ih hlt
      exact ⟨c₁, look₁, h₁, hs₁, Nat.le_trans hle₁ hle⟩
    · exact ⟨c, look, h, hshifts, hle⟩
  | stay _ _ hstep ih =>
    obtain ⟨c₁, look₁, h₁, hs₁, hle₁⟩ := ih hm
    exact ⟨c₁, look₁, h₁, hs₁, Nat.le_trans hle₁ (Config.length_applied_le_of_step hstep)⟩

theorem Ends.exists_shifts (h : Ends t source n o) (hm : m + 1 < n) :
    ∃ c look, Launched t source m c look ∧ Config.Shifts t c look ∧
      c.applied.length ≤ o.config.applied.length := by
  cases h with
  | first => exact absurd hm (Nat.not_lt.2 (Nat.le_add_left 1 m))
  | @shift k c look _ h hshifts hstep =>
    have hle := Config.length_applied_le_of_step hstep
    rcases Nat.lt_succ_iff_lt_or_eq.1 (Nat.lt_of_succ_lt_succ hm) with hlt | rfl
    · obtain ⟨c₁, look₁, h₁, hs₁, hle₁⟩ := h.exists_shifts hlt
      exact ⟨c₁, look₁, h₁, hs₁, Nat.le_trans hle₁ hle⟩
    · exact ⟨c, look, h, hshifts, hle⟩
  | stay h _ hstep =>
    obtain ⟨c₁, look₁, h₁, hs₁, hle₁⟩ := h.exists_shifts (Nat.lt_of_succ_lt_succ hm)
    exact ⟨c₁, look₁, h₁, hs₁, Nat.le_trans hle₁ (Config.length_applied_le_of_step hstep)⟩

namespace Config

theorem pull_of_scan {c : Config τ} (h : (next c.source).1 = .error e) :
    c.pull = (.error (.scan e), c.atPlace c.place.advance) := by
  rw [pull_eq, Place.look, place, h]
  rfl

theorem launch_of_scan (h : (next s).1 = .error e) :
    ∃ c, launch s = .halt ⟨.failed (.scan e), c⟩ ∧ c.applied = [] := by
  have hpull : (initial s).recordStack.pull = _ := pull_of_scan h
  rw [launch, hpull]
  exact ⟨_, rfl, rfl⟩

theorem step_of_scan {c : Config τ} (hshifts : Shifts t c look)
    (h : (next c.source).1 = .error e) :
    ∃ c', step t c look = .halt ⟨.failed (.scan e), c'⟩ ∧ c'.applied = c.applied := by
  obtain ⟨state, hstate⟩ := hshifts
  have hpull : ({ c with frames := ⟨look.kind.symbol, state⟩ :: c.frames } : Config τ).pull = _ :=
    pull_of_scan h
  simp only [step, hstate, shift, hpull]
  exact ⟨_, rfl, rfl⟩

end Config

/-- **A source that fails** where another one gives an answer ends the run with its error,
whatever the table. -/
theorem Ends.exists_scan (h : Ends t source n o) (hm : m < n)
    (hsame : ∀ i < m, answer i s = answer i source) (herror : answer m s = .error e) :
    ∃ o', Ends t s (m + 1) o' ∧ o'.verdict = .failed (.scan e) ∧
      o'.config.applied.length ≤ o.config.applied.length := by
  cases m with
  | zero =>
    obtain ⟨c, hlaunch, happlied⟩ := Config.launch_of_scan herror
    exact ⟨_, .first hlaunch, rfl, by simp [happlied]⟩
  | succ m =>
    obtain ⟨c, look, hlaunched, hshifts, hle⟩ := h.exists_shifts hm
    have hlaunched' := hlaunched.withSource fun i hi => hsame i (Nat.lt_succ_of_le hi)
    obtain ⟨c', hstep, happlied⟩ :=
      Config.step_of_scan (c := c.withSource (after (m + 1) s)) hshifts herror
    refine ⟨_, .shift hlaunched' hshifts hstep, rfl, ?_⟩
    rw [happlied]
    exact hle

end Failing

/-! ### The standard table -/

section Standard

variable {τ : Type} [TokenSource τ] {ts : List Token} {k : Nat} {o : Outcome (List Token)}
  {s : τ} {e : ScanError}

/-- **Which error comes first**: over a source that gives the tokens of a list and then fails, the
run ends as over the list, unless it asks for more than the list has. -/
theorem Ends.exists_derive?_of_scan (h : Ends Table.standard ts (k + 1) o) (hk : k ≤ ts.length)
    (hsame : ∀ i < ts.length, answer i s = answer i ts) (herror : answer ts.length s = .error e)
    (hbound : ts.length ≤ bound s) :
    ∃ o', Table.standard.derive? s = some o' ∧
      o'.verdict = if k = ts.length then .failed (.scan e) else o.verdict := by
  have happlied := h.length_applied_lt
  -- as many answers as tokens, and one more, and as many rules, are within the budget
  have hbudget : 2 * ts.length + 1 ≤ Table.budget s := by
    simp only [Table.budget, Table.stepsPerToken]
    omega
  by_cases hend : k = ts.length
  · subst hend
    obtain ⟨o', ho', hv, hle⟩ := h.exists_scan (Nat.lt_succ_self _) hsame herror
    exact ⟨o', ho'.derive?_of_le (by omega), by rw [hv, if_pos rfl]⟩
  · have hlt : k < ts.length := Nat.lt_of_le_of_ne hk hend
    have ho' := h.withSource fun i hi => hsame i (Nat.lt_of_lt_of_le hi hlt)
    refine ⟨_, ho'.derive?_of_le ?_, by rw [if_neg hend]; rfl⟩
    show k + 1 + o.config.applied.length ≤ _
    omega

/-- Tokens without an end of the input are all taken, and more is asked for, exactly if they begin
a sentence and can be read. -/
theorem Ending.eq_length_iff (hends : Ends Table.standard ts (k + 1) o) (hk : k ≤ ts.length)
    (hending : Ending ts k o) (hnoEnd : ∀ t ∈ ts, t.kind ≠ .endOfInput) :
    k = ts.length ↔ (∃ w, Sentence w ∧ symbolsOf ts <+: w) ∧
      ∀ t ∈ ts, t.kind = .integer → IsNumeral t.text := by
  have hviable : ∃ more, ReadsAsProgram (ts.take k ++ more) := by
    cases hending with
    | accepted root _ _ hparse => exact ⟨[], o.rules, root, by rwa [List.append_nil]⟩
    | unexpected _ _ _ _ _ hviable => exact hviable
    | badLeaf _ _ _ _ _ hviable => exact hviable
  constructor
  · rintro rfl
    obtain ⟨more, hmore⟩ := hviable
    rw [List.take_length] at hmore
    obtain ⟨hsentence, hgood⟩ := readsAsProgram_iff.1 hmore
    refine ⟨⟨_, hsentence, ?_⟩, fun t ht => ?_⟩
    · rw [symbolsOf, symbolsOf, List.map_append]
      exact List.prefix_append ..
    · exact Token.exists_leaves_iff.1 (hgood t (List.mem_append_left _ ht))
  · rintro ⟨⟨w, hw, hpre⟩, hnumerals⟩
    by_contra hne
    have hlt : k < ts.length := Nat.lt_of_le_of_ne hk hne
    have hgood : ∀ t ∈ ts, ∃ us, t.leaves = .ok us := fun t ht =>
      Token.exists_leaves_iff.2 (hnumerals t ht)
    have hget : ts[k]? = some ts[k] := List.getElem?_eq_getElem hlt
    cases hending with
    | accepted root hv hend => exact hnoEnd _ (List.getElem_mem hlt) (hend _ hget)
    | unexpected look state hv hlook hleaves =>
      have hnot := not_viable_of_unexpected hends (by simp [hv]) ⟨_, hlook⟩
        (fun t ht => hgood t (List.mem_of_mem_take ht)) hleaves
      obtain rfl : look = ts[k] := by rw [hlook, hget, Option.getD_some]
      have hread : ts.take k ++ [ts[k]] <+: ts := by
        rw [← List.take_succ_eq_append_getElem hlt]
        exact List.take_prefix ..
      exact hnot ⟨w, hw, ((hread.map _).trans hpre).trans (List.prefix_append ..)⟩
    | badLeaf t err hv ht he =>
      obtain ⟨us, hus⟩ := hgood t (List.mem_of_getElem? ht)
      rw [hus] at he
      cases he

end Standard

variable {ids : Text.IdentClasses}

/-- **A text comes to one of three ends**: a tree, and then there is no error of the scanner in all
the text; the error of the scanner; or an error of the program. -/
theorem exists_derive?_of_all {text : String} {ts : List Token} {e? : Option ScanError}
    {last : Scanner ids} (hall : (Scanner.ofText ids text).all = (ts, e?, last)) :
    ∃ o, Table.standard.derive? (Scanner.ofText ids text) = some o ∧
      ((∃ root, o.verdict = .accepted root ∧ e? = none) ∨
        (∃ e, o.verdict = .failed (.scan e) ∧ e? = some e) ∨
        ∃ e t, o.verdict = .failed e ∧ e.RefusedAt t ∧ (t ∈ ts ∨ t.kind = .endOfInput)) := by
  obtain ⟨o₁, k, ho₁, hends, hk, hending⟩ := exists_derive? ts
  cases e? with
  | none =>
    obtain ⟨o, s, ho, hs⟩ := exists_derive?_of_yields (Scanner.yields_of_all hall)
      (Scanner.length_le_bound_of_all hall)
    obtain rfl : o = o₁ := Option.some.inj (ho.symm.trans ho₁)
    refine ⟨_, hs, ?_⟩
    rcases hending.verdict_cases with ⟨root, hv, -⟩ | hfailed
    · exact .inl ⟨root, hv, rfl⟩
    · exact .inr (.inr hfailed)
  | some e =>
    obtain ⟨hsame, herror⟩ := Scanner.answers_of_all hall
    obtain ⟨o, ho, hv⟩ :=
      hends.exists_derive?_of_scan hk hsame herror (Scanner.length_le_bound_of_all hall)
    refine ⟨o, ho, .inr ?_⟩
    split at hv
    · exact .inl ⟨e, hv, rfl⟩
    · next hend =>
      rcases hending.verdict_cases with ⟨root, -, hkind⟩ | ⟨e', t, he', hrefused⟩
      · -- the end of the input is not among tokens that an error follows
        have hlt : k < ts.length := Nat.lt_of_le_of_ne hk hend
        exact absurd (hkind _ (List.getElem?_eq_getElem hlt))
          (Scanner.lexeme_of_all rfl rfl hall _ (List.getElem_mem hlt)).kind_ne_endOfInput
      · exact .inr ⟨e', t, hv.trans he', hrefused⟩

/-- **Lazy and eager**: a text that can be read is parsed as the list of its tokens, with the same
end of the run but for the source. If there is an error in it, this error is reported exactly if
the tokens before it begin a sentence and have no integer of more than 4300 digits; otherwise the
program is refused as these tokens are, with a parse error unless the text is so long that it has
places that cannot be written. -/
theorem lazy_agrees_with_eager (ids : Text.IdentClasses) (text : String) :
    (∀ ts last, (Scanner.ofText ids text).all = (ts, none, last) →
      ∃ o s, Table.standard.derive? ts = some o ∧
        Table.standard.derive? (Scanner.ofText ids text) = some (o.withSource s)) ∧
    ∀ ts e last, (Scanner.ofText ids text).all = (ts, some e, last) →
      ∃ o, Table.standard.derive? (Scanner.ofText ids text) = some o ∧
        (o.verdict = .failed (.scan e) ↔ (∃ w, Sentence w ∧ symbolsOf ts <+: w) ∧
          ∀ t ∈ ts, t.kind = .integer → t.text.toList.length ≤ 4300) ∧
        (o.verdict ≠ .failed (.scan e) → ∃ o' e', Table.standard.derive? ts = some o' ∧
          o'.verdict = .failed e' ∧ o.verdict = .failed e' ∧ e'.isRefusal = true ∧
          (1 + text.length < Text.writeBound → e'.isParseError = true)) := by
  constructor
  · intro ts last hall
    exact exists_derive?_of_yields (Scanner.yields_of_all hall)
      (Scanner.length_le_bound_of_all hall)
  · intro ts e last hall
    have hlexemes := Scanner.lexeme_of_all rfl rfl hall
    obtain ⟨hsame, herror⟩ := Scanner.answers_of_all hall
    have hshort : (∀ t ∈ ts, t.kind = .integer → IsNumeral t.text) ↔
        ∀ t ∈ ts, t.kind = .integer → t.text.toList.length ≤ 4300 := by
      refine forall₃_congr fun t ht hk => ⟨fun h => h.2.1, fun hlen => ?_⟩
      obtain ⟨hne, hdigits⟩ := (hk ▸ hlexemes t ht : Lexeme ids .integer t.text.toList).digits
      exact ⟨List.length_pos_iff.2 hne, hlen, hdigits⟩
    obtain ⟨o, k, ho, hends, hk, hending⟩ := exists_derive? ts
    have hlength := hending.eq_length_iff hends hk fun t ht => (hlexemes t ht).kind_ne_endOfInput
    rw [hshort] at hlength
    obtain ⟨o', ho', hv⟩ :=
      hends.exists_derive?_of_scan hk hsame herror (Scanner.length_le_bound_of_all hall)
    -- the list alone never fails with an error of the scanner
    have hnot : o.verdict ≠ .failed (.scan e) := by
      intro hscan
      rcases hending.verdict_cases with ⟨root, hroot, -⟩ | ⟨e', _, he', hrefused, -⟩
      · rw [hscan] at hroot
        cases hroot
      · rw [hscan] at he'
        cases he'
        cases hrefused.isRefusal
    refine ⟨o', ho', ?_, fun hne => ?_⟩
    · rw [← hlength, hv]
      by_cases hend : k = ts.length <;> simp [hend, hnot]
    · have hend : k ≠ ts.length := fun hend => hne (by rw [hv, if_pos hend])
      rw [if_neg hend] at hv
      rcases hending.verdict_cases with ⟨root, -, hkind⟩ | ⟨e', t, he', hrefused, ht⟩
      · have hlt : k < ts.length := Nat.lt_of_le_of_ne hk hend
        exact absurd (hkind _ (List.getElem?_eq_getElem hlt))
          (hlexemes _ (List.getElem_mem hlt)).kind_ne_endOfInput
      · exact ⟨o, e', ho, he', hv.trans he', hrefused.isRefusal, fun hlength =>
          hrefused.isParseError ht (Scanner.writable_of_all hall hlength).1⟩

/-- After `size` more is asked for, and the question mark is met; `halt` fails before it. -/
example :
    (Table.standard.derive? (Scanner.ofText .unicode14 "size ?")).map Outcome.verdict =
        some (.failed (.scan ⟨.unexpected '?', 1, 6, "size ?\n     ^"⟩)) ∧
      (Table.standard.derive? (Scanner.ofText .unicode14 "halt ?")).map Outcome.verdict =
        some (.failed (.unexpected ⟨.halt, "halt", 1, 1⟩ 0 ["SIZE"])) :=
  ⟨rfl, rfl⟩

end CatAndMouse
