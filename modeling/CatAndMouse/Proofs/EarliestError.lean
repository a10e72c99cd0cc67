import CatAndMouse.Proofs.Grammar.Viable
import CatAndMouse.Proofs.Language
import Mathlib.Tactic.IntervalCases

/-!
# Errors come as early as they can

When the standard table reports an error, what was read before the token is the
beginning of a program, and with the token it is no more
(`standard_error_earliest`). Nothing after the token has been looked at.
-/

namespace CatAndMouse

namespace Failure

/-- The state that the failure names, if the table was asked about the token. -/
def state? : Failure → Option Nat
  | .unexpected _ state _ => some state
  | _ => none

/-- The terminals that the state allows, if the table was asked. -/
def expected : Failure → List String
  | .unexpected _ _ expected => expected
  | _ => []

end Failure

/-- An end of a run is what `derive?` gives. -/
theorem Ends.derive? {ts : List Token} {n : Nat} {o : Outcome (List Token)}
    (h : Ends Table.standard ts n o) : Table.standard.derive? ts = some o := by
  obtain ⟨o', k, ho', -⟩ := exists_derive? ts
  rw [(haltsWith_iff_ends.2 ⟨n, h⟩).unique (Table.haltsWith_of_derive? ho'), ho']

/-- **Nothing is read ahead**: a list that begins with the tokens that were asked for comes to
the same verdict. -/
theorem Ends.derive?_of_prefix {ts ts' : List Token} {n : Nat} {o : Outcome (List Token)}
    (h : Ends Table.standard ts n o) (hn : n ≤ ts.length) (hpre : ts.take n <+: ts') :
    ∃ o', Table.standard.derive? ts' = some o' ∧ o'.verdict = o.verdict := by
  obtain ⟨more, rfl⟩ := hpre
  have hsame : ∀ i < n, TokenSource.answer i (ts.take n ++ more) = TokenSource.answer i ts := by
    intro i hi
    rw [TokenSource.answer_list, TokenSource.answer_list,
      List.getElem?_append_left (by rw [List.length_take]; omega), List.getElem?_take_of_lt hi]
  exact ⟨_, (h.withSource hsame).derive?, rfl⟩

/-- A token that is refused does not continue the beginning of a program. -/
theorem not_viable_of_unexpected {ts : List Token} {k : Nat} {o : Outcome (List Token)}
    {look : Token} (hends : Ends Table.standard ts (k + 1) o)
    (hv : ∀ root, o.verdict ≠ .accepted root) (hlook : ∃ line, look = ts[k]?.getD (.endAt line))
    (hbefore : ∀ t ∈ ts.take k, ∃ us, t.leaves = .ok us) (hleaves : ∃ us, look.leaves = .ok us) :
    ¬ Viable (symbolsOf (ts.take k ++ [look])) := by
  have hgood : ∀ t ∈ ts.take k ++ [look], ∃ us, t.leaves = .ok us := by
    intro t ht
    rcases List.mem_append.1 ht with ht | ht
    · exact hbefore t ht
    · rwa [List.mem_singleton.1 ht]
  rw [viable_symbolsOf_iff hgood]
  rintro (⟨more, rs, root, hparse⟩ | ⟨ps, t, heq, ht, rs, root, hparse⟩)
  · -- more tokens would make a program, but the automaton has failed on any such list
    have hk : look.kind ≠ .endOfInput := hparse.ne_endOfInput (by simp) look (by simp)
    have hget : ts[k]? = some look := by
      obtain ⟨line, hlook⟩ := hlook
      cases ht : ts[k]? with
      | some t => rw [hlook, ht, Option.getD_some]
      | none =>
        rw [hlook, ht, Option.getD_none] at hk
        exact absurd rfl hk
    have htake : ts.take (k + 1) = ts.take k ++ [look] := by rw [List.take_add_one, hget]; rfl
    have hpre : ts.take (k + 1) <+: ts.take k ++ [look] ++ more := by
      rw [htake]
      exact List.prefix_append ..
    obtain ⟨o₁, ho₁, hv₁⟩ :=
      hends.derive?_of_prefix (List.getElem?_eq_some_iff.1 hget).1 hpre
    have hnone : ∀ t ∈ ([] : List Token).head?, t.kind = .endOfInput := by simp
    obtain ⟨o₂, ho₂, hv₂, -⟩ := accepts_of_parses hparse hnone
    rw [List.append_nil] at ho₂
    rw [(Table.haltsWith_of_derive? ho₁).unique ho₂, hv₂] at hv₁
    exact hv root hv₁.symm
  · -- the tokens before the end are a program, but the automaton has not accepted it
    obtain ⟨rfl, hone⟩ := List.append_inj' heq rfl
    obtain rfl : look = t := List.head_eq_of_cons_eq hone
    obtain ⟨line, hlook⟩ := hlook
    have hend : ∀ t ∈ (ts.drop k).head?, t.kind = .endOfInput := by
      intro t' ht'
      rw [List.head?_drop, Option.mem_def] at ht'
      rwa [hlook, ht'] at ht
    obtain ⟨o', ho', hv', -⟩ := accepts_of_parses hparse hend
    rw [List.take_append_drop] at ho'
    rw [← (haltsWith_iff_ends.2 ⟨_, hends⟩).unique ho'] at hv'
    exact hv root hv'

/-- **The earliest error**: when the standard table fails, it fails at a token, or at the end of
the list. The tokens before it begin a sentence; either it is an integer that cannot be read,
or with it they begin none. It is the last token taken from the list, so a list that differs
only after it fails in the same way. -/
theorem standard_error_earliest {ts : List Token} {o : Outcome (List Token)} {e : Failure}
    (ho : Table.standard.derive? ts = some o) (hv : o.verdict = .failed e) :
    ∃ k ≤ ts.length, ∃ look, look = ts[k]?.getD (.endAt o.config.line) ∧
      e.isRefusal = true ∧ e.token? = some look ∧ Viable (symbolsOf (ts.take k)) ∧
      ((look.kind = .integer ∧ ¬ IsNumeral look.text ∧ e.state? = none ∧ e.expected = []) ∨
        ¬ Viable (symbolsOf (ts.take k ++ [look]))) ∧
      o.config.pulled = min (k + 1) ts.length ∧ o.config.source = ts.drop (k + 1) ∧
      (k < ts.length → ∀ ts', ts.take (k + 1) <+: ts' →
        ∃ o', Table.standard.derive? ts' = some o' ∧ o'.verdict = .failed e) := by
  obtain ⟨o', k, ho', hends, hk, hending⟩ := exists_derive? ts
  obtain rfl : o = o' := Option.some.inj (ho.symm.trans ho')
  have hpulled : o.config.pulled = min (k + 1) ts.length := by
    have hplace := congrArg Place.pulled hends.place_eq
    rwa [Place.after_pulled_list, Nat.zero_add] at hplace
  have hsource : o.config.source = ts.drop (k + 1) := by
    have hplace := congrArg Place.source hends.place_eq
    rwa [Place.after_source, TokenSource.after_list] at hplace
  have hsame : k < ts.length → ∀ ts', ts.take (k + 1) <+: ts' →
      ∃ o', Table.standard.derive? ts' = some o' ∧ o'.verdict = .failed e := by
    intro hlt ts' hpre
    rw [← hv]
    exact hends.derive?_of_prefix hlt hpre
  have hfailed : ∀ root, o.verdict ≠ .accepted root := by
    intro root hroot
    rw [hv] at hroot
    cases hroot
  have hbegins : (∃ more, ReadsAsProgram (ts.take k ++ more)) →
      (∀ t ∈ ts.take k, ∃ us, t.leaves = .ok us) ∧ Viable (symbolsOf (ts.take k)) := by
    rintro ⟨more, hmore⟩
    have hgood : ∀ t ∈ ts.take k, ∃ us, t.leaves = .ok us := fun t ht =>
      (readsAsProgram_iff.1 hmore).2 t (List.mem_append_left _ ht)
    exact ⟨hgood, (viable_symbolsOf_iff hgood).2 (.inl ⟨more, hmore⟩)⟩
  cases hending with
  | accepted root hroot => exact absurd hroot (hfailed root)
  | unexpected look state hv' hlook hleaves hviable =>
    obtain rfl : e = _ := Verdict.failed.inj (hv.symm.trans hv')
    obtain ⟨hgood, hviable⟩ := hbegins hviable
    have hnot := not_viable_of_unexpected hends hfailed ⟨_, hlook⟩ hgood hleaves
    exact ⟨k, hk, look, hlook, rfl, rfl, hviable, .inr hnot, hpulled, hsource, hsame⟩
  | badLeaf t err hv' ht he hviable =>
    obtain rfl : e = _ := Verdict.failed.inj (hv.symm.trans hv')
    obtain ⟨-, hviable⟩ := hbegins hviable
    have hkind : t.kind = .integer := (Token.leaves_eq_error_iff.1 he).1
    have hbad : ¬ IsNumeral t.text := by
      intro hnum
      obtain ⟨us, hus⟩ := Token.exists_leaves_iff.2 fun _ => hnum
      rw [hus] at he
      cases he
    exact ⟨k, hk, t, by rw [ht, Option.getD_some], rfl, rfl, hviable,
      .inl ⟨hkind, hbad, rfl, rfl⟩, hpulled, hsource, hsame⟩

/-- A size of which one half is missing. -/
def halfSize : List Token := [.size, .integer, .halt].map Token.sample

theorem standard_error_earliest_halfSize :
    ∃ o e, Table.standard.derive? halfSize = some o ∧ o.verdict = .failed e ∧
      Viable ["SIZE", "INTEGER"] ∧ ¬ Viable ["SIZE", "INTEGER", "HALT"] := by
  have hrun : (Table.standard.derive? halfSize).map Outcome.verdict =
      some (.failed (.unexpected (.sample .halt) 3 ["INTEGER"])) := by rfl
  obtain ⟨o, ho, hv⟩ := Option.map_eq_some_iff.1 hrun
  obtain ⟨k, hk, look, hlook, -, htoken, hviable, hearly, -⟩ := standard_error_earliest ho hv
  obtain rfl : look = .sample .halt := (Option.some.inj htoken).symm
  have hk : k = 2 := by
    have hkind : Kind.halt = (halfSize[k]?.getD (.endAt o.config.line)).kind :=
      congrArg Token.kind hlook
    have hk : k ≤ 3 := hk
    interval_cases k
    · cases hkind
    · cases hkind
    · rfl
    · cases hkind
  subst hk
  refine ⟨o, _, ho, hv, hviable, hearly.resolve_left ?_⟩
  rintro ⟨hkind, -⟩
  cases hkind

end CatAndMouse
