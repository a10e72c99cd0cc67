import CatAndMouse.Automaton

/-!
# Configurations within reach

`Reaches` says where steps lead, without counting them. The main statement is
`run_eq_some_iff`: a run ends with an outcome exactly if a configuration within
reach halts with it.
-/

namespace CatAndMouse.Config

variable {σ : Type} [TokenSource σ]

/-- `Reaches t c look c' look'`: steps lead from `c`, looking at `look`, to `c'`, looking at
`look'`. -/
inductive Reaches (t : Table) : Config σ → Token → Config σ → Token → Prop where
  /-- No step. -/
  | refl (c : Config σ) (look : Token) : Reaches t c look c look
  /-- A step, then others. -/
  | head {c c' c'' : Config σ} {look look' look'' : Token}
      (first : step t c look = .next c' look') (rest : Reaches t c' look' c'' look'') :
      Reaches t c look c'' look''

theorem Reaches.trans {t : Table} {c c' c'' : Config σ} {look look' look'' : Token}
    (h : Reaches t c look c' look') (h' : Reaches t c' look' c'' look'') :
    Reaches t c look c'' look'' := by
  induction h with
  | refl => exact h'
  | head first _ ih => exact .head first (ih h')

/-- What a step keeps holds wherever steps lead. -/
theorem Reaches.invariant {t : Table} {P : Config σ → Token → Prop}
    (hstep : ∀ c look c' look', P c look → step t c look = .next c' look' → P c' look')
    {c c' : Config σ} {look look' : Token} (h : Reaches t c look c' look') (hc : P c look) :
    P c' look' := by
  induction h with
  | refl => exact hc
  | head first _ ih => exact ih (hstep _ _ _ _ hc first)

/-- **Runs and reach**: a run ends with an outcome exactly if a configuration within reach
halts with it. -/
theorem run_eq_some_iff {t : Table} {c : Config σ} {look : Token} {o : Outcome σ} :
    (∃ n, run t n c look = some o) ↔
      ∃ c' look', Reaches t c look c' look' ∧ step t c' look' = .halt o := by
  constructor
  · rintro ⟨n, hn⟩
    induction n generalizing c look with
    | zero => simp [run] at hn
    | succ n ih =>
      rw [run] at hn
      split at hn
      · next c' look' hs =>
        obtain ⟨c'', look'', hr, hh⟩ := ih hn
        exact ⟨c'', look'', .head hs hr, hh⟩
      · next o' hs =>
        cases hn
        exact ⟨c, look, .refl c look, hs⟩
  · rintro ⟨c', look', hr, hh⟩
    induction hr with
    | refl c look => exact ⟨1, by rw [run, hh]⟩
    | head first _ ih =>
      obtain ⟨n, hn⟩ := ih hh
      exact ⟨n + 1, by rw [run, first]; exact hn⟩

end CatAndMouse.Config
