import CatAndMouse.Proofs.Automaton.Reading

/-!
# Streams of tokens

Two sources that give the same tokens lead to the same runs, step by step
(`Config.run_withSource`). So a source that yields a list of tokens can be
replaced by the list (`exists_derive?_of_yields`).
-/

namespace CatAndMouse

variable {σ τ : Type} [TokenSource σ] [TokenSource τ]

namespace TokenSource

section Answers

variable {s s' : σ} {a : Except ScanError (Option Token)}

theorem answer_zero (h : next s = (a, s')) : answer 0 s = a := by
  rw [answer, after, h]

theorem answer_succ (h : next s = (a, s')) (i : Nat) : answer (i + 1) s = answer i s' := by
  rw [answer, after, h, answer]

end Answers

/-- Asked again and again, the source gives the tokens of the list and then nothing. -/
def Yields (s : σ) (ts : List Token) : Prop := ∀ i, answer i s = answer i ts

variable {s s' : σ} {t : Token} {ts : List Token}

theorem Yields.nil (h : next s = (.ok none, s)) : Yields s [] := by
  have hafter : ∀ i, after i s = s := by
    intro i
    induction i with
    | zero => rfl
    | succ i ih => rw [after, h, ih]
  intro i
  rw [answer, hafter, h, answer_list]
  rfl

theorem Yields.cons (h : next s = (.ok (some t), s')) (hs : Yields s' ts) :
    Yields s (t :: ts) := by
  intro i
  cases i with
  | zero => exact answer_zero h
  | succ i => exact (answer_succ h i).trans (hs i)

theorem Yields.tail (h : Yields s (t :: ts)) :
    ∃ s', next s = (.ok (some t), s') ∧ Yields s' ts := by
  refine ⟨(next s).2, ?_, fun i => h (i + 1)⟩
  have hfirst : (next s).1 = .ok (some t) := h 0
  rw [← hfirst]

/-- A source yields one list only. -/
theorem Yields.unique {us : List Token} (h : Yields s ts) (h' : Yields s us) : ts = us := by
  refine List.ext_getElem? fun i => ?_
  have hsame := (h i).symm.trans (h' i)
  rw [answer_list, answer_list] at hsame
  exact Except.ok.inj hsame

end TokenSource

namespace Config

variable {t : Table} {c : Config σ} {look : Token} {o : Outcome σ} {s : τ}

open TokenSource in
/-- A run over the same answers is the same run. -/
theorem run_withSource {n : Nat} (hs : ∀ i < n, answer i s = answer i c.source)
    (h : run t n c look = some o) :
    ∃ s', run t n (c.withSource s) look = some (o.withSource s') := by
  induction n generalizing c look s with
  | zero => simp [run] at h
  | succ n ih =>
    -- after the step the sources agree on one answer less, or still on all of them
    obtain ⟨s₁, heq, hs₁⟩ : ∃ s₁, step t (c.withSource s) look = (step t c look).withSource s₁ ∧
        ∀ i < n, answer i s₁ = answer i (step t c look).config.source := by
      by_cases hshift : Shifts t c look
      · have hnext : (next s).1 = (next c.source).1 := hs 0 (Nat.succ_pos n)
        obtain ⟨heq, hplace⟩ := step_withSource_of_shifts hshift hnext
        have hsource : (step t c look).config.source = (next c.source).2 :=
          (congrArg Place.source hplace).trans (Place.advance_source _)
        exact ⟨_, heq, fun i hi => by rw [hsource]; exact hs (i + 1) (Nat.succ_lt_succ hi)⟩
      · obtain ⟨heq, hplace⟩ := step_withSource hshift s
        have hsource : (step t c look).config.source = c.source := congrArg Place.source hplace
        exact ⟨s, heq, fun i hi => by rw [hsource]; exact hs i (Nat.lt_succ_of_lt hi)⟩
    rw [run] at h ⊢
    rw [heq]
    cases hstep : step t c look with
    | next c' look' =>
      rw [hstep] at h hs₁
      exact ih hs₁ h
    | halt o' =>
      rw [hstep] at h
      cases h
      exact ⟨s₁, rfl⟩

end Config

open TokenSource in
/-- **Streams and lists**: over a source that yields a list of tokens the standard table comes
to the end to which it comes over the list. -/
theorem exists_derive?_of_yields {s : σ} {ts : List Token} (h : Yields s ts)
    (hbound : ts.length ≤ bound s) :
    ∃ o s', Table.standard.derive? ts = some o ∧
      Table.standard.derive? s = some (o.withSource s') := by
  have hfirst : (next s).1 = (next ts).1 := h 0
  obtain ⟨heq, hplace⟩ := Config.launch_withSource hfirst
  rcases Reading.launch ts with ⟨c, look, hlaunch, hreading, happlied⟩ |
    ⟨c, t, e, hlaunch, -, -⟩
  · rw [hlaunch] at heq hplace
    have hsource : c.source = (next ts).2 :=
      (congrArg Place.source hplace).trans (Place.advance_source _)
    have hlist : bound ts = ts.length := rfl
    -- the budget of the list is enough, and the other is no smaller
    obtain ⟨o, -, ho, -⟩ := hreading.exists_run (n := Table.budget ts) (by
      simp only [Table.budget, Table.stepsPerToken, hlist]
      omega)
    have ho' : Config.run Table.standard (Table.budget s) c look = some o :=
      Config.run_mono ho (Nat.mul_le_mul_left _ (by omega))
    have hsame : ∀ i < Table.budget s, answer i (next s).2 = answer i c.source := fun i _ => by
      rw [hsource]
      exact h (i + 1)
    obtain ⟨s', hs'⟩ := Config.run_withSource hsame ho'
    refine ⟨o, s', ?_, ?_⟩
    · rw [Table.derive?, hlaunch]
      exact ho
    · rw [Table.derive?, heq]
      exact hs'
  · rw [hlaunch] at heq
    exact ⟨_, _, by rw [Table.derive?, hlaunch], by rw [Table.derive?, heq]; rfl⟩

end CatAndMouse
