import CatAndMouse.Proofs.Automaton.Streams

/-!
# Reading everything at once

`Scanner.all` takes tokens until there are no more or an error comes. It finds what
taking them one by one finds: either the scanner yields these tokens
(`Scanner.exists_all_iff_yields`), or it answers with them and then with the error
(`Scanner.answers_of_all`).
-/

namespace CatAndMouse

open TokenSource

namespace Scanner

variable {ids : Text.IdentClasses} {s s' last : Scanner ids} {ts : List Token} {e : ScanError}

/-- A scanner that has nothing to give stays as it is. -/
theorem next_eq_none (h : s.next = (.ok none, s')) : s' = s := by
  unfold next at h
  split at h
  · cases h
  · next hpeek =>
    cases h
    unfold peek at hpeek
    split at hpeek
    · cases hpeek
    · split at hpeek
      · cases hpeek
        rfl
      · split at hpeek <;> cases hpeek
  · cases h

theorem all_of_token {t : Token} (h : s.next = (.ok (some t), s')) :
    s.all = (t :: s'.all.1, s'.all.2) := by
  rw [all]
  split <;> simp_all

theorem all_of_nothing (h : s.next = (.ok none, s')) : s.all = ([], none, s') := by
  rw [all]
  split <;> simp_all

theorem all_of_error (h : s.next = (.error e, s')) : s.all = ([], some e, s') := by
  rw [all]
  split <;> simp_all

theorem yields_of_all (h : s.all = (ts, none, last)) : Yields s ts := by
  fun_induction all s generalizing ts with
  | case1 s t s' hnext _ ts' e' last' hall ih =>
    cases h
    exact .cons hnext (ih hall)
  | case2 s s' hnext =>
    cases h
    obtain rfl := next_eq_none hnext
    exact .nil hnext
  | case3 => cases h

/-- The tokens before an error are answered one by one, and then the error. -/
theorem answers_of_all (h : s.all = (ts, some e, last)) :
    (∀ i < ts.length, answer i s = answer i ts) ∧ answer ts.length s = .error e := by
  fun_induction all s generalizing ts with
  | case1 s t s' hnext _ ts' e' last' hall ih =>
    cases h
    obtain ⟨hbefore, herror⟩ := ih hall
    refine ⟨fun i hi => ?_, (answer_succ hnext _).trans herror⟩
    cases i with
    | zero => exact answer_zero hnext
    | succ i => exact (answer_succ hnext i).trans (hbefore i (Nat.lt_of_succ_lt_succ hi))
  | case2 => cases h
  | case3 s e' s' hnext =>
    cases h
    exact ⟨fun i hi => absurd hi (Nat.not_lt_zero i), answer_zero hnext⟩

/-- No more tokens are read than the bound says. -/
theorem length_le_bound_of_all {e? : Option ScanError} (h : s.all = (ts, e?, last)) :
    ts.length ≤ s.bound := by
  fun_induction all s generalizing ts with
  | case1 s t s' hnext hlt ts' e' last' hall ih =>
    cases h
    exact Nat.lt_of_le_of_lt (ih hall) hlt
  | case2 => cases h; exact Nat.zero_le _
  | case3 => cases h; exact Nat.zero_le _

/-- **All at once or one by one**: the tokens read at once, without an error, are those that the
scanner yields. -/
theorem exists_all_iff_yields : (∃ last, s.all = (ts, none, last)) ↔ Yields s ts := by
  constructor
  · rintro ⟨last, h⟩
    exact yields_of_all h
  · intro h
    obtain ⟨⟨us, e?, last⟩, hall⟩ : ∃ r, s.all = r := ⟨_, rfl⟩
    cases e? with
    | none =>
      obtain rfl := h.unique (yields_of_all hall)
      exact ⟨last, hall⟩
    | some e =>
      obtain ⟨-, herror⟩ := answers_of_all hall
      rw [h, answer_list] at herror
      cases herror

end Scanner

end CatAndMouse
