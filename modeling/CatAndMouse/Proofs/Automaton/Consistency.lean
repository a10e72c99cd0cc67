import CatAndMouse.Proofs.Automaton.Steps
import CatAndMouse.Proofs.Language

/-!
# The standard table is consistent

Every place of a run with the standard table keeps the invariant of reading
(`Launched.exists_reading`). So no reduction ever lacks a frame, a fragment, a rule or
a target, and no more rules are applied than tokens were shifted, up to the end of
the run (`standard_consistent`).
-/

namespace CatAndMouse

variable {ts : List Token} {k n : Nat} {c : Config (List Token)} {look : Token}
  {o : Outcome (List Token)}

/-- Wherever a run comes, the tokens shifted so far have been read. -/
theorem Launched.exists_reading (h : Launched Table.standard ts k c look) :
    ∃ xs values, Reading ts k c look xs values := by
  induction h with
  | first h =>
    rcases Reading.launch ts with ⟨c', look', hlaunch, hread, -⟩ | ⟨c', t, e, hlaunch, -⟩
    · rw [h] at hlaunch
      cases hlaunch
      exact ⟨[], [], hread⟩
    · rw [h] at hlaunch
      cases hlaunch
  | shift _ hshifts hstep ih =>
    obtain ⟨xs, values, hread⟩ := ih
    obtain ⟨s, ha⟩ := Config.shifts_standard_iff.1 hshifts
    rcases hread.shift ha with ⟨c', look', values', hstep', hread', -⟩ | ⟨c', t, e, hstep', -⟩
    · rw [hstep] at hstep'
      cases hstep'
      exact ⟨_, values', hread'⟩
    · rw [hstep] at hstep'
      cases hstep'
  | @stay _ c c' look look' _ hshifts hstep ih =>
    obtain ⟨xs, values, hread⟩ := ih
    rcases Config.step_eq_next hstep with ⟨s, ha, -⟩ | ⟨-, n, hred⟩
    · exact absurd ⟨s, ha⟩ hshifts
    · have ha : actionAt c.state look.kind = .reduce n := by
        obtain ⟨ha⟩ := hred
        rw [Table.standard_actionOf] at ha
        exact Except.ok.inj ha
      obtain ⟨c'', xs', values', hstep', hread', -⟩ := hread.reduce ha
      rw [hstep] at hstep'
      cases hstep'
      exact ⟨xs', values', hread'⟩

/-- No more rules have been applied than tokens were shifted. -/
theorem Launched.length_applied_le (h : Launched Table.standard ts k c look) :
    c.applied.length ≤ k := by
  obtain ⟨xs, values, hread⟩ := h.exists_reading
  exact hread.length_applied_le

/-- At the end of a run, too: an answer is taken at the start and one for each token shifted. -/
theorem Ends.length_applied_lt (h : Ends Table.standard ts n o) :
    o.config.applied.length < n := by
  cases h with
  | first h =>
    have happlied := Config.pull_applied (Config.initial ts).recordStack
    unfold Config.launch at h
    split at h
    · cases h
    · next heq =>
      cases h
      rw [heq] at happlied
      rw [show _ = ([] : List Nat) from happlied]
      exact Nat.zero_lt_one
  | @shift k c look _ h hshifts hstep =>
    obtain ⟨s, ha⟩ := hshifts
    have hle := h.length_applied_le
    have happlied := Config.shift_applied c look s
    simp only [Config.step, ha] at hstep
    rw [hstep] at happlied
    rw [show o.config.applied = c.applied from happlied]
    omega
  | @stay k c look _ h hshifts hstep =>
    have hle := h.length_applied_le
    obtain ⟨xs, values, hread⟩ := h.exists_reading
    cases ha : actionAt c.state look.kind with
    | shift s => exact absurd (Config.shifts_standard_iff.2 ⟨s, ha⟩) hshifts
    | reduce r =>
      obtain ⟨c', _, _, hstep', -⟩ := hread.reduce ha
      rw [hstep] at hstep'
      cases hstep'
    | accept =>
      obtain ⟨root, hstep', -⟩ := hread.accept ha
      rw [hstep] at hstep'
      cases hstep'
      exact Nat.lt_succ_of_le hle
    | error =>
      rw [Config.step_standard, ha] at hstep
      cases hstep
      exact Nat.lt_succ_of_le hle

/-- **Consistency**: over any list of tokens the standard table comes to an end, and it accepts
the program or refuses it at one of the tokens, or at their end; the table never fails. Where the
places of the tokens can be written, the refusal is a parse error. On the way, and at the end, no
more rules have been applied than tokens were shifted. -/
theorem standard_consistent (ts : List Token) :
    (∃ o, Table.standard.derive? ts = some o ∧
      ((∃ root, o.verdict = .accepted root) ∨
        ∃ e t, o.verdict = .failed e ∧ e.RefusedAt t ∧ (t ∈ ts ∨ t.kind = .endOfInput)) ∧
      ((∀ t ∈ ts, t.isPlaceWritable = true) →
        (∃ root, o.verdict = .accepted root) ∨
          ∃ e, o.verdict = .failed e ∧ e.isParseError = true)) ∧
    (∀ k c look, Launched Table.standard ts k c look → c.applied.length ≤ k) ∧
    ∀ k o, Ends Table.standard ts (k + 1) o → o.config.applied.length ≤ k := by
  refine ⟨?_, fun k c look h => h.length_applied_le, fun k o h => ?_⟩
  · obtain ⟨o, k, ho, -, -, hending⟩ := exists_derive? ts
    exact ⟨o, ho, hending.verdict_cases.imp_left fun ⟨root, hv, _⟩ => ⟨root, hv⟩,
      hending.exists_accepted_or_isParseError⟩
  · exact Nat.le_of_lt_succ h.length_applied_lt

/-- An integer that is no numeral, in the first column whose number cannot be written. -/
def farWidth : Token := ⟨.integer, "x", 1, Text.writeBound⟩

/-- After `size` the run stops at it, neither with a program nor with a parse error. -/
theorem not_forall_derive?_accepted_or_isParseError :
    ¬ ∀ ts : List Token, ∃ o, Table.standard.derive? ts = some o ∧
      ((∃ root, o.verdict = .accepted root) ∨
        ∃ e, o.verdict = .failed e ∧ e.isParseError = true) := by
  intro h
  have hrun : (Table.standard.derive? [.sample .size, farWidth]).map Outcome.verdict =
      some (.failed (.badLeaf farWidth (.malformed "x"))) := by rfl
  obtain ⟨o, ho, hcases⟩ := h [.sample .size, farWidth]
  rw [ho] at hrun
  have hv := Option.some.inj hrun
  rcases hcases with ⟨root, hroot⟩ | ⟨e, he, hparse⟩
  · rw [hv] at hroot
    cases hroot
  · rw [hv] at he
    cases he
    have hk : farWidth.kind ≠ .endOfInput := nofun
    have hfar : ¬ farWidth.isPlaceWritable = true :=
      Token.not_isPlaceWritable (List.mem_cons_of_mem _ List.mem_cons_self)
    exact (Failure.refusedAt_badLeaf hk _).not_isParseError hk hfar hparse

end CatAndMouse
