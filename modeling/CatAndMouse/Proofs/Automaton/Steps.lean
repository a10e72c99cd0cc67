import CatAndMouse.Proofs.Automaton.Sources
import CatAndMouse.Proofs.Computation
import CatAndMouse.Proofs.Tree.Leaf

/-!
# What a step does

Any table is allowed here. A step that goes on shifts the token or reduces by a rule
(`step_eq_next`), and a step that accepts leaves everything as it is
(`step_eq_accepted`). A shift puts the leaf of the next token onto the fragments
(`shift_eq_next`). Since each step shifts a token or applies a rule, the steps of a
run can be counted (`Launched.run_eq`): a run that comes to an end with few enough
tokens and rules comes there in time (`Ends.derive?_of_le`), and it comes to one end
only (`Ends.unique`).
-/

namespace CatAndMouse

variable {σ : Type}

namespace Config

variable {t : Table} {c c' : Config σ} {look look' : Token} {o : Outcome σ}

/-! ### Reductions -/

/-- `Reduces t c look n c'`: facing the token, the table reduces by rule `n`. The tree of the rule
is built, and its frames give way to its left-hand side. -/
inductive Reduces (t : Table) (c : Config σ) (look : Token) : Nat → Config σ → Prop where
  | mk {n target : Nat} {rule : Rule} {fragments : Fragments} {below : List Frame}
      (haction : t.actionOf c.state look.kind.symbol = .ok (.reduce n))
      (hrule : t.rule n = .ok rule) (hbuild : c.fragments.apply n = (none, fragments))
      (hbelow : below? rule.size.toNat c.frames = some below)
      (hgoto : t.gotoOf (topState below) rule.lhs = .ok (some target)) :
      Reduces t c look n
        ((({ c with
          frames := ⟨rule.lhs, target⟩ :: below
          fragments
          applied := n :: c.applied } : Config σ).record (.reduced n)).recordStack)

theorem Reduces.applied_eq {n : Nat} (h : Reduces t c look n c') :
    c'.applied = n :: c.applied := by
  cases h
  rfl

theorem Reduces.apply_eq {n : Nat} (h : Reduces t c look n c') :
    c.fragments.apply n = (none, c'.fragments) := by
  cases h with
  | mk _ _ hbuild => exact hbuild

/-- The frames after a reduction depend on the frames before it only. -/
theorem Reduces.frames_eq {τ : Type} {d d' : Config τ} {look' : Token} {n : Nat}
    (h : Reduces t c look n c') (h' : Reduces t d look' n d') (hframes : d.frames = c.frames) :
    d'.frames = c'.frames := by
  cases h with
  | mk _ hrule _ hbelow hgoto =>
    cases h' with
    | mk _ hrule' _ hbelow' hgoto' =>
      rw [hrule] at hrule'
      cases hrule'
      rw [hframes, hbelow] at hbelow'
      cases hbelow'
      rw [hgoto] at hgoto'
      cases hgoto'
      rfl

theorem Reduces.not_shifts {n : Nat} (h : Reduces t c look n c') : ¬ Shifts t c look := by
  rintro ⟨s, hs⟩
  cases h with
  | mk haction =>
    rw [haction] at hs
    cases hs

theorem goTo_eq_next {n : Nat} {rule : Rule} (h : goTo t c look n rule = .next c' look') :
    ∃ below target, below? rule.size.toNat c.frames = some below ∧
      t.gotoOf (topState below) rule.lhs = .ok (some target) ∧ look' = look ∧
      c' = (({ c with frames := ⟨rule.lhs, target⟩ :: below } : Config σ).record
        (.reduced n)).recordStack := by
  unfold goTo at h
  split at h
  · cases h
  · next below hbelow =>
    split at h
    · cases h
    · cases h
    · next target hgoto =>
      cases h
      exact ⟨below, target, hbelow, hgoto, rfl, rfl⟩

theorem reduce_eq_next {n : Nat}
    (haction : t.actionOf c.state look.kind.symbol = .ok (.reduce n))
    (h : reduce t c look n = .next c' look') : look' = look ∧ Reduces t c look n c' := by
  unfold reduce at h
  split at h
  · cases h
  · next rule hrule =>
    split at h
    · cases h
    · next fragments hbuild =>
      obtain ⟨below, target, hbelow, hgoto, rfl, rfl⟩ := goTo_eq_next h
      exact ⟨rfl, .mk haction hrule hbuild hbelow hgoto⟩

theorem reduce_eq_halt {n : Nat} (h : reduce t c look n = .halt o) :
    ∃ e, o.verdict = .failed e := by
  unfold reduce goTo at h
  split at h
  · cases h
    exact ⟨_, rfl⟩
  · split at h
    · cases h
      exact ⟨_, rfl⟩
    · split at h
      · cases h
        exact ⟨_, rfl⟩
      · split at h <;> cases h
        all_goals exact ⟨_, rfl⟩

/-- A reduction that fails refuses no token. -/
theorem reduce_ne_unexpected {n s : Nat} {xs : List String} (h : reduce t c look n = .halt o) :
    o.verdict ≠ .failed (.unexpected look' s xs) := by
  unfold reduce goTo at h
  split at h
  · cases h
    nofun
  · split at h
    · cases h
      nofun
    · split at h
      · cases h
        nofun
      · split at h <;> cases h
        all_goals nofun

/-- A rule that is used is recorded, even if the reduction fails after that. -/
theorem length_applied_le_reduce (t : Table) (c : Config σ) (look : Token) (n : Nat) :
    c.applied.length ≤ (reduce t c look n).config.applied.length := by
  unfold reduce
  split
  · exact Nat.le_refl _
  · next rule _ =>
    split
    · exact Nat.le_refl _
    · have hgoTo : ∀ c : Config σ, (goTo t c look n rule).config.applied = c.applied := by
        intro c
        unfold goTo
        split
        · rfl
        · split <;> rfl
      rw [hgoTo]
      exact Nat.le_succ _

/-! ### Shifts -/

variable [TokenSource σ]

/-- The leaf of a token that is taken goes onto the fragments. -/
theorem pull_eq_ok (h : c.pull = (.ok look, c')) :
    ∃ us, look.leaves = .ok us ∧ c'.fragments = us ++ c.fragments ∧ c'.applied = c.applied := by
  rw [pull_eq] at h
  split at h
  · cases h
  · split at h
    · cases h
    · next us hleaves =>
      cases h
      exact ⟨us, hleaves, rfl, rfl⟩

/-- What fails while a token is taken is the source, or the leaf of the integer that it answers. -/
theorem pull_eq_error {e : Failure} (h : c.pull = (.error e, c')) :
    (∃ scan, e = .scan scan) ∨ ∃ t leaf, e = .badLeaf t leaf ∧ t.kind = .integer ∧
      (TokenSource.next c.source).1 = .ok (some t) := by
  rw [pull_eq] at h
  split at h
  · cases h
    exact .inl ⟨_, rfl⟩
  · next t hlook =>
    split at h
    · next leaf hleaves =>
      cases h
      have hk : t.kind = .integer := (Token.leaves_eq_error_iff.1 hleaves).1
      refine .inr ⟨t, leaf, rfl, hk, ?_⟩
      obtain ⟨a, ha, rfl⟩ := Except.map_eq_ok_iff.1 hlook
      cases a with
      | none => cases hk
      | some t => exact ha
    · cases h

theorem pull_ne_unexpected {e : Failure} {s : Nat} {xs : List String}
    (h : c.pull = (.error e, c')) : e ≠ .unexpected look s xs := by
  obtain ⟨_, rfl⟩ | ⟨_, _, rfl, -⟩ := pull_eq_error h <;> nofun

theorem pull_applied (c : Config σ) : c.pull.2.applied = c.applied := by
  rw [pull_eq]
  split
  · rfl
  · split <;> rfl

theorem pull_frames (c : Config σ) : c.pull.2.frames = c.frames := by
  rw [pull_eq]
  split
  · rfl
  · split <;> rfl

theorem pull_history (c : Config σ) : c.pull.2.history = c.history := by
  rw [pull_eq]
  split
  · rfl
  · split <;> rfl

/-- A shift puts the token and its state onto the frames. -/
theorem frames_eq_of_shift {s : Nat} (h : c.shift look s = .next c' look') :
    c'.frames = ⟨look.kind.symbol, s⟩ :: c.frames := by
  have hpull := pull_frames { c with frames := ⟨look.kind.symbol, s⟩ :: c.frames }
  unfold shift at h
  split at h
  · next heq =>
    rw [heq] at hpull
    cases h
    exact hpull
  · cases h

theorem shift_eq_next {s : Nat} (h : c.shift look s = .next c' look') :
    ∃ us, look'.leaves = .ok us ∧ c'.fragments = us ++ c.fragments ∧ c'.applied = c.applied := by
  unfold shift at h
  split at h
  · next hpull =>
    cases h
    obtain ⟨us, hus, hfragments, happlied⟩ := pull_eq_ok hpull
    exact ⟨us, hus, hfragments, happlied⟩
  · cases h

theorem shift_eq_halt {s : Nat} (h : c.shift look s = .halt o) :
    ∃ e, o.verdict = .failed e := by
  unfold shift at h
  split at h
  · cases h
  · cases h
    exact ⟨_, rfl⟩

theorem shift_ne_unexpected {s s' : Nat} {xs : List String} (h : c.shift look s = .halt o) :
    o.verdict ≠ .failed (.unexpected look' s' xs) := by
  unfold shift at h
  split at h
  · cases h
  · next hpull =>
    cases h
    exact fun hv => pull_ne_unexpected hpull (Verdict.failed.inj hv)

theorem shift_applied (c : Config σ) (look : Token) (s : Nat) :
    (c.shift look s).config.applied = c.applied := by
  have hpull := pull_applied { c with frames := ⟨look.kind.symbol, s⟩ :: c.frames }
  unfold shift
  split <;> next heq => rw [heq] at hpull; exact hpull

theorem launch_ne_unexpected {source : σ} {s : Nat} {xs : List String}
    (h : launch source = .halt o) : o.verdict ≠ .failed (.unexpected look s xs) := by
  unfold launch at h
  split at h
  · cases h
  · next hpull =>
    cases h
    exact fun hv => pull_ne_unexpected hpull (Verdict.failed.inj hv)

theorem frames_eq_of_launch {source : σ} (h : launch source = .next c look) : c.frames = [] := by
  have hpull := pull_frames (initial source).recordStack
  unfold launch at h
  split at h
  · next heq =>
    rw [heq] at hpull
    cases h
    exact hpull
  · cases h

theorem launch_eq_next {source : σ} (h : launch source = .next c look) :
    ∃ us, look.leaves = .ok us ∧ c.fragments = us ∧ c.applied = [] := by
  unfold launch at h
  split at h
  · next hpull =>
    cases h
    obtain ⟨us, hus, hfragments, happlied⟩ := pull_eq_ok hpull
    exact ⟨us, hus, hfragments.trans (List.append_nil us), happlied⟩
  · cases h

/-! ### Steps -/

/-- **Steps that go on**: the token is shifted, or it stays and a rule is used. -/
theorem step_eq_next (h : step t c look = .next c' look') :
    (∃ s, t.actionOf c.state look.kind.symbol = .ok (.shift s) ∧
      c.shift look s = .next c' look') ∨
    look' = look ∧ ∃ n, Reduces t c look n c' := by
  unfold step at h
  split at h
  · cases h
  · next s ha => exact .inl ⟨s, ha, h⟩
  · next n ha =>
    obtain ⟨hlook, hred⟩ := reduce_eq_next ha h
    exact .inr ⟨hlook, n, hred⟩
  · unfold accept at h
    split at h
    · split at h <;> cases h
    · cases h
  · cases h

theorem Reduces.step_eq {n : Nat} (h : Reduces t c look n c') :
    step t c look = .next c' look := by
  cases h with
  | mk haction hrule hbuild hbelow hgoto =>
    simp only [step, haction, reduce, hrule, hbuild, goTo, hbelow, hgoto]

/-- **Accepting** is an action of the table. -/
theorem actionOf_of_accepted {root : Node} (h : step t c look = .halt o)
    (hv : o.verdict = .accepted root) :
    t.actionOf c.state look.kind.symbol = .ok .accept := by
  have hfailed : ¬ ∃ e, o.verdict = .failed e := by
    rintro ⟨e, he⟩
    rw [hv] at he
    cases he
  unfold step at h
  split at h
  · cases h
    exact absurd ⟨_, rfl⟩ hfailed
  · exact absurd (shift_eq_halt h) hfailed
  · exact absurd (reduce_eq_halt h) hfailed
  · assumption
  · cases h
    exact absurd ⟨_, rfl⟩ hfailed

theorem step_of_accept {root : Node}
    (haction : t.actionOf c.state look.kind.symbol = .ok .accept)
    (hend : look.kind = .endOfInput) (hfragments : c.fragments = [root]) :
    step t c look = .halt ⟨.accepted root, c⟩ := by
  simp only [step, haction]
  simp only [accept, hend, if_true, hfragments]

/-- **The step that accepts**: the input is over, and one tree is left. -/
theorem step_eq_accepted {root : Node} (h : step t c look = .halt o)
    (hv : o.verdict = .accepted root) :
    ¬ Shifts t c look ∧ look.kind = .endOfInput ∧ c.fragments = [root] ∧ o.config = c := by
  have haction := actionOf_of_accepted h hv
  have hshifts : ¬ Shifts t c look := by
    rintro ⟨s, hs⟩
    rw [haction] at hs
    cases hs
  simp only [step, haction] at h
  unfold accept at h
  split at h
  · next hk =>
    split at h
    · next hfragments =>
      cases h
      cases hv
      exact ⟨hshifts, hk, hfragments, rfl⟩
    · cases h
      cases hv
  · cases h
    cases hv

/-- The rules applied stay applied. -/
theorem length_applied_le_of_step {s : Step σ} (h : step t c look = s) :
    c.applied.length ≤ s.config.applied.length := by
  subst h
  unfold step
  split
  · exact Nat.le_refl _
  · exact Nat.le_of_eq (congrArg List.length (shift_applied ..)).symm
  · exact length_applied_le_reduce ..
  · unfold accept
    split
    · split <;> exact Nat.le_refl _
    · exact Nat.le_refl _
  · exact Nat.le_refl _

end Config

/-! ### Runs -/

section Runs

variable [TokenSource σ] {t : Table} {source : σ} {k n : Nat} {c : Config σ} {look : Token}
  {o : Outcome σ}

/-- **Steps are counted** by the tokens shifted and the rules applied: after so many steps the
run goes on from where it is. -/
theorem Launched.run_eq (h : Launched t source k c look) :
    ∃ c₀ look₀, Config.launch source = .next c₀ look₀ ∧
      ∀ m, Config.run t (k + c.applied.length + m) c₀ look₀ = Config.run t m c look := by
  induction h with
  | first h =>
    obtain ⟨-, -, -, happlied⟩ := Config.launch_eq_next h
    refine ⟨_, _, h, fun m => ?_⟩
    rw [happlied, List.length_nil, Nat.add_zero, Nat.zero_add]
  | @shift k c c' _ _ _ hshifts hstep ih =>
    obtain ⟨c₀, look₀, hlaunch, hrun⟩ := ih
    have happlied : c'.applied = c.applied := by
      rcases Config.step_eq_next hstep with ⟨s, -, hs⟩ | ⟨-, n, hred⟩
      · obtain ⟨-, -, -, happlied⟩ := Config.shift_eq_next hs
        exact happlied
      · exact absurd hshifts hred.not_shifts
    refine ⟨c₀, look₀, hlaunch, fun m => ?_⟩
    have hone : k + 1 + c'.applied.length + m = k + c.applied.length + (m + 1) := by
      rw [happlied]
      omega
    rw [hone, hrun, Config.run, hstep]
  | @stay k c c' _ _ _ hshifts hstep ih =>
    obtain ⟨c₀, look₀, hlaunch, hrun⟩ := ih
    have happlied : c'.applied.length = c.applied.length + 1 := by
      rcases Config.step_eq_next hstep with ⟨s, ha, -⟩ | ⟨-, n, hred⟩
      · exact absurd ⟨s, ha⟩ hshifts
      · rw [hred.applied_eq, List.length_cons]
    refine ⟨c₀, look₀, hlaunch, fun m => ?_⟩
    have hone : k + c'.applied.length + m = k + c.applied.length + (m + 1) := by omega
    rw [hone, hrun, Config.run, hstep]

/-- A place of a run is its first one, or a step leads there from the place before. -/
theorem Launched.exists_before (h : Launched t source k c look) :
    (Config.launch source = .next c look ∧ k + c.applied.length = 0) ∨
      ∃ k₀ c₀ look₀, Launched t source k₀ c₀ look₀ ∧ Config.step t c₀ look₀ = .next c look ∧
        k + c.applied.length = k₀ + c₀.applied.length + 1 := by
  cases h with
  | first h =>
    obtain ⟨-, -, -, happlied⟩ := Config.launch_eq_next h
    exact .inl ⟨h, by rw [happlied, List.length_nil]⟩
  | @shift k₀ c₀ _ look₀ _ h hshifts hstep =>
    refine .inr ⟨k₀, c₀, look₀, h, hstep, ?_⟩
    rcases Config.step_eq_next hstep with ⟨s, -, hs⟩ | ⟨-, n, hred⟩
    · obtain ⟨-, -, -, happlied⟩ := Config.shift_eq_next hs
      rw [happlied]
      omega
    · exact absurd hshifts hred.not_shifts
  | @stay _ c₀ _ look₀ _ h hshifts hstep =>
    refine .inr ⟨k, c₀, look₀, h, hstep, ?_⟩
    rcases Config.step_eq_next hstep with ⟨s, ha, -⟩ | ⟨-, n, hred⟩
    · exact absurd ⟨s, ha⟩ hshifts
    · rw [hred.applied_eq, List.length_cons]
      omega

/-- After a number of steps a run is at one place. -/
theorem Launched.unique {k' : Nat} {c' : Config σ} {look' : Token}
    (h : Launched t source k c look) (h' : Launched t source k' c' look')
    (hsteps : k + c.applied.length = k' + c'.applied.length) :
    k = k' ∧ c = c' ∧ look = look' := by
  suffices hplace : c = c' ∧ look = look' by
    obtain ⟨rfl, hlook⟩ := hplace
    exact ⟨Nat.add_right_cancel hsteps, rfl, hlook⟩
  induction hn : k + c.applied.length generalizing k k' c c' look look' with
  | zero =>
    rcases h.exists_before with ⟨hl, -⟩ | ⟨_, _, _, -, -, hsucc⟩
    · rcases h'.exists_before with ⟨hl', -⟩ | ⟨_, _, _, -, -, hsucc⟩
      · rw [hl] at hl'
        cases hl'
        exact ⟨rfl, rfl⟩
      · omega
    · omega
  | succ n ih =>
    rcases h.exists_before with ⟨-, hzero⟩ | ⟨k₀, c₀, look₀, h₀, hstep, hsucc⟩
    · omega
    rcases h'.exists_before with ⟨-, hzero⟩ | ⟨k₁, c₁, look₁, h₁, hstep', hsucc'⟩
    · omega
    obtain ⟨rfl, rfl⟩ := ih h₀ h₁ (by omega) (by omega)
    rw [hstep] at hstep'
    cases hstep'
    exact ⟨rfl, rfl⟩

theorem Launched.derive?_of_halt (h : Launched t source k c look)
    (hstep : Config.step t c look = .halt o)
    (hbudget : k + c.applied.length + 1 ≤ Table.budget source) :
    t.derive? source = some o := by
  obtain ⟨c₀, look₀, hlaunch, hrun⟩ := h.run_eq
  have hone : Config.run t (k + c.applied.length + 1) c₀ look₀ = some o := by
    rw [hrun, Config.run, hstep]
  rw [Table.derive?, hlaunch]
  exact Config.run_mono hone hbudget

/-- **In time**: the budget of a run is enough for its end if the answers taken and the rules
applied are within it. -/
theorem Ends.derive?_of_le (h : Ends t source n o)
    (hbudget : n + o.config.applied.length ≤ Table.budget source) :
    t.derive? source = some o := by
  cases h with
  | first h => rw [Table.derive?, h]
  | @shift _ c _ _ h _ hstep =>
    have hle : c.applied.length ≤ o.config.applied.length :=
      Config.length_applied_le_of_step hstep
    exact h.derive?_of_halt hstep (by omega)
  | @stay _ c _ _ h _ hstep =>
    have hle : c.applied.length ≤ o.config.applied.length :=
      Config.length_applied_le_of_step hstep
    exact h.derive?_of_halt hstep (by omega)

/-- A run does not go on from where it halts. -/
theorem Launched.steps_le_of_halt {k' : Nat} {c' : Config σ} {look' : Token}
    (h : Launched t source k c look) (h' : Launched t source k' c' look')
    (hhalt : Config.step t c' look' = .halt o) :
    k + c.applied.length ≤ k' + c'.applied.length := by
  obtain ⟨c₀, look₀, hl, hrun⟩ := h.run_eq
  obtain ⟨c₁, look₁, hl', hrun'⟩ := h'.run_eq
  rw [hl] at hl'
  cases hl'
  refine Nat.le_of_not_lt fun hlt => ?_
  -- otherwise the run would have halted before it came to `c`
  have hsome : Config.run t (k' + c'.applied.length + 1) c₀ look₀ = some o := by
    rw [hrun', Config.run, hhalt]
  have hnone : Config.run t (k + c.applied.length + 0) c₀ look₀ = none := by
    rw [hrun, Config.run]
  rw [Config.run_mono hsome (by omega)] at hnone
  cases hnone

/-- A run ends at its launch, or where it halts. -/
theorem Ends.exists_halt (h : Ends t source n o) :
    (Config.launch source = .halt o ∧ n = 1) ∨
      ∃ k c look, Launched t source k c look ∧ Config.step t c look = .halt o ∧
        (Config.Shifts t c look → n = k + 2) ∧ (¬ Config.Shifts t c look → n = k + 1) := by
  cases h with
  | first h => exact .inl ⟨h, rfl⟩
  | shift h hs hstep => exact .inr ⟨_, _, _, h, hstep, fun _ => rfl, fun hnot => absurd hs hnot⟩
  | stay h hs hstep => exact .inr ⟨_, _, _, h, hstep, fun hs' => absurd hs' hs, fun _ => rfl⟩

/-- **One end**: a run comes to one end, and takes one number of answers. -/
theorem Ends.unique {n' : Nat} {o' : Outcome σ} (h : Ends t source n o)
    (h' : Ends t source n' o') : n = n' ∧ o = o' := by
  refine ⟨?_, (haltsWith_iff_ends.2 ⟨n, h⟩).unique (haltsWith_iff_ends.2 ⟨n', h'⟩)⟩
  -- a run that is launched does not end at its launch
  have hlaunched : ∀ {k : Nat} {c : Config σ} {look : Token} {o : Outcome σ},
      Launched t source k c look → Config.launch source ≠ .halt o := by
    intro k c look o hc hl
    obtain ⟨_, _, hl', -⟩ := hc.exists_reaches
    rw [hl] at hl'
    cases hl'
  rcases h.exists_halt with ⟨hl, rfl⟩ | ⟨k, c, look, hc, hhalt, hshift, hstay⟩
  · rcases h'.exists_halt with ⟨-, rfl⟩ | ⟨_, _, _, hc, -⟩
    · rfl
    · exact absurd hl (hlaunched hc)
  · rcases h'.exists_halt with ⟨hl, -⟩ | ⟨k', c', look', hc', hhalt', hshift', hstay'⟩
    · exact absurd hl (hlaunched hc)
    · obtain ⟨rfl, rfl, rfl⟩ := hc.unique hc' (Nat.le_antisymm (hc.steps_le_of_halt hc' hhalt')
        (hc'.steps_le_of_halt hc hhalt))
      by_cases hs : Config.Shifts t c look
      · rw [hshift hs, hshift' hs]
      · rw [hstay hs, hstay' hs]

/-- A run that accepts has come to a place where one tree is left and the input is over. -/
theorem Ends.exists_launched (h : Ends t source n o) {root : Node}
    (hv : o.verdict = .accepted root) :
    ∃ k look, n = k + 1 ∧ Launched t source k o.config look ∧ look.kind = .endOfInput ∧
      o.config.fragments = [root] := by
  cases h with
  | first h =>
    unfold Config.launch at h
    split at h <;> cases h
    cases hv
  | shift h hshifts hstep =>
    obtain ⟨hnot, -⟩ := Config.step_eq_accepted hstep hv
    exact absurd hshifts hnot
  | stay h _ hstep =>
    obtain ⟨-, hk, hfragments, hconfig⟩ := Config.step_eq_accepted hstep hv
    rw [hconfig]
    exact ⟨_, _, rfl, h, hk, hfragments⟩

end Runs

end CatAndMouse
