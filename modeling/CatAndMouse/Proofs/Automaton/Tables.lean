import CatAndMouse.Proofs.Automaton.Stack
import CatAndMouse.Proofs.Language

/-!
# Runs under two tables

What steps do under two tables carries over to runs (`Table.Imitates`): over any source, as long as
a run goes on under the first it goes on in the same way under the second, so both come to the
same place.

Two tables are compared in this way. Tables that agree but for the order of their columns end alike,
and where a token is refused the terminals that are allowed come in another order
(`Table.Agrees.haltsWith`). A table with more entries accepts whatever a table accepts, in the same
way: a run that accepts meets no error cell, so it does not matter what stands there
(`accepted_of_extends`).
-/

namespace CatAndMouse

open Config

variable {σ : Type} {t t' : Table}

/-! ### From steps to runs -/

section Runs

variable [TokenSource σ]

/-- `t'.Imitates t P R`: where the table `t` goes on, `t'` does the same. Where `t` ends in a way
that `P` admits, `t'` ends too, and `R` relates the two ends. -/
structure Table.Imitates (t' t : Table) (P : Outcome σ → Prop)
    (R : Outcome σ → Outcome σ → Prop) : Prop where
  launch : ∀ {source : σ} {o}, Config.launch source = .halt o → P o → R o o
  next : ∀ {c c' : Config σ} {look look'}, step t c look = .next c' look' →
    step t' c look = .next c' look'
  halt : ∀ {c : Config σ} {look o}, step t c look = .halt o → P o →
    ∃ o', step t' c look = .halt o' ∧ R o o'

namespace Table.Imitates

variable {P : Outcome σ → Prop} {R : Outcome σ → Outcome σ → Prop} {source : σ} {o : Outcome σ}

theorem run (h : t'.Imitates t P R) {n : Nat} {c : Config σ} {look : Token}
    (ho : Config.run t n c look = some o) (hP : P o) :
    ∃ o', Config.run t' n c look = some o' ∧ R o o' := by
  induction n generalizing c look with
  | zero => cases ho
  | succ n ih =>
    rw [Config.run] at ho
    split at ho
    · next c₁ look₁ hstep =>
      rw [Config.run, h.next hstep]
      exact ih ho
    · next o₁ hstep =>
      cases ho
      obtain ⟨o', hstep', hR⟩ := h.halt hstep hP
      exact ⟨o', by rw [Config.run, hstep'], hR⟩

/-- A run that comes to an end does so under both tables. -/
theorem haltsWith (h : t'.Imitates t P R) (ho : t.HaltsWith source o) (hP : P o) :
    ∃ o', t'.HaltsWith source o' ∧ R o o' := by
  unfold HaltsWith at ho ⊢
  cases hl : (Config.launch source : Step σ) with
  | next c look =>
    rw [hl] at ho
    obtain ⟨n, hn⟩ := ho
    obtain ⟨o', hn', hR⟩ := h.run hn hP
    exact ⟨o', ⟨n, hn'⟩, hR⟩
  | halt o₁ =>
    rw [hl] at ho
    subst ho
    exact ⟨o, rfl, h.launch hl hP⟩

/-- A run that comes to an end in time does so under both tables. -/
theorem derive? (h : t'.Imitates t P R) (ho : t.derive? source = some o) (hP : P o) :
    ∃ o', t'.derive? source = some o' ∧ R o o' := by
  unfold Table.derive? at ho ⊢
  cases hl : (Config.launch source : Step σ) with
  | next c look =>
    rw [hl] at ho
    exact h.run ho hP
  | halt o₁ =>
    rw [hl] at ho
    cases ho
    exact ⟨o, rfl, h.launch hl hP⟩

end Table.Imitates

end Runs

/-! ### Tables that agree -/

/-- `t'.Agrees t`: for every state and symbol and for every number of a rule, `t'` has what `t` has,
though perhaps in columns of another order. -/
structure Table.Agrees (t' t : Table) : Prop where
  action : ∀ (s : Int) x, t'.actionOf s x = t.actionOf s x
  goto : ∀ (s : Int) x, t'.gotoOf s x = t.gotoOf s x
  rule : ∀ n : Int, t'.rule n = t.rule n
  expected : ∀ s : Int, (t'.expected s).Perm (t.expected s)

/-- Expected terminals come in the order of the columns. -/
theorem Table.expected_sublist (t : Table) (s : Int) :
    (t.expected s).Sublist t.symbols.terminals := by
  have hrow : ((t.actionRow s).map Prod.fst).Sublist t.symbols.terminals := by
    cases s with
    | ofNat s =>
      rw [actionRow, List.zip_eq_zip_take_min, List.map_fst_zip (by simp)]
      exact List.take_sublist ..
    | negSucc s => exact List.nil_sublist _
  exact (List.filter_sublist.map _).trans hrow

/-- `Verdict.Reordered header v v'`: the verdicts are the same, but that in `v'` the terminals which
a state allows come in the order of the header. -/
inductive Verdict.Reordered (header : List String) : Verdict → Verdict → Prop where
  | unexpected {look : Token} {s : Nat} {xs ys : List String} (hperm : ys.Perm xs)
      (horder : ys.Sublist header) :
      Reordered header (.failed (.unexpected look s xs)) (.failed (.unexpected look s ys))
  | other {v : Verdict} (hv : ∀ look s xs, v ≠ .failed (.unexpected look s xs)) :
      Reordered header v v

/-- `Outcome.Reordered header o o'`: the verdicts are the same up to the order of terminals, and all
else is the same. -/
structure Outcome.Reordered (header : List String) (o o' : Outcome σ) : Prop where
  verdict : o.verdict.Reordered header o'.verdict
  config : o'.config = o.config

namespace Table.Agrees

theorem symm (h : t'.Agrees t) : t.Agrees t' :=
  ⟨fun s x => (h.action s x).symm, fun s x => (h.goto s x).symm, fun n => (h.rule n).symm,
    fun s => (h.expected s).symm⟩

theorem reduce_eq (h : t'.Agrees t) (c : Config σ) (look : Token) (n : Nat) :
    Config.reduce t' c look n = Config.reduce t c look n := by
  simp only [Config.reduce, goTo, h.rule, h.goto]

variable [TokenSource σ]

/-- **One step**: tables that agree do the same, or both refuse the token. -/
theorem step_eq (h : t'.Agrees t) (c : Config σ) (look : Token) :
    (step t' c look = step t c look ∧ ∀ o, step t c look = .halt o →
      ∀ look' s xs, o.verdict ≠ .failed (.unexpected look' s xs)) ∨
    ∃ c', step t c look = unexpected t c' look ∧ step t' c look = unexpected t' c' look := by
  unfold step
  rw [h.action]
  cases haction : t.actionOf c.state look.kind.symbol with
  | error e =>
    refine .inl ⟨rfl, ?_⟩
    rintro o ⟨⟩ _ _ _ ⟨⟩
  | ok a =>
    cases a with
    | shift s => exact .inl ⟨rfl, fun o ho _ _ _ => shift_ne_unexpected ho⟩
    | reduce n => exact .inl ⟨h.reduce_eq c look n, fun o ho _ _ _ => reduce_ne_unexpected ho⟩
    | error => exact .inr ⟨c.recordStack, rfl, rfl⟩
    | accept =>
      simp only [accept]
      split
      · refine .inl ⟨rfl, fun o ho _ _ _ hv => ?_⟩
        split at ho <;> cases ho <;> cases hv
      · exact .inr ⟨c, rfl, rfl⟩

theorem imitates (h : t'.Agrees t) :
    t'.Imitates t (fun _ : Outcome σ => True) (Outcome.Reordered t'.symbols.terminals) where
  launch hl _ := ⟨.other fun _ _ _ => launch_ne_unexpected hl, rfl⟩
  next := by
    intro c c' look look' hstep
    rcases h.step_eq c look with ⟨heq, -⟩ | ⟨c'', hrefused, -⟩
    · rw [heq, hstep]
    · rw [hrefused] at hstep
      cases hstep
  halt := by
    intro c look o hstep _
    rcases h.step_eq c look with ⟨heq, hother⟩ | ⟨c', hrefused, hrefused'⟩
    · exact ⟨o, heq.trans hstep, .other (hother o hstep), rfl⟩
    · rw [hrefused] at hstep
      cases hstep
      exact ⟨_, hrefused', .unexpected (h.expected _) (t'.expected_sublist _), rfl⟩

variable {source : σ} {o o' : Outcome σ}

/-- **Tables that agree end alike.** -/
theorem haltsWith (h : t'.Agrees t) (ho : t.HaltsWith source o) :
    ∃ o', t'.HaltsWith source o' ∧ o.Reordered t'.symbols.terminals o' :=
  h.imitates.haltsWith ho trivial

/-- No table ends alone. -/
theorem haltsWith' (h : t'.Agrees t) (ho' : t'.HaltsWith source o') :
    ∃ o, t.HaltsWith source o ∧ o.Reordered t'.symbols.terminals o' := by
  obtain ⟨o, ho, -⟩ := h.symm.haltsWith ho'
  obtain ⟨o'', ho'', hR⟩ := h.haltsWith ho
  exact ⟨o, ho, ho''.unique ho' ▸ hR⟩

/-- They are in time for the same ends. -/
theorem derive?_rel (h : t'.Agrees t) (source : σ) :
    Option.Rel (Outcome.Reordered t'.symbols.terminals) (t.derive? source) (t'.derive? source) := by
  cases ho : t.derive? source with
  | some o =>
    obtain ⟨o', ho', hR⟩ := h.imitates.derive? ho trivial
    rw [ho']
    exact .some hR
  | none =>
    cases ho' : t'.derive? source with
    | none => exact .none
    | some o' =>
      obtain ⟨o, ho'', -⟩ := h.symm.imitates.derive? ho' trivial
      rw [ho] at ho''
      cases ho''

end Table.Agrees

/-! ### Tables with more entries -/

/-- `t'.Extends t`: every action of `t` that is no error, every target and every rule of `t` is also
in `t'`. -/
structure Table.Extends (t' t : Table) : Prop where
  action : ∀ {s : Nat} {x a}, t.actionOf s x = .ok a → a ≠ .error → t'.actionOf s x = .ok a
  goto : ∀ {s n : Nat} {x}, t.gotoOf s x = .ok (some n) → t'.gotoOf s x = .ok (some n)
  rule : ∀ {n : Int} {r}, t.rule n = .ok r → t'.rule n = .ok r

namespace Table.Extends

theorem trans {t'' : Table} (h : t'.Extends t) (h' : t''.Extends t') : t''.Extends t :=
  ⟨fun ha hne => h'.action (h.action ha hne) hne, fun hn => h'.goto (h.goto hn),
    fun hr => h'.rule (h.rule hr)⟩

theorem reduces {c c' : Config σ} {look : Token} {n : Nat} (h : t'.Extends t)
    (hred : Reduces t c look n c') : Reduces t' c look n c' := by
  cases hred with
  | mk haction hrule hbuild hbelow hgoto =>
    exact .mk (h.action haction (by simp)) (h.rule hrule) hbuild hbelow (h.goto hgoto)

/-- **One step**: where a table goes on or accepts it has an entry, and the larger table has the
same entry. -/
theorem imitates [TokenSource σ] (h : t'.Extends t) :
    t'.Imitates t (fun o : Outcome σ => ∃ root, o.verdict = .accepted root) Eq where
  launch _ _ := rfl
  next := by
    intro c c' look look' hstep
    rcases step_eq_next hstep with ⟨s, haction, hshift⟩ | ⟨rfl, n, hred⟩
    · simp only [step, h.action haction (by simp), hshift]
    · exact (h.reduces hred).step_eq
  halt := by
    rintro c look ⟨verdict, c'⟩ hstep ⟨root, hv⟩
    obtain ⟨-, hend, hfragments, hconfig⟩ := step_eq_accepted hstep hv
    have haction := h.action (actionOf_of_accepted hstep hv) (by simp)
    obtain rfl : verdict = .accepted root := hv
    obtain rfl : c' = c := hconfig
    exact ⟨_, step_of_accept haction hend hfragments, rfl⟩

end Table.Extends

namespace Table

theorem columnOf_congr (h : t'.symbols = t.symbols) (x : String) :
    t'.columnOf x = t.columnOf x := by
  rw [columnOf, columnOf, h]

/-- The same symbols, the cells that are filled and the rules are enough. -/
theorem extends_of_cells (hsymbols : t'.symbols = t.symbols)
    (hactions : ∀ (s col : Nat) a, cellAt? t.actions s col = some a → a ≠ .error →
      cellAt? t'.actions s col = some a)
    (hgotos : ∀ s col n : Nat, cellAt? t.gotos s col = some (some n) →
      cellAt? t'.gotos s col = some (some n))
    (hrules : ∀ n r, t.rules.lookup n = some r → t'.rules.lookup n = some r) :
    t'.Extends t where
  action := by
    intro s x a h hne
    obtain ⟨col, hcol, hcell⟩ := Except.map_eq_ok_iff.1 h
    have hsome : cellAt? t.actions s col = some a := by
      cases hc : cellAt? t.actions s col with
      | none =>
        rw [hc] at hcell
        exact absurd hcell.symm hne
      | some b =>
        rw [hc] at hcell
        exact congrArg some hcell
    rw [actionOf, columnOf_congr hsymbols, hcol, Except.map, hactions s col a hsome hne]
    rfl
  goto := by
    intro s n x h
    obtain ⟨col, hcol, htarget⟩ := Except.map_eq_ok_iff.1 h
    split at htarget
    · cases htarget
    · next hle =>
      rw [gotoOf, columnOf_congr hsymbols, hcol, Except.map, hsymbols, if_neg hle,
        hgotos _ _ _ (Option.join_eq_some_iff.1 htarget)]
      rfl
  rule hr := rule_eq_ok_iff.2 (hrules _ _ (rule_eq_ok_iff.1 hr))

/-- The table with another action in a cell. -/
def withAction (t : Table) (s col : Nat) (a : Action) : Table :=
  { t with actions := t.actions.modify s (·.set col a) }

/-- An error cell can be filled with any action. -/
theorem extends_withAction {s col : Nat} (h : cellAt? t.actions s col = some .error)
    (a : Action) : (t.withAction s col a).Extends t := by
  refine extends_of_cells rfl (fun s' col' b hb hne => ?_) (fun _ _ _ h => h) fun _ _ h => h
  -- the cell that is filled is another one
  have hother : s = s' → col ≠ col' := by
    rintro rfl rfl
    rw [hb] at h
    exact hne (Option.some.inj h)
  obtain ⟨row, hrow, hcell⟩ := Option.bind_eq_some_iff.1 hb
  rw [cellAt?_natCast]
  show ((t.actions.modify s _)[s']?).bind _ = _
  rw [List.getElem?_modify, hrow]
  by_cases hs : s = s'
  · simp [hs, List.getElem?_set_ne (hother hs), hcell]
  · simp [hs, hcell]

end Table

/-- **Filling error cells changes no accepted program.** Let a table have the same entries as
another, and any others. If a run over a source accepts under the smaller table, then it comes to
the same end under the larger one, and to no other: the same tree, the same rules, the same tokens
taken. It also comes there in the same time. This holds from any configuration on, so it does not
matter in which state the run begins. -/
theorem accepted_of_extends [TokenSource σ] (h : t'.Extends t) :
    (∀ (source : σ) o root, t.HaltsWith source o → o.verdict = .accepted root →
      (∀ o', t'.HaltsWith source o' ↔ o' = o) ∧
        (t.derive? source = some o → t'.derive? source = some o)) ∧
    ∀ n (c : Config σ) look o root, Config.run t n c look = some o → o.verdict = .accepted root →
      Config.run t' n c look = some o := by
  constructor
  · intro source o root ho hv
    obtain ⟨o₁, ho₁, rfl⟩ := h.imitates.haltsWith ho ⟨root, hv⟩
    refine ⟨fun o' => ⟨fun ho' => ho'.unique ho₁, ?_⟩, fun hderive => ?_⟩
    · rintro rfl
      exact ho₁
    · obtain ⟨o', ho', rfl⟩ := h.imitates.derive? hderive ⟨root, hv⟩
      exact ho'
  · intro n c look o root ho hv
    obtain ⟨o', ho', rfl⟩ := h.imitates.run ho ⟨root, hv⟩
    exact ho'

/-- The standard table, but that two of its cells take another `halt` for the end of the input. -/
def eagerTable : Table :=
  (Table.standard.withAction 1 (Kind.all.idxOf .halt) .accept).withAction 14
    (Kind.all.idxOf .halt) (.reduce 1)

theorem accepted_of_extends_eagerTable :
    eagerTable ≠ Table.standard ∧
    ∃ o root, Table.standard.HaltsWith holeProgram o ∧ o.verdict = .accepted root ∧
      o.rules = [6, 2, 1] ∧ o.config.pulled = 9 ∧
      (∀ o', eagerTable.HaltsWith holeProgram o' ↔ o' = o) ∧
      eagerTable.derive? holeProgram = some o := by
  have hextends : eagerTable.Extends Table.standard :=
    (Table.extends_withAction (by decide) _).trans (Table.extends_withAction (by decide) _)
  have hrun : (Table.standard.derive? holeProgram).map
      (fun o => (o.verdict, o.rules, o.config.pulled)) =
      some (.accepted (.program (.number 0 1) (.number 0 1) (.hole (.number 0 1) (.number 0 1))),
        [6, 2, 1], 9) := by rfl
  obtain ⟨o, ho, htriple⟩ := Option.map_eq_some_iff.1 hrun
  obtain ⟨hv, hrest⟩ := Prod.mk.inj htriple
  obtain ⟨hrules, hpulled⟩ := Prod.mk.inj hrest
  have hhalts := Table.haltsWith_of_derive? ho
  obtain ⟨hends, hderive⟩ := (accepted_of_extends hextends).1 holeProgram o _ hhalts hv
  exact ⟨by decide, o, _, hhalts, hv, hrules, hpulled, hends, hderive ho⟩

end CatAndMouse
