import CatAndMouse.Proofs.Automaton.Path
import CatAndMouse.Proofs.Automaton.Sources

/-!
# Reading with the standard table

The invariant of a run with the standard table, over any list of tokens
(`Reading`): the frames are a path, the tokens shifted so far are read as its
parts by the rules applied so far, and the fragments are the trees of this parse,
under the leaf of the token looked at. A step keeps the invariant or ends the run
(`Reading.step`). Steps are counted by tokens and rules, so every run comes to an
end in time, and `exists_derive?` says which end that can be.
-/

namespace CatAndMouse

namespace Config

/-! ### One step -/

section Step

variable {c : Config (List Token)} {look : Token}

/-- The token that comes next from the source. -/
def ahead (c : Config (List Token)) : Token := c.source.head?.getD (Token.endAt c.line)

theorem place_look (c : Config (List Token)) : c.place.look = .ok c.ahead := by
  unfold Place.look place ahead
  cases c.source <;> rfl

theorem pull_of_leaves {us : List Node} (h : c.ahead.leaves = .ok us) :
    ∃ c', c.pull = (.ok c.ahead, c') ∧ c'.frames = c.frames ∧ c'.applied = c.applied ∧
      c'.fragments = us ++ c.fragments := by
  rw [pull_eq, place_look]
  dsimp only
  rw [h]
  exact ⟨_, rfl, rfl, rfl, rfl⟩

theorem pull_of_error {e : LeafError} (h : c.ahead.leaves = .error e) :
    ∃ c', c.pull = (.error (.badLeaf c.ahead e), c') := by
  rw [pull_eq, place_look]
  dsimp only
  rw [h]
  exact ⟨_, rfl⟩

theorem shift_of_leaves {us : List Node} (h : c.ahead.leaves = .ok us) (look : Token)
    (state : Nat) :
    ∃ c', c.shift look state = .next c' c.ahead ∧
      c'.frames = ⟨look.kind.symbol, state⟩ :: c.frames ∧ c'.applied = c.applied ∧
      c'.fragments = us ++ c.fragments := by
  obtain ⟨c', hpull, hframes, happlied, hfragments⟩ :=
    pull_of_leaves (c := { c with frames := ⟨look.kind.symbol, state⟩ :: c.frames }) h
  refine ⟨c'.recordStack, ?_, hframes, happlied, hfragments⟩
  rw [shift, hpull]
  rfl

theorem shift_of_error {e : LeafError} (h : c.ahead.leaves = .error e) (look : Token)
    (state : Nat) :
    ∃ c', c.shift look state = .halt ⟨.failed (.badLeaf c.ahead e), c'⟩ := by
  obtain ⟨c', hpull⟩ :=
    pull_of_error (c := { c with frames := ⟨look.kind.symbol, state⟩ :: c.frames }) h
  refine ⟨c', ?_⟩
  rw [shift, hpull]
  rfl

/-- What the standard table does in a step. -/
theorem step_standard (c : Config (List Token)) (look : Token) :
    step Table.standard c look =
      match actionAt c.state look.kind with
      | .shift state => c.shift look state
      | .reduce number => reduce Table.standard c look number
      | .accept => accept Table.standard c look
      | .error => unexpected Table.standard c.recordStack look := by
  rw [step, Table.standard_actionOf]
  cases actionAt c.state look.kind <;> rfl

theorem shifts_standard_iff :
    Shifts Table.standard c look ↔ ∃ s, actionAt c.state look.kind = .shift s := by
  rw [Shifts, Table.standard_actionOf]
  simp only [Except.ok.injEq]

theorem not_shifts_of_reduce {n : Nat} (ha : actionAt c.state look.kind = .reduce n) :
    ¬ Shifts Table.standard c look := by
  rw [shifts_standard_iff, ha]
  simp

/-- A reduction by a rule whose parts lie on top of the frames. -/
theorem step_standard_of_reduce {r : PhraseRule} (hr : r ∈ phraseRules)
    {us values : List Node} {v : Node} (hfragments : c.fragments = us.reverse ++ values)
    (hv : Builds r.number us v) {top below : List Frame} (hframes : c.frames = top ++ below)
    (htop : top.length = r.parts.length) (ha : actionAt c.state look.kind = .reduce r.number)
    {target : Nat} (hgoto : gotoAt (topState below) r.phrase = some target) :
    ∃ c', step Table.standard c look = .next c' look ∧
      c'.frames = ⟨r.phrase.symbol, target⟩ :: below ∧ c'.applied = r.number :: c.applied ∧
      c'.fragments = v :: values := by
  have hrule : Table.standard.rule r.number = .ok r.production.rule :=
    Table.standard_rule (mem_standardProductions_iff.2 ⟨r, hr, rfl, rfl⟩)
  have hbelow : below? r.production.rule.size.toNat c.frames = some below := by
    rw [below?_eq_some_iff, hframes, Production.rule, PhraseRule.production, Int.toNat_natCast,
      List.length_map, ← htop]
    exact ⟨by simp, List.drop_left⟩
  have htarget : Table.standard.gotoOf (topState below) r.production.rule.lhs = .ok (some target) :=
    (Table.standard_gotoOf _ r.phrase).trans (by rw [hgoto])
  simp only [step_standard, ha, reduce, hrule, hfragments, hv values, goTo, hbelow, htarget]
  exact ⟨_, rfl, rfl, rfl, rfl⟩

end Step

end Config

/-! ### The invariant -/

/-- The automaton has shifted the first `k` tokens of `ts`. They have been read as the parts
`xs`, the last one first, and have left the trees `values`, the last one first. -/
structure Reading (ts : List Token) (k : Nat) (c : Config (List Token)) (look : Token)
    (xs : List Part) (values : List Node) : Prop where
  launched : Launched Table.standard ts k c look
  le : k ≤ ts.length
  path : Path c.frames xs
  parse : Parses xs.reverse c.applied.reverse (ts.take k) values.reverse
  /-- The leaf of the token looked at lies on top already. -/
  leaves : ∃ us, look.leaves = .ok us ∧ c.fragments = us ++ values

theorem Launched.look_list {t : Table} {ts : List Token} {k : Nat} {c : Config (List Token)}
    {look : Token} (h : Launched t ts k c look) : look = ts[k]?.getD (Token.endAt c.line) := by
  obtain ⟨a, ha, hlook⟩ := h.look_eq
  rw [TokenSource.answer_list] at ha
  cases ha
  exact hlook

theorem Launched.ahead_list {t : Table} {ts : List Token} {k : Nat} {c : Config (List Token)}
    {look : Token} (h : Launched t ts k c look) :
    c.ahead = ts[k + 1]?.getD (Token.endAt c.line) := by
  rw [Config.ahead, h.source_eq, TokenSource.after_list, List.head?_drop]

namespace Reading

variable {ts : List Token} {k : Nat} {c : Config (List Token)} {look : Token} {xs : List Part}
  {values : List Node}

theorem look_eq (h : Reading ts k c look xs values) : look = ts[k]?.getD (Token.endAt c.line) :=
  h.launched.look_list

/-- What has been read is the beginning of a program. -/
theorem viable (h : Reading ts k c look xs values) : ∃ more, ReadsAsProgram (ts.take k ++ more) :=
  h.path.viable h.parse

/-- No more rules have been applied than tokens were shifted. -/
theorem length_applied_le (h : Reading ts k c look xs values) : c.applied.length ≤ k := by
  have hlen := h.parse.length_rules_le
  rw [List.length_reverse, List.length_take] at hlen
  exact Nat.le_trans hlen (Nat.min_le_left ..)

/-- The token that is shifted is one of the list. -/
theorem getElem?_of_shift (h : Reading ts k c look xs values) {s : Nat}
    (ha : actionAt c.state look.kind = .shift s) : ts[k]? = some look := by
  have hlook := h.look_eq
  cases ht : ts[k]? with
  | some t => rw [hlook, ht, Option.getD_some]
  | none =>
    rw [hlook, ht, Option.getD_none] at ha
    exact absurd (edge_token_eq_some_iff.2 ha) (by simp [Token.endAt, edge_endOfInput])

/-- **A shift**: the next token is taken, and becomes a part; or it is an integer that cannot
be read. -/
theorem shift (h : Reading ts k c look xs values) {s : Nat}
    (ha : actionAt c.state look.kind = .shift s) :
    (∃ c' look' values', Config.step Table.standard c look = .next c' look' ∧
      Reading ts (k + 1) c' look' (.token look.kind :: xs) values' ∧ c'.applied = c.applied) ∨
    ∃ c' t e, Config.step Table.standard c look = .halt ⟨.failed (.badLeaf t e), c'⟩ ∧
      ts[k + 1]? = some t ∧ t.leaves = .error e ∧
      ∃ more, ReadsAsProgram (ts.take (k + 1) ++ more) := by
  have hget := h.getElem?_of_shift ha
  obtain ⟨us, hus, hfragments⟩ := h.leaves
  have htake : ts.take (k + 1) = ts.take k ++ [look] := by rw [List.take_add_one, hget]; rfl
  have hpath : Path (⟨look.kind.symbol, s⟩ :: c.frames) (.token look.kind :: xs) :=
    .cons h.path (edge_token_eq_some_iff.2 ha)
  have hparse : Parses (Part.token look.kind :: xs).reverse c.applied.reverse (ts.take (k + 1))
      (us ++ values).reverse := by
    rw [htake, List.reverse_cons, List.reverse_append, Token.reverse_leaves hus]
    exact h.parse.snoc_token hus
  have hshift : Config.step Table.standard c look = c.shift look s := by
    rw [Config.step_standard, ha]
  cases hahead : c.ahead.leaves with
  | ok us' =>
    obtain ⟨c', hstep, hframes, happlied, hfragments'⟩ := Config.shift_of_leaves hahead look s
    rw [← hshift] at hstep
    refine .inl ⟨c', c.ahead, us ++ values, hstep, ⟨?_, ?_, ?_, ?_, us', hahead, ?_⟩, happlied⟩
    · exact .shift h.launched (Config.shifts_standard_iff.2 ⟨s, ha⟩) hstep
    · exact (List.getElem?_eq_some_iff.1 hget).1
    · rwa [hframes]
    · rwa [happlied]
    · rw [hfragments', hfragments]
  | error e =>
    obtain ⟨c', hstep⟩ := Config.shift_of_error hahead look s
    rw [← hshift] at hstep
    refine .inr ⟨c', c.ahead, e, hstep, ?_, hahead, hpath.viable hparse⟩
    rw [h.launched.ahead_list] at hahead ⊢
    cases ht : ts[k + 1]? with
    | some t => rfl
    | none =>
      rw [ht] at hahead
      cases hahead

/-- **A reduction**: the parts of a rule give way to its phrase, and their trees to one. -/
theorem reduce (h : Reading ts k c look xs values) {n : Nat}
    (ha : actionAt c.state look.kind = .reduce n) :
    ∃ c' xs' values', Config.step Table.standard c look = .next c' look ∧
      Reading ts k c' look xs' values' ∧ c'.applied = n :: c.applied := by
  obtain ⟨hleaf, -⟩ := underway_of_reduce ha
  obtain ⟨us, hus, hfragments⟩ := h.leaves
  -- the token looked at has no leaf, so the trees of the rule lie on top
  rw [Token.leaves_of_not_isLeaf hleaf] at hus
  cases hus
  obtain ⟨r, hr, rfl, top, below, target, hframes, htop, htarget, ys, hpath, us₁, us₂, v, hvalues,
    hv, hparse⟩ := h.path.reduce h.parse ha
  have hvalues : values = us₂.reverse ++ us₁.reverse := by
    rw [← List.reverse_append, ← hvalues, List.reverse_reverse]
  rw [hvalues, List.nil_append] at hfragments
  obtain ⟨c', hstep, hframes', happlied, hfragments'⟩ :=
    Config.step_standard_of_reduce hr hfragments hv hframes htop ha htarget
  refine ⟨c', .phrase r.phrase :: ys, v :: us₁.reverse, hstep,
    ⟨.stay h.launched (Config.not_shifts_of_reduce ha) hstep, h.le, ?_, ?_, [],
      Token.leaves_of_not_isLeaf hleaf, hfragments'⟩, happlied⟩
  · rwa [hframes']
  · rw [happlied]
    simpa using hparse

/-- **Acceptance**: all tokens before the end have been read as a program. -/
theorem accept (h : Reading ts k c look xs values) (ha : actionAt c.state look.kind = .accept) :
    ∃ root, Config.step Table.standard c look = .halt ⟨.accepted root, c⟩ ∧
      look.kind = .endOfInput ∧ Parses [.phrase .program] c.applied.reverse (ts.take k) [root] := by
  obtain ⟨hstate, hk⟩ := eq_of_accept ha
  obtain ⟨us, hus, hfragments⟩ := h.leaves
  rw [Token.leaves_of_not_isLeaf (by rw [hk]; rfl)] at hus
  cases hus
  have hparse := h.parse
  rw [h.path.eq_program_of_topState hstate] at hparse
  obtain ⟨root, hroot⟩ := hparse.exists_root
  rw [hroot] at hparse
  rw [List.reverse_eq_iff.1 hroot] at hfragments
  refine ⟨root, ?_, hk, hparse⟩
  rw [Config.step_standard, ha]
  simp only [Config.accept, hk, if_true, hfragments]
  rfl

/-- **At the start** nothing has been read. -/
theorem launch (ts : List Token) :
    (∃ c look, Config.launch ts = .next c look ∧ Reading ts 0 c look [] [] ∧ c.applied = []) ∨
    ∃ c t e, Config.launch ts = .halt ⟨.failed (.badLeaf t e), c⟩ ∧ ts[0]? = some t ∧
      t.leaves = .error e := by
  let c₀ : Config (List Token) := (Config.initial ts).recordStack
  have hahead : c₀.ahead = ts[0]?.getD (Token.endAt 1) := by
    rw [← List.head?_eq_getElem?]
    rfl
  cases hleaves : c₀.ahead.leaves with
  | ok us =>
    obtain ⟨c, hpull, hframes, happlied, hfragments⟩ := Config.pull_of_leaves hleaves
    have hlaunch : Config.launch ts = .next c c₀.ahead := by
      rw [Config.launch, hpull]
    refine .inl ⟨c, c₀.ahead, hlaunch, ⟨.first hlaunch, Nat.zero_le _, ?_, ?_, us, hleaves, ?_⟩,
      happlied⟩
    · rw [hframes]
      exact .nil
    · rw [happlied]
      exact .nil
    · rw [hfragments]
      rfl
  | error e =>
    obtain ⟨c, hpull⟩ := Config.pull_of_error hleaves
    refine .inr ⟨c, c₀.ahead, e, by rw [Config.launch, hpull]; rfl, ?_, hleaves⟩
    rw [hahead] at hleaves ⊢
    cases ht : ts[0]? with
    | some t => rfl
    | none =>
      rw [ht] at hleaves
      cases hleaves

end Reading

/-! ### How runs end -/

/-- The possible ends of a run over `ts`; `k` tokens have been shifted, or would have been. -/
inductive Ending (ts : List Token) (k : Nat) (o : Outcome (List Token)) : Prop where
  /-- A program has been read, up to the end of the input. -/
  | accepted (root : Node) (hv : o.verdict = .accepted root)
      (hend : ∀ t, ts[k]? = some t → t.kind = .endOfInput)
      (hparse : Parses [.phrase .program] o.rules (ts.take k) [root])
  /-- A token does not fit. -/
  | unexpected (look : Token) (state : Nat)
      (hv : o.verdict = .failed (.unexpected look state (Table.standard.expected state)))
      (hlook : look = ts[k]?.getD (Token.endAt o.config.line))
      (hleaves : ∃ us, look.leaves = .ok us)
      (hviable : ∃ more, ReadsAsProgram (ts.take k ++ more))
  /-- A token cannot be read. -/
  | badLeaf (t : Token) (e : LeafError) (hv : o.verdict = .failed (.badLeaf t e))
      (ht : ts[k]? = some t) (he : t.leaves = .error e)
      (hviable : ∃ more, ReadsAsProgram (ts.take k ++ more))

/-- **One step**: the invariant is kept, and a token is shifted or a rule applied; or the run
ends. -/
theorem Reading.step {ts : List Token} {k : Nat} {c : Config (List Token)} {look : Token}
    {xs : List Part} {values : List Node} (h : Reading ts k c look xs values) :
    (∃ k' c' look' xs' values', Config.step Table.standard c look = .next c' look' ∧
      Reading ts k' c' look' xs' values' ∧
        k' + c'.applied.length = k + c.applied.length + 1) ∨
    ∃ o k', Config.step Table.standard c look = .halt o ∧
      Ends Table.standard ts (k' + 1) o ∧ k' ≤ ts.length ∧ Ending ts k' o := by
  have hnot : (∀ s, actionAt c.state look.kind ≠ .shift s) →
      ¬ Config.Shifts Table.standard c look := fun hs => by
    rw [Config.shifts_standard_iff]
    rintro ⟨s, ha⟩
    exact hs s ha
  cases ha : actionAt c.state look.kind with
  | shift s =>
    rcases h.shift ha with ⟨c', look', values', hstep, h', happlied⟩ |
      ⟨c', t, e, hstep, ht, he, hviable⟩
    · refine .inl ⟨k + 1, c', look', _, values', hstep, h', ?_⟩
      rw [happlied]
      omega
    · refine .inr ⟨_, k + 1, hstep, ?_, ?_, .badLeaf t e rfl ht he hviable⟩
      · exact .shift h.launched (Config.shifts_standard_iff.2 ⟨s, ha⟩) hstep
      · exact Nat.le_of_lt (List.getElem?_eq_some_iff.1 ht).1
  | reduce n =>
    obtain ⟨c', xs', values', hstep, h', happlied⟩ := h.reduce ha
    refine .inl ⟨k, c', look, xs', values', hstep, h', ?_⟩
    rw [happlied, List.length_cons]
    omega
  | accept =>
    obtain ⟨root, hstep, hk, hparse⟩ := h.accept ha
    refine .inr ⟨_, k, hstep, .stay h.launched (hnot (by simp [ha])) hstep, h.le,
      .accepted root rfl (fun t ht => ?_) hparse⟩
    rw [h.look_eq, ht] at hk
    exact hk
  | error =>
    have hstep : Config.step Table.standard c look =
        Config.unexpected Table.standard c.recordStack look := by
      rw [Config.step_standard, ha]
    obtain ⟨us, hus, -⟩ := h.leaves
    exact .inr ⟨_, k, hstep, .stay h.launched (hnot (by simp [ha])) hstep, h.le,
      .unexpected look c.state rfl h.look_eq ⟨us, hus⟩ h.viable⟩

/-- Each step shifts a token or applies a rule, and there are no more rules than tokens. -/
theorem Reading.exists_run {ts : List Token} {n k : Nat} {c : Config (List Token)} {look : Token}
    {xs : List Part} {values : List Node} (h : Reading ts k c look xs values)
    (hn : 2 * ts.length < n + k + c.applied.length) :
    ∃ o k', Config.run Table.standard n c look = some o ∧
      Ends Table.standard ts (k' + 1) o ∧ k' ≤ ts.length ∧ Ending ts k' o := by
  induction n generalizing k c look xs values with
  | zero =>
    have hle := h.le
    have happlied := h.length_applied_le
    omega
  | succ n ih =>
    rw [Config.run]
    rcases h.step with ⟨k', c', look', xs', values', hstep, h', hcount⟩ |
      ⟨o, k', hstep, hend⟩
    · rw [hstep]
      exact ih h' (by omega)
    · rw [hstep]
      exact ⟨o, k', rfl, hend⟩

/-- **Every run ends**: the standard table takes any list of tokens to an end in time. -/
theorem exists_derive? (ts : List Token) :
    ∃ o k, Table.standard.derive? ts = some o ∧ Ends Table.standard ts (k + 1) o ∧
      k ≤ ts.length ∧ Ending ts k o := by
  rcases Reading.launch ts with ⟨c, look, hlaunch, h, happlied⟩ | ⟨c, t, e, hlaunch, ht, he⟩
  · simp only [Table.derive?, hlaunch]
    refine h.exists_run ?_
    simp only [Table.budget, Table.stepsPerToken, TokenSource.bound, happlied, List.length_nil]
    omega
  · simp only [Table.derive?, hlaunch]
    obtain ⟨rs, more, vs, hmore⟩ := exists_parses [.phrase .program]
    obtain ⟨root, rfl⟩ := hmore.exists_root
    exact ⟨_, 0, rfl, .first hlaunch, Nat.zero_le _,
      .badLeaf t e rfl ht he ⟨more, rs, root, hmore⟩⟩

end CatAndMouse
