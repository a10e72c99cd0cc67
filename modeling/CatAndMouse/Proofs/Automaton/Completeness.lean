import CatAndMouse.Proofs.Automaton.Reading

/-!
# Completeness of the standard table

Where the table has a way over some parts, it takes the automaton over any tokens
that are read as these parts, by the rules of the parse (`Stands.parts`). So it
accepts whatever has a parse as a program (`accepts_of_parses`).
-/

namespace CatAndMouse

/-- The kind of the token that comes first; at the end, the end of the input. -/
def headKind (ts : List Token) : Kind := (ts.head?.map Token.kind).getD .endOfInput

/-- Tokens begin as the parts that they are read as. -/
theorem Parses.headKind_mem {xs : List Part} {rs : List Nat} {ts : List Token} {vs : List Node}
    (h : Parses xs rs ts vs) (rest : List Token) :
    headKind (ts ++ rest) ∈ startsOf (headKind rest) xs := by
  induction h generalizing rest with
  | nil => exact List.mem_singleton_self _
  | token _ _ _ => exact List.mem_singleton_self _
  | @phrase r _ _ _ _ _ _ _ ts₂ hr _ _ _ ih₁ _ =>
    obtain ⟨x, xs, hparts, hfirsts⟩ := firsts_of_parts hr
    have hmem := ih₁ (ts₂ ++ rest)
    rw [hparts] at hmem
    rw [List.append_assoc]
    exact hfirsts _ hmem

/-- The token that comes first has the leaf that it should have. -/
theorem Parses.exists_leaves_head {xs : List Part} {rs : List Nat} {ts rest : List Token}
    {vs : List Node} (h : Parses xs rs ts vs)
    (hrest : ∀ t ∈ rest.head?, ∃ us, t.leaves = .ok us) :
    ∀ t ∈ (ts ++ rest).head?, ∃ us, t.leaves = .ok us := by
  intro t ht
  cases ts with
  | nil => exact hrest t ht
  | cons t' ts =>
    cases ht
    exact h.exists_leaves t (by simp)

/-- The automaton has shifted `k` tokens of `ts`, and holds the trees `values` under the leaf of
the token looked at, the last one first. -/
structure Stands (ts : List Token) (k : Nat) (c : Config (List Token)) (look : Token)
    (values : List Node) : Prop where
  launched : Launched Table.standard ts k c look
  leaves : ∃ us, look.leaves = .ok us ∧ c.fragments = us ++ values

namespace Stands

variable {ts : List Token} {k : Nat} {c : Config (List Token)} {look : Token}
  {values : List Node}

theorem kind_eq (h : Stands ts k c look values) : look.kind = headKind (ts.drop k) := by
  rw [h.launched.look_list, headKind, List.head?_drop]
  cases ts[k]? <;> rfl

/-- Shift a token, if there is one after it that can be read. -/
theorem shift (h : Stands ts k c look values) {t : Token} {rest : List Token}
    (hdrop : ts.drop k = t :: rest) (hrest : ∀ t ∈ rest.head?, ∃ us, t.leaves = .ok us)
    {us : List Node} (hus : t.leaves = .ok us) {s : Nat}
    (he : edge c.state (.token t.kind) = some s) :
    ∃ c' look', Stands ts (k + 1) c' look' (us.reverse ++ values) ∧
      c'.frames = ⟨t.kind.symbol, s⟩ :: c.frames ∧ c'.applied = c.applied := by
  have hget : ts[k]? = some t := by rw [← List.head?_drop, hdrop]; rfl
  obtain rfl : look = t := by rw [h.launched.look_list, hget, Option.getD_some]
  obtain ⟨us', hus', hfragments⟩ := h.leaves
  obtain rfl : us' = us := Except.ok.inj (hus'.symm.trans hus)
  have hahead : ∃ us, c.ahead.leaves = .ok us := by
    have hrest' : ts[k + 1]? = rest.head? := by
      rw [← List.head?_drop, ← List.drop_drop, hdrop]
      rfl
    rw [h.launched.ahead_list, hrest']
    cases hr : rest.head? with
    | none => exact ⟨[], rfl⟩
    | some t => exact hrest t hr
  obtain ⟨us, hahead⟩ := hahead
  have ha := edge_token_eq_some_iff.1 he
  obtain ⟨c', hstep, hframes, happlied, hfragments'⟩ := Config.shift_of_leaves hahead look s
  have hshift : Config.step Table.standard c look = .next c' c.ahead := by
    rw [Config.step_standard, ha]
    exact hstep
  refine ⟨c', c.ahead, ⟨?_, us, hahead, ?_⟩, hframes, happlied⟩
  · exact .shift h.launched (Config.shifts_standard_iff.2 ⟨s, ha⟩) hshift
  · rw [hfragments', hfragments, Token.reverse_leaves hus]

/-- Reduce by a rule whose parts lie on top. -/
theorem reduce {r : PhraseRule} (hr : r ∈ phraseRules) {us : List Node} {v : Node}
    (h : Stands ts k c look (us.reverse ++ values)) (hv : Builds r.number us v)
    {top below : List Frame} (hframes : c.frames = top ++ below)
    (htop : top.length = r.parts.length) (ha : actionAt c.state look.kind = .reduce r.number)
    {target : Nat} (hgoto : gotoAt (topState below) r.phrase = some target) :
    ∃ c', Stands ts k c' look (v :: values) ∧
      c'.frames = ⟨r.phrase.symbol, target⟩ :: below ∧ c'.applied = r.number :: c.applied := by
  obtain ⟨hleaf, -⟩ := underway_of_reduce ha
  have hnone := Token.leaves_of_not_isLeaf hleaf
  obtain ⟨us', hus', hfragments⟩ := h.leaves
  obtain rfl : us' = [] := Except.ok.inj (hus'.symm.trans hnone)
  obtain ⟨c', hstep, hframes', happlied, hfragments'⟩ :=
    Config.step_standard_of_reduce hr hfragments hv hframes htop ha hgoto
  exact ⟨c', ⟨.stay h.launched (Config.not_shifts_of_reduce ha) hstep, [], hnone, hfragments'⟩,
    hframes', happlied⟩

/-- **A way is taken**: where there is a way over some parts, the automaton takes it over tokens
that are read as these parts, and applies the rules of the parse. -/
theorem parts {xs : List Part} {rs : List Nat} {ws : List Token} {vs : List Node}
    (hparse : Parses xs rs ws vs) {rest : List Token} (h : Stands ts k c look values)
    (hdrop : ts.drop k = ws ++ rest) (hrest : ∀ t ∈ rest.head?, ∃ us, t.leaves = .ok us)
    {e : Nat} (hwalk : walk c.state xs = some e) (hfollow : Followed (headKind rest) xs) :
    ∃ c' look' top, Stands ts (k + ws.length) c' look' (vs.reverse ++ values) ∧
      c'.frames = top ++ c.frames ∧ top.length = xs.length ∧ c'.state = e ∧
      c'.applied = rs.reverse ++ c.applied := by
  induction hparse generalizing k c look values rest e with
  | nil =>
    cases hwalk
    exact ⟨c, look, [], h, rfl, rfl, rfl, rfl⟩
  | @token t us vs xs rs ws ht hparse ih =>
    obtain ⟨s, he, hwalk⟩ := Option.bind_eq_some_iff.1 hwalk
    obtain ⟨c₁, look₁, h₁, hframes₁, happlied₁⟩ :=
      h.shift hdrop (hparse.exists_leaves_head hrest) ht he
    have hdrop₁ : ts.drop (k + 1) = ws ++ rest := by
      rw [← List.drop_drop, hdrop]
      rfl
    have hwalk₁ : walk c₁.state xs = some e := by
      rw [Config.state, hframes₁]
      exact hwalk
    obtain ⟨c', look', top, h', hframes, htop, hstate, happlied⟩ :=
      ih h₁ hdrop₁ hrest hwalk₁ hfollow
    refine ⟨c', look', top ++ [⟨t.kind.symbol, s⟩], ?_, ?_, ?_, hstate, ?_⟩
    · rw [List.length_cons, List.reverse_append, List.append_assoc,
        show k + (ws.length + 1) = k + 1 + ws.length by omega]
      exact h'
    · rw [hframes, hframes₁, List.append_assoc]
      rfl
    · rw [List.length_append, htop]
      rfl
    · rw [happlied, happlied₁]
  | @phrase r v us vs xs rs₁ rs₂ ws₁ ws₂ hr hparts hv hmore ih₁ ih₂ =>
    obtain ⟨target, hgoto, hwalk⟩ := Option.bind_eq_some_iff.1 hwalk
    change gotoAt c.state r.phrase = some target at hgoto
    obtain ⟨hnext, hfollow⟩ := hfollow
    -- the parts of the rule first; what comes after them may follow the phrase
    have hmem := hnext _ (hmore.headKind_mem rest)
    obtain ⟨e₁, hwalk₁, hred⟩ := exists_walk (s := c.state) hr (by rw [hgoto]; rfl)
    have hdrop₁ : ts.drop k = ws₁ ++ (ws₂ ++ rest) := by rw [hdrop, List.append_assoc]
    obtain ⟨c₁, look₁, top₁, h₁, hframes₁, htop₁, hstate₁, happlied₁⟩ :=
      ih₁ h hdrop₁ (hmore.exists_leaves_head hrest) hwalk₁ (followed_parts hr hmem)
    -- then the rule itself
    have hdrop₂ : ts.drop (k + ws₁.length) = ws₂ ++ rest := by
      rw [← List.drop_drop, hdrop₁, List.drop_left]
    have ha : actionAt c₁.state look₁.kind = .reduce r.number := by
      rw [hstate₁, h₁.kind_eq, hdrop₂]
      exact hred _ hmem
    obtain ⟨c₂, h₂, hframes₂, happlied₂⟩ := h₁.reduce hr hv hframes₁ htop₁ ha hgoto
    have hwalk₂ : walk c₂.state xs = some e := by
      rw [Config.state, hframes₂]
      exact hwalk
    -- and what comes after the phrase
    obtain ⟨c', look', top, h', hframes, htop, hstate, happlied⟩ :=
      ih₂ h₂ hdrop₂ hrest hwalk₂ hfollow
    refine ⟨c', look', top ++ [⟨r.phrase.symbol, target⟩], ?_, ?_, ?_, hstate, ?_⟩
    · rw [List.length_append, ← Nat.add_assoc, List.reverse_cons, List.append_assoc]
      exact h'
    · rw [hframes, hframes₂, List.append_assoc]
      rfl
    · rw [List.length_append, htop]
      rfl
    · rw [happlied, happlied₂, happlied₁]
      simp

end Stands

/-- **Completeness**: tokens with a parse as a program are accepted, at the end of the list or
before a token that ends the input; the rules of the parse are applied. -/
theorem accepts_of_parses {rs : List Nat} {ps rest : List Token} {root : Node}
    (hparse : Parses [.phrase .program] rs ps [root])
    (hrest : ∀ t ∈ rest.head?, t.kind = .endOfInput) :
    ∃ o, Table.standard.HaltsWith (ps ++ rest) o ∧ o.verdict = .accepted root ∧ o.rules = rs := by
  have hleaves : ∀ t ∈ rest.head?, ∃ us, t.leaves = .ok us := fun t ht =>
    ⟨[], Token.leaves_of_not_isLeaf (by rw [hrest t ht]; rfl)⟩
  have hkind : headKind rest = .endOfInput := by
    cases hr : rest.head? with
    | none => rw [headKind, hr]; rfl
    | some t => rw [headKind, hr]; exact hrest t hr
  rcases Reading.launch (ps ++ rest) with ⟨c, look, -, h, happlied⟩ | ⟨_, t, e, -, ht, he⟩
  · have hstands : Stands (ps ++ rest) 0 c look [] := ⟨h.launched, h.leaves⟩
    have hstate : c.state = 0 := by
      have hframes : c.frames = [] := List.eq_nil_of_length_eq_zero h.path.length_eq
      rw [Config.state, hframes]
      rfl
    obtain ⟨c', look', top, h', -, -, hstate', happlied'⟩ :=
      hstands.parts hparse rfl hleaves (e := 1) (by rw [hstate]; rfl) (by rw [hkind]; decide)
    have hk : look'.kind = .endOfInput := by
      rw [h'.kind_eq, Nat.zero_add, List.drop_left, hkind]
    have ha : actionAt c'.state look'.kind = .accept := by
      rw [hstate', hk]
      rfl
    obtain ⟨us, hus, hfragments⟩ := h'.leaves
    rw [Token.leaves_of_not_isLeaf (by rw [hk]; rfl)] at hus
    cases hus
    have hstep : Config.step Table.standard c' look' = .halt ⟨.accepted root, c'⟩ := by
      rw [Config.step_standard, ha]
      simp only [Config.accept, hk, if_true, hfragments]
      rfl
    refine ⟨_, haltsWith_iff_ends.2 (h'.launched.halt hstep), rfl, ?_⟩
    rw [Outcome.rules, happlied', happlied, List.append_nil, List.reverse_reverse]
  · -- the first token can be read
    exfalso
    rw [← List.head?_eq_getElem?] at ht
    have hok := hparse.exists_leaves_head hleaves t ht
    obtain ⟨us, hus⟩ := hok
    rw [hus] at he
    cases he

end CatAndMouse
