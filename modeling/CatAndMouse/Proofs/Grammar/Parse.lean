import CatAndMouse.Fragment
import CatAndMouse.Grammar.Derivation
import CatAndMouse.Proofs.Grammar.Phrase
import CatAndMouse.Proofs.Tree.Leaf
import Mathlib.Data.List.Forall2

/-!
# Parses

`Parses xs rs ts vs` says how tokens are read as parts, with the rules that are
used and the trees that come out. It speaks of no automaton: it is the grammar
with its rules applied to fragments. Parses can be joined and cut at any point
between two parts (`Parses.append`, `Parses.split`). Each rule uses up a token
of its own (`Parses.length_rules_le`), and each part that carries a value gives
one tree, of a shape that fits it (`Parses.fits`). Any parts at all can be read
(`exists_parses`).
-/

namespace CatAndMouse

/-- Rule `rule` takes the trees `us` off the fragments and leaves `v`, whatever is below. -/
def Builds (rule : Nat) (us : List Node) (v : Node) : Prop :=
  ∀ below : Fragments, Fragments.apply rule (us.reverse ++ below) = (none, v :: below)

/-- `Parses xs rs ts vs`: the tokens `ts` are read as the parts `xs`. The rules `rs` are used,
each one when its parts are complete, and the trees `vs` come out. -/
inductive Parses : List Part → List Nat → List Token → List Node → Prop where
  | nil : Parses [] [] [] []
  /-- A token is read as itself. -/
  | token {t : Token} {us vs : List Node} {xs : List Part} {rs : List Nat} {ts : List Token}
      (ht : t.leaves = .ok us) (rest : Parses xs rs ts vs) :
      Parses (.token t.kind :: xs) rs (t :: ts) (us ++ vs)
  /-- A phrase is read as the parts of one of its rules. -/
  | phrase {r : PhraseRule} {v : Node} {us vs : List Node} {xs : List Part}
      {rs₁ rs₂ : List Nat} {ts₁ ts₂ : List Token} (hr : r ∈ phraseRules)
      (parts : Parses r.parts rs₁ ts₁ us) (hv : Builds r.number us v)
      (rest : Parses xs rs₂ ts₂ vs) :
      Parses (.phrase r.phrase :: xs) (rs₁ ++ r.number :: rs₂) (ts₁ ++ ts₂) (v :: vs)

namespace Parses

variable {xs ys : List Part} {rs rs' : List Nat} {ts ts' : List Token} {vs vs' : List Node}

/-! ### Joining and cutting -/

theorem append (h : Parses xs rs ts vs) (h' : Parses ys rs' ts' vs') :
    Parses (xs ++ ys) (rs ++ rs') (ts ++ ts') (vs ++ vs') := by
  induction h with
  | nil => exact h'
  | token ht _ ih =>
    rw [List.append_assoc]
    exact .token ht ih
  | phrase hr parts hv _ _ ih =>
    rw [List.append_assoc, List.append_assoc]
    exact .phrase hr parts hv ih

theorem split (h : Parses (xs ++ ys) rs ts vs) :
    ∃ rs₁ rs₂ ts₁ ts₂ vs₁ vs₂, rs = rs₁ ++ rs₂ ∧ ts = ts₁ ++ ts₂ ∧ vs = vs₁ ++ vs₂ ∧
      Parses xs rs₁ ts₁ vs₁ ∧ Parses ys rs₂ ts₂ vs₂ := by
  induction xs generalizing rs ts vs with
  | nil => exact ⟨[], rs, [], ts, [], vs, rfl, rfl, rfl, .nil, h⟩
  | cons x xs ih =>
    cases h with
    | token ht rest =>
      obtain ⟨rs₁, rs₂, ts₁, ts₂, vs₁, vs₂, rfl, rfl, rfl, h₁, h₂⟩ := ih rest
      exact ⟨rs₁, rs₂, _ :: ts₁, ts₂, _ ++ vs₁, vs₂, rfl, rfl, (List.append_assoc ..).symm,
        .token ht h₁, h₂⟩
    | phrase hr parts hv rest =>
      obtain ⟨rs₁, rs₂, ts₁, ts₂, vs₁, vs₂, rfl, rfl, rfl, h₁, h₂⟩ := ih rest
      exact ⟨_ ++ _ :: rs₁, rs₂, _ ++ ts₁, ts₂, _ :: vs₁, vs₂, by simp, by simp, rfl,
        .phrase hr parts hv h₁, h₂⟩

/-- A single token. -/
theorem singleton {t : Token} {us : List Node} (ht : t.leaves = .ok us) :
    Parses [.token t.kind] [] [t] us := by
  simpa using Parses.token ht .nil

/-- A token after what has been read. -/
theorem snoc_token (h : Parses xs rs ts vs) {t : Token} {us : List Node} (ht : t.leaves = .ok us) :
    Parses (xs ++ [.token t.kind]) rs (ts ++ [t]) (vs ++ us) := by
  simpa using h.append (.singleton ht)

/-- What is read as a single token is one. -/
theorem exists_eq_singleton {k : Kind} (h : Parses [.token k] rs ts vs) :
    ∃ t, ts = [t] ∧ t.kind = k := by
  generalize hxs : [Part.token k] = xs at h
  cases h with
  | nil => cases hxs
  | phrase => cases hxs
  | token ht rest =>
    cases hxs
    cases rest
    exact ⟨_, rfl, rfl⟩

/-! ### What a parse is made of -/

/-- The tokens that are parts themselves, and one for each rule, are among the tokens read. -/
theorem length_rules_add_count_le (h : Parses xs rs ts vs) :
    rs.length + xs.countP (fun x => x matches .token _) ≤ ts.length := by
  have hcount : ∀ r ∈ phraseRules, 1 ≤ r.parts.countP (fun x => x matches .token _) := by decide
  induction h with
  | nil => simp
  | token _ _ ih =>
    simp only [List.countP_cons, List.length_cons] at ih ⊢
    simp only [if_true]
    omega
  | phrase hr _ _ _ ih₁ ih₂ =>
    have := hcount _ hr
    simp only [List.countP_cons, List.length_append, List.length_cons] at ih₁ ih₂ ⊢
    simp only [Bool.false_eq_true, if_false]
    omega

/-- No more rules are used than there are tokens. -/
theorem length_rules_le (h : Parses xs rs ts vs) : rs.length ≤ ts.length :=
  Nat.le_trans (Nat.le_add_right ..) h.length_rules_add_count_le

/-- The end of the input is read only as a part of its own. -/
theorem ne_endOfInput (h : Parses xs rs ts vs) (hxs : .token .endOfInput ∉ xs) :
    ∀ t ∈ ts, t.kind ≠ .endOfInput := by
  have hparts : ∀ r ∈ phraseRules, .token .endOfInput ∉ r.parts := by decide
  induction h with
  | nil => simp
  | token _ _ ih =>
    simp only [List.mem_cons, not_or] at hxs
    intro t ht
    rcases List.mem_cons.1 ht with rfl | ht
    · exact fun hk => hxs.1 (by rw [hk])
    · exact ih hxs.2 t ht
  | phrase hr _ _ _ ih₁ ih₂ =>
    simp only [List.mem_cons, not_or] at hxs
    intro t ht
    rcases List.mem_append.1 ht with ht | ht
    · exact ih₁ (hparts _ hr) t ht
    · exact ih₂ hxs.2 t ht

/-- Every token that is read has the leaf that it should have. -/
theorem exists_leaves (h : Parses xs rs ts vs) : ∀ t ∈ ts, ∃ us, t.leaves = .ok us := by
  induction h with
  | nil => simp
  | token ht _ ih =>
    intro t hmem
    rcases List.mem_cons.1 hmem with rfl | hmem
    · exact ⟨_, ht⟩
    · exact ih t hmem
  | phrase _ _ _ _ ih₁ ih₂ =>
    intro t hmem
    rcases List.mem_append.1 hmem with hmem | hmem
    · exact ih₁ t hmem
    · exact ih₂ t hmem

end Parses

/-! ### Shapes of the trees -/

/-- The six shapes of statements. -/
def Shape.isStatement : Shape → Bool
  | .cat | .mouse | .hole | .move | .turn | .loop => true
  | _ => false

/-- A statement, or a chain that grows to the left by a statement at a time. -/
inductive Node.IsChain : Node → Prop where
  | single {n : Node} (h : n.shape.isStatement = true) : IsChain n
  | chain {l r : Node} (hl : IsChain l) (hr : r.shape.isStatement = true) : IsChain (.chain l r)

/-- The trees that a part can leave. -/
def Part.Fits : Part → Node → Prop
  | .token .integer, v => v.IsNumber
  | .token .name, v => v.IsName
  | .token (.heading _), v => v.IsFacing
  | .token _, _ => False
  | .phrase .program, v => v.shape = .program
  | .phrase .list, v => v.IsChain
  | .phrase .statement, v => v.shape.isStatement = true
  | .phrase .direction, v => v.IsFacing

theorem Token.fits_leaves {t : Token} {us : List Node} (ht : t.leaves = .ok us) :
    List.Forall₂ Part.Fits ([Part.token t.kind].filter Part.carriesValue) us := by
  rcases leaves_eq_ok_iff.1 ht with ⟨hleaf, rfl⟩ | ⟨hleaf, v, hv, rfl⟩
  · rw [List.filter_singleton, Part.carriesValue, hleaf]
    exact .nil
  · rw [List.filter_singleton, Part.carriesValue, hleaf]
    refine .cons ?_ .nil
    cases hk : t.kind with
    | integer =>
      rw [Node.ofToken_of_isNumeral hk (isNumeral_of_ofToken hk hv)] at hv
      cases hv
      exact .mk ..
    | name =>
      rw [Node.ofToken_name hk] at hv
      cases hv
      exact .mk ..
    | heading h =>
      rw [Node.ofToken_heading hk] at hv
      cases hv
      exact .mk ..
    | _ => simp [hk, Kind.isLeaf] at hleaf

/-- Trees that fit the parts of a rule are built into one that fits its phrase. -/
theorem PhraseRule.builds_of_fits {r : PhraseRule} (hr : r ∈ phraseRules) {us : List Node}
    (h : List.Forall₂ Part.Fits (r.parts.filter Part.carriesValue) us) :
    ∃ v, Builds r.number us v ∧ (Part.phrase r.phrase).Fits v := by
  simp only [phraseRules, List.mem_cons, List.not_mem_nil, or_false] at hr
  rcases hr with rfl | rfl | rfl | rfl | rfl | rfl | rfl | rfl | rfl | rfl | rfl | rfl | rfl | rfl
  all_goals simp only [Part.carriesValue, Kind.isLeaf, List.filter_cons, List.filter_nil,
    Bool.false_eq_true, if_false, if_true] at h
  · obtain _ | ⟨⟨w, _⟩, _ | ⟨⟨h, _⟩, _ | ⟨_, _ | _⟩⟩⟩ := h
    exact ⟨_, fun _ => rfl, rfl⟩
  · obtain _ | ⟨hs, _ | _⟩ := h
    exact ⟨_, fun _ => rfl, .single hs⟩
  · obtain _ | ⟨hl, _ | ⟨hs, _ | _⟩⟩ := h
    exact ⟨_, fun _ => rfl, .chain hl hs⟩
  · obtain _ | ⟨⟨n, _⟩, _ | ⟨⟨x, _⟩, _ | ⟨⟨y, _⟩, _ | ⟨⟨f, _⟩, _ | _⟩⟩⟩⟩ := h
    exact ⟨_, fun _ => rfl, rfl⟩
  · obtain _ | ⟨⟨n, _⟩, _ | ⟨⟨x, _⟩, _ | ⟨⟨y, _⟩, _ | ⟨⟨f, _⟩, _ | _⟩⟩⟩⟩ := h
    exact ⟨_, fun _ => rfl, rfl⟩
  · obtain _ | ⟨⟨x, _⟩, _ | ⟨⟨y, _⟩, _ | _⟩⟩ := h
    exact ⟨_, fun _ => rfl, rfl⟩
  · obtain _ | ⟨⟨n, _⟩, _ | _⟩ := h
    exact ⟨_, fun _ => rfl, rfl⟩
  · obtain _ | ⟨⟨n, _⟩, _ | ⟨⟨d, _⟩, _ | _⟩⟩ := h
    exact ⟨_, fun _ => rfl, rfl⟩
  · obtain _ | ⟨⟨n, _⟩, _ | _⟩ := h
    exact ⟨_, fun _ => rfl, rfl⟩
  · obtain _ | ⟨⟨c, _⟩, _ | ⟨_, _ | _⟩⟩ := h
    exact ⟨_, fun _ => rfl, rfl⟩
  all_goals
    obtain _ | ⟨hf, _ | _⟩ := h
    exact ⟨_, fun _ => rfl, hf⟩

/-- **Parts and trees**: a parse gives one tree for each part that carries a value. What the leaves
of its tokens are for their parts, and what rules make of such trees, all its trees are. -/
theorem Parses.forall₂ {Q : Part → Node → Prop} {xs : List Part} {rs : List Nat} {ts : List Token}
    {vs : List Node} (h : Parses xs rs ts vs)
    (htoken : ∀ t ∈ ts, ∀ us, t.leaves = .ok us →
      List.Forall₂ Q ([Part.token t.kind].filter Part.carriesValue) us)
    (hrule : ∀ r ∈ phraseRules, ∀ us, List.Forall₂ Q (r.parts.filter Part.carriesValue) us →
      ∃ v, Builds r.number us v ∧ Q (.phrase r.phrase) v) :
    List.Forall₂ Q (xs.filter Part.carriesValue) vs := by
  induction h with
  | nil => exact .nil
  | @token t us vs xs _ _ ht _ ih =>
    rw [List.forall_mem_cons] at htoken
    rw [show Part.token t.kind :: xs = [.token t.kind] ++ xs from rfl, List.filter_append]
    exact List.rel_append (htoken.1 us ht) (ih htoken.2)
  | phrase hr _ hv _ ih₁ ih₂ =>
    rw [List.forall_mem_append] at htoken
    obtain ⟨v, hv', hfit⟩ := hrule _ hr _ (ih₁ htoken.1)
    have heq := (hv []).symm.trans (hv' [])
    simp only [Prod.mk.injEq, List.cons.injEq, true_and, and_true] at heq
    subst heq
    exact .cons hfit (ih₂ htoken.2)

/-- The trees of a parse fit its parts. -/
theorem Parses.fits {xs : List Part} {rs : List Nat} {ts : List Token} {vs : List Node}
    (h : Parses xs rs ts vs) : List.Forall₂ Part.Fits (xs.filter Part.carriesValue) vs :=
  h.forall₂ (fun _ _ _ ht => Token.fits_leaves ht) fun _ hr _ hus => PhraseRule.builds_of_fits hr hus

/-- **Reduction**: parts of a rule at the end of what has been read give way to its phrase. -/
theorem Parses.snoc_phrase {r : PhraseRule} (hr : r ∈ phraseRules) {xs : List Part}
    {rs : List Nat} {ts : List Token} {vs : List Node} (h : Parses (xs ++ r.parts) rs ts vs) :
    ∃ us₁ us₂ v, vs = us₁ ++ us₂ ∧ Builds r.number us₂ v ∧
      Parses (xs ++ [.phrase r.phrase]) (rs ++ [r.number]) ts (us₁ ++ [v]) := by
  obtain ⟨rs₁, rs₂, ts₁, ts₂, us₁, us₂, rfl, rfl, rfl, h₁, h₂⟩ := h.split
  obtain ⟨v, hv, -⟩ := PhraseRule.builds_of_fits hr h₂.fits
  refine ⟨us₁, us₂, v, rfl, hv, ?_⟩
  simpa using h₁.append (.phrase hr h₂ hv .nil)

/-! ### Every part can be read -/

/-- A token of a kind. -/
def Token.sample (k : Kind) : Token := ⟨k, "0", 1, 1⟩

theorem Token.exists_leaves_sample (k : Kind) : ∃ us, (sample k).leaves = .ok us :=
  exists_leaves_iff.2 fun _ => show IsNumeral "0" by decide

theorem exists_parses_token (k : Kind) : ∃ rs ts vs, Parses [.token k] rs ts vs := by
  obtain ⟨us, hus⟩ := Token.exists_leaves_sample k
  exact ⟨_, _, _, .singleton hus⟩

theorem exists_parses_of_forall {xs : List Part}
    (h : ∀ x ∈ xs, ∃ rs ts vs, Parses [x] rs ts vs) : ∃ rs ts vs, Parses xs rs ts vs := by
  induction xs with
  | nil => exact ⟨_, _, _, .nil⟩
  | cons x xs ih =>
    obtain ⟨_, _, _, h₁⟩ := h x (by simp)
    obtain ⟨_, _, _, h₂⟩ := ih fun y hy => h y (by simp [hy])
    exact ⟨_, _, _, h₁.append h₂⟩

/-- A phrase can be read if the parts of one of its rules can. -/
theorem exists_parses_of_rule {r : PhraseRule} (hr : r ∈ phraseRules) {p : Phrase}
    (hp : r.phrase = p) (h : ∀ x ∈ r.parts, ∃ rs ts vs, Parses [x] rs ts vs) :
    ∃ rs ts vs, Parses [.phrase p] rs ts vs := by
  subst hp
  obtain ⟨rs, ts, us, h⟩ := exists_parses_of_forall h
  obtain ⟨v, hv, -⟩ := PhraseRule.builds_of_fits hr h.fits
  exact ⟨_, _, _, .phrase hr h hv .nil⟩

theorem exists_parses_phrase (p : Phrase) : ∃ rs ts vs, Parses [.phrase p] rs ts vs := by
  -- the shortest of each: a hole, a list of one statement, a program of one list
  have hstatement : ∃ rs ts vs, Parses [.phrase .statement] rs ts vs :=
    exists_parses_of_rule (r := phraseRules[5]) (by decide) rfl
      (by simp [phraseRules, exists_parses_token])
  have hlist : ∃ rs ts vs, Parses [.phrase .list] rs ts vs :=
    exists_parses_of_rule (r := phraseRules[1]) (by decide) rfl
      (by simp [phraseRules, exists_parses_token, hstatement])
  cases p with
  | program =>
    exact exists_parses_of_rule (r := phraseRules[0]) (by decide) rfl
      (by simp [phraseRules, exists_parses_token, hlist])
  | list => exact hlist
  | statement => exact hstatement
  | direction =>
    exact exists_parses_of_rule (r := phraseRules[10]) (by decide) rfl
      (by simp [phraseRules, exists_parses_token])

/-- **No dead ends**: any parts are the reading of some tokens. -/
theorem exists_parses (xs : List Part) : ∃ rs ts vs, Parses xs rs ts vs :=
  exists_parses_of_forall fun x _ =>
    match x with
    | .token k => exists_parses_token k
    | .phrase p => exists_parses_phrase p

end CatAndMouse
