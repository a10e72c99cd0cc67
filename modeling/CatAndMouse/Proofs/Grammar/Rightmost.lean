import CatAndMouse.Proofs.Grammar.Parse

/-!
# Parses and derivations

A parse is a rightmost derivation read backwards. `Parses.rightmost` replays the
rules of a parse, the last one first, on the rightmost nonterminal;
`exists_parses_of_rightmost` finds the parse of a rightmost derivation, with its
rules. Any derivation at all has a parse (`exists_parses_of_derives`), so the
sentences are the sequences of tokens with a parse as a program
(`readsAsProgram_iff`).
-/

namespace CatAndMouse

/-- The terminal symbols of a list of tokens. -/
def symbolsOf (ts : List Token) : List String := ts.map fun t => t.kind.symbol

theorem symbolsOf_concat (ts : List Token) (t : Token) :
    symbolsOf (ts ++ [t]) = symbolsOf ts ++ [t.kind.symbol] := List.map_append

theorem not_mem_nonterminals_of_mem_symbolsOf {ts : List Token} :
    ∀ x ∈ symbolsOf ts, x ∉ standardNonterminals := by
  intro x hx
  obtain ⟨t, -, rfl⟩ := List.mem_map.1 hx
  exact t.kind.symbol_not_mem

/-- `RightmostBy ns s t`: the productions with the numbers `ns` lead from `s` to `t`, each used
on the rightmost nonterminal. -/
def RightmostBy (ns : List Int) (s t : List String) : Prop :=
  ∃ ps, List.Forall₂ (fun n p => (n, p) ∈ standardProductions) ns ps ∧
    Rightmost standardNonterminals ps s t

/-! ### Derivations in context -/

section Context

variable {nonterminals s t u : List String} {ps qs : List Production}

theorem Rightmost.trans (h : Rightmost nonterminals ps s t) (h' : Rightmost nonterminals qs t u) :
    Rightmost nonterminals (ps ++ qs) s u := by
  induction h with
  | nil => exact h'
  | cons step _ ih => exact .cons step (ih h')

theorem Rightmost.prepend (h : Rightmost nonterminals ps s t) (front : List String) :
    Rightmost nonterminals ps (front ++ s) (front ++ t) := by
  induction h with
  | nil => exact .nil _
  | @cons p _ _ _ _ step _ ih =>
    obtain ⟨before, after, hlhs, hafter⟩ := step
    refine .cons (t := front ++ (before ++ p.rhs ++ after)) ?_ ih
    simpa using RightStep.mk (front ++ before) after hlhs hafter

theorem Rightmost.append (h : Rightmost nonterminals ps s t) {back : List String}
    (hback : ∀ x ∈ back, x ∉ nonterminals) :
    Rightmost nonterminals ps (s ++ back) (t ++ back) := by
  induction h with
  | nil => exact .nil _
  | @cons p _ _ _ _ step _ ih =>
    obtain ⟨before, after, hlhs, hafter⟩ := step
    refine .cons (t := before ++ p.rhs ++ after ++ back) ?_ ih
    have hmore : ∀ x ∈ after ++ back, x ∉ nonterminals := fun x hx =>
      (List.mem_append.1 hx).elim (hafter x) (hback x)
    simpa using RightStep.mk before (after ++ back) hlhs hmore

theorem RightmostBy.trans {ns ms : List Int} (h : RightmostBy ns s t) (h' : RightmostBy ms t u) :
    RightmostBy (ns ++ ms) s u := by
  obtain ⟨ps, hps, hd⟩ := h
  obtain ⟨qs, hqs, hd'⟩ := h'
  exact ⟨ps ++ qs, List.rel_append hps hqs, hd.trans hd'⟩

end Context

/-! ### From parses to derivations -/

/-- **Replay**: the rules of a parse, the last one first, are a rightmost derivation. -/
theorem Parses.rightmost {xs : List Part} {rs : List Nat} {ts : List Token} {vs : List Node}
    (h : Parses xs rs ts vs) :
    RightmostBy (rs.reverse.map Int.ofNat) (xs.map Part.symbol) (symbolsOf ts) := by
  induction h with
  | nil => exact ⟨[], .nil, .nil _⟩
  | @token t _ _ xs _ ts _ _ ih =>
    obtain ⟨ps, hps, hd⟩ := ih
    exact ⟨ps, hps, hd.prepend [t.kind.symbol]⟩
  | @phrase r _ _ _ xs rs₁ rs₂ ts₁ ts₂ hr _ _ _ ih₁ ih₂ =>
    obtain ⟨ps₁, hps₁, hd₁⟩ := ih₁
    obtain ⟨ps₂, hps₂, hd₂⟩ := ih₂
    -- what follows the phrase is expanded first, then the phrase, then its parts
    have hstep : RightStep standardNonterminals r.production
        (r.phrase.symbol :: symbolsOf ts₂) (r.parts.map Part.symbol ++ symbolsOf ts₂) :=
      .mk [] _ r.phrase.symbol_mem not_mem_nonterminals_of_mem_symbolsOf
    have hd := (hd₂.prepend [r.phrase.symbol]).trans
      (.cons hstep (hd₁.append not_mem_nonterminals_of_mem_symbolsOf))
    have hnum : ((r.number : Int), r.production) ∈ standardProductions :=
      mem_standardProductions_iff.2 ⟨r, hr, rfl, rfl⟩
    refine ⟨ps₂ ++ r.production :: ps₁, ?_, ?_⟩
    · simpa using List.rel_append hps₂ (.cons hnum hps₁)
    · simpa [symbolsOf, Part.symbol] using hd

theorem RightmostBy.derives {ns : List Int} {s t : List String} (h : RightmostBy ns s t) :
    Derives (standardProductions.map (·.2)) s t := by
  obtain ⟨ps, hps, hd⟩ := h
  refine hd.derives ?_
  clear hd
  induction hps with
  | nil => simp
  | cons hn _ ih =>
    intro q hq
    rcases List.mem_cons.1 hq with rfl | hq
    · exact List.mem_map.2 ⟨_, hn, rfl⟩
    · exact ih q hq

theorem Parses.derives {xs : List Part} {rs : List Nat} {ts : List Token} {vs : List Node}
    (h : Parses xs rs ts vs) :
    Derives (standardProductions.map (·.2)) (xs.map Part.symbol) (symbolsOf ts) :=
  h.rightmost.derives

/-! ### From derivations to parses -/

/-- Tokens are read as themselves, without a rule. -/
theorem exists_parses_of_tokens {ts : List Token} (hts : ∀ t ∈ ts, ∃ us, t.leaves = .ok us) :
    ∃ vs, Parses (ts.map fun t => .token t.kind) [] ts vs := by
  induction ts with
  | nil => exact ⟨[], .nil⟩
  | cons t ts ih =>
    obtain ⟨us, hus⟩ := hts t (by simp)
    obtain ⟨vs, hvs⟩ := ih fun t ht => hts t (by simp [ht])
    exact ⟨us ++ vs, .token hus hvs⟩

theorem Parses.rules_eq_nil {xs : List Part} {rs : List Nat} {ts : List Token} {vs : List Node}
    (h : Parses xs rs ts vs) (hxs : ∀ x ∈ xs, x.symbol ∉ standardNonterminals) : rs = [] := by
  induction h with
  | nil => rfl
  | token _ _ ih => exact ih fun x hx => hxs x (by simp [hx])
  | @phrase r _ _ _ _ _ _ _ _ _ _ _ _ _ _ =>
    exact absurd r.phrase.symbol_mem (hxs (.phrase r.phrase) (by simp))

/-- A parse of the parts of a rule, in a context, is one of its phrase. The rule comes last
if only tokens follow. -/
theorem Parses.fold {r : PhraseRule} (hr : r ∈ phraseRules) {xs ys : List Part} {rs : List Nat}
    {ts : List Token} {vs : List Node} (h : Parses (xs ++ r.parts ++ ys) rs ts vs) :
    ∃ rs₁ rs₂ vs', rs = rs₁ ++ rs₂ ∧
      Parses (xs ++ .phrase r.phrase :: ys) (rs₁ ++ r.number :: rs₂) ts vs' ∧
      ((∀ y ∈ ys, y.symbol ∉ standardNonterminals) → rs₂ = []) := by
  obtain ⟨rs₁, rs₃, ts₁, ts₃, vs₁, vs₃, rfl, rfl, rfl, h₁₂, h₃⟩ := h.split
  obtain ⟨rs₁, rs₂, ts₁, ts₂, vs₁, vs₂, rfl, rfl, rfl, h₁, h₂⟩ := h₁₂.split
  obtain ⟨v, hv, -⟩ := PhraseRule.builds_of_fits hr h₂.fits
  refine ⟨rs₁ ++ rs₂, rs₃, vs₁ ++ v :: vs₃, rfl, ?_, h₃.rules_eq_nil⟩
  simpa using h₁.append (.phrase hr h₂ hv h₃)

/-- The production of a sentential form, found among the parts that the form names. -/
theorem exists_parts_of_production {r : PhraseRule} {zs : List Part} {before after : List String}
    (h : before ++ r.production.rhs ++ after = zs.map Part.symbol) :
    ∃ xs ys, before = xs.map Part.symbol ∧ after = ys.map Part.symbol ∧
      zs = xs ++ r.parts ++ ys := by
  obtain ⟨front, ys, rfl, hfront, rfl⟩ := List.map_eq_append_iff.1 h.symm
  obtain ⟨xs, mid, rfl, rfl, hmid⟩ := List.map_eq_append_iff.1 hfront
  rw [Part.map_symbol_inj hmid]
  exact ⟨xs, ys, rfl, rfl, rfl⟩

/-- **Replay backwards**: a rightmost derivation of good tokens has a parse by the same rules,
the last one first. -/
theorem exists_parses_of_rightmost {ns : List Int} {s : List String} {ts : List Token}
    (hts : ∀ t ∈ ts, ∃ us, t.leaves = .ok us) (h : RightmostBy ns s (symbolsOf ts)) :
    ∃ xs rs vs, s = xs.map Part.symbol ∧ ns = rs.reverse.map Int.ofNat ∧ Parses xs rs ts vs := by
  obtain ⟨ps, hps, hd⟩ := h
  generalize hu : symbolsOf ts = u at hd
  induction hd generalizing ns with
  | nil s =>
    cases hps
    obtain ⟨vs, hvs⟩ := exists_parses_of_tokens hts
    exact ⟨_, [], vs, by rw [← hu]; simp [symbolsOf, Part.symbol], rfl, hvs⟩
  | cons step _ ih =>
    obtain _ | ⟨hn, hps⟩ := hps
    obtain ⟨zs, rs, vs, hzs, rfl, hparse⟩ := ih hps hu
    obtain ⟨r, hr, rfl, rfl⟩ := mem_standardProductions_iff.1 hn
    obtain ⟨before, after, -, hafter⟩ := step
    obtain ⟨xs, ys, rfl, rfl, rfl⟩ := exists_parts_of_production hzs
    obtain ⟨rs₁, rs₂, vs', rfl, hfold, hlast⟩ := hparse.fold hr
    obtain rfl := hlast fun y hy => hafter _ (List.mem_map_of_mem hy)
    exact ⟨_, _, vs', by simp [PhraseRule.production, Part.symbol], by simp, hfold⟩

/-- Any derivation of good tokens has a parse. -/
theorem exists_parses_of_derives {s : List String} {ts : List Token}
    (hts : ∀ t ∈ ts, ∃ us, t.leaves = .ok us)
    (h : Derives (standardProductions.map (·.2)) s (symbolsOf ts)) :
    ∃ xs rs vs, s = xs.map Part.symbol ∧ Parses xs rs ts vs := by
  generalize hu : symbolsOf ts = u at h
  induction h with
  | refl s =>
    obtain ⟨vs, hvs⟩ := exists_parses_of_tokens hts
    exact ⟨_, [], vs, by rw [← hu]; simp [symbolsOf, Part.symbol], hvs⟩
  | step hp _ ih =>
    obtain ⟨zs, rs, vs, hzs, hparse⟩ := ih hu
    obtain ⟨⟨n, p⟩, hn, rfl⟩ := List.mem_map.1 hp
    obtain ⟨r, hr, -, rfl⟩ := mem_standardProductions_iff.1 hn
    obtain ⟨xs, ys, rfl, rfl, rfl⟩ := exists_parts_of_production hzs
    obtain ⟨rs₁, rs₂, vs', -, hfold, -⟩ := hparse.fold hr
    exact ⟨_, _, vs', by simp [PhraseRule.production, Part.symbol], hfold⟩

/-! ### Programs -/

/-- The tokens have a parse as a program. -/
def ReadsAsProgram (ts : List Token) : Prop := ∃ rs root, Parses [.phrase .program] rs ts [root]

/-- A parse as a program gives one tree. -/
theorem Parses.exists_root {rs : List Nat} {ts : List Token} {vs : List Node}
    (h : Parses [.phrase .program] rs ts vs) : ∃ root, vs = [root] := by
  obtain _ | ⟨-, _ | _⟩ := h.fits
  exact ⟨_, rfl⟩

/-- The parts whose only name is that of programs. -/
theorem parts_eq_of_programSymbol {xs : List Part} (h : [programSymbol] = xs.map Part.symbol) :
    xs = [.phrase .program] := by
  cases xs with
  | nil => cases h
  | cons x xs =>
    obtain ⟨hx, hxs⟩ := List.cons.inj h
    rw [List.map_eq_nil_iff.1 hxs.symm, Part.symbol_inj (y := .phrase .program) hx.symm]

/-- **Sentences and parses**: good tokens are a program exactly if they have a parse as one. -/
theorem readsAsProgram_iff {ts : List Token} :
    ReadsAsProgram ts ↔ Sentence (symbolsOf ts) ∧ ∀ t ∈ ts, ∃ us, t.leaves = .ok us := by
  constructor
  · rintro ⟨rs, root, h⟩
    exact ⟨⟨h.derives, not_mem_nonterminals_of_mem_symbolsOf⟩, h.exists_leaves⟩
  · rintro ⟨⟨hd, -⟩, hts⟩
    obtain ⟨xs, rs, vs, hxs, hparse⟩ := exists_parses_of_derives hts hd
    obtain rfl := parts_eq_of_programSymbol hxs
    obtain ⟨root, rfl⟩ := hparse.exists_root
    exact ⟨rs, root, hparse⟩

end CatAndMouse
