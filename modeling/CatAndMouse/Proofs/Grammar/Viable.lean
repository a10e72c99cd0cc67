import CatAndMouse.Proofs.Grammar.Rightmost

/-!
# Beginnings of sentences

A sequence of symbols is viable if it begins a sentence, the end of the input
included. For tokens that can be read, `viable_symbolsOf_iff` says this with
programs: either more tokens make a program of them, or they are a program and
its end.
-/

namespace CatAndMouse

/-- The symbols begin a sentence that is closed by the end of the input. -/
def Viable (symbols : List String) : Prop :=
  ∃ s, Sentence s ∧ symbols <+: s ++ [Kind.endOfInput.symbol]

/-- **What derivations keep**: if a property of parts is kept whenever a phrase gives way to the
parts of its rule, then what is derived from parts with the property are parts with it. -/
theorem exists_parts_of_derives {P : List Part → Prop}
    (hkeep : ∀ r ∈ phraseRules, ∀ before after,
      P (before ++ .phrase r.phrase :: after) → P (before ++ r.parts ++ after))
    {s t : List String} {xs : List Part} (h : Derives (standardProductions.map (·.2)) s t)
    (hs : s = xs.map Part.symbol) (hxs : P xs) : ∃ ys, t = List.map Part.symbol ys ∧ P ys := by
  induction h generalizing xs with
  | refl => exact ⟨xs, hs, hxs⟩
  | step hp _ ih =>
    obtain ⟨⟨n, p⟩, hn, rfl⟩ := List.mem_map.1 hp
    obtain ⟨r, hr, -, rfl⟩ := mem_standardProductions_iff.1 hn
    obtain ⟨front, back, rfl, rfl, hback⟩ := List.map_eq_append_iff.1 hs.symm
    obtain ⟨x, after, rfl, hx, rfl⟩ := List.map_eq_cons_iff.1 hback
    obtain rfl : x = .phrase r.phrase := Part.symbol_inj hx
    have hmap : front.map Part.symbol ++ r.production.rhs ++ after.map Part.symbol =
        (front ++ r.parts ++ after).map Part.symbol := by simp [PhraseRule.production]
    exact ih hmap (hkeep r hr front after hxs)

/-- The symbols of a sentence name kinds of tokens. -/
theorem Sentence.exists_kind {s : List String} (h : Sentence s) :
    ∀ x ∈ s, ∃ k : Kind, k.symbol = x := by
  obtain ⟨hd, hterminal⟩ := h
  have hstart : [programSymbol] = [Part.phrase .program].map Part.symbol := rfl
  obtain ⟨ys, rfl, -⟩ := exists_parts_of_derives (P := fun _ => True) (fun _ _ _ _ h => h) hd
    hstart trivial
  intro x hx
  obtain ⟨y, -, rfl⟩ := List.mem_map.1 hx
  cases y with
  | token k => exact ⟨k, rfl⟩
  | phrase p => exact absurd p.symbol_mem (hterminal _ hx)

/-- Symbols that begin a sentence and its end name kinds of tokens. -/
theorem Viable.exists_kind {s : List String} (h : Viable s) {x : String} (hx : x ∈ s) :
    ∃ k : Kind, k.symbol = x := by
  obtain ⟨s', hs', hpre⟩ := h
  rcases List.mem_append.1 (hpre.subset hx) with hx | hx
  · exact hs'.exists_kind x hx
  · exact ⟨.endOfInput, (List.mem_singleton.1 hx).symm⟩

/-- There are tokens of any kinds. -/
theorem exists_tokens {s : List String} (h : ∀ x ∈ s, ∃ k : Kind, k.symbol = x) :
    ∃ ts, symbolsOf ts = s ∧ ∀ t ∈ ts, ∃ us, t.leaves = .ok us := by
  induction s with
  | nil => exact ⟨[], rfl, by simp⟩
  | cons x s ih =>
    obtain ⟨k, hk⟩ := h x (by simp)
    obtain ⟨ts, rfl, hts⟩ := ih fun y hy => h y (by simp [hy])
    refine ⟨.sample k :: ts, by rw [← hk]; rfl, ?_⟩
    intro t ht
    rcases List.mem_cons.1 ht with rfl | ht
    · exact Token.exists_leaves_sample k
    · exact hts t ht

/-- **Viable tokens**: tokens that can be read begin a sentence if more tokens make a program of
them, or if they are a program and its end. -/
theorem viable_symbolsOf_iff {ts : List Token} (hts : ∀ t ∈ ts, ∃ us, t.leaves = .ok us) :
    Viable (symbolsOf ts) ↔ (∃ more, ReadsAsProgram (ts ++ more)) ∨
      ∃ ps t, ts = ps ++ [t] ∧ t.kind = .endOfInput ∧ ReadsAsProgram ps := by
  constructor
  · rintro ⟨s, hs, hpre⟩
    rcases List.prefix_concat_iff.1 hpre with heq | ⟨back, rfl⟩
    · right
      obtain ⟨ps, ends, rfl, rfl, hend⟩ := List.map_eq_append_iff.1 heq
      obtain ⟨t, _, rfl, ht, hnil⟩ := List.map_eq_cons_iff.1 hend
      obtain rfl := List.map_eq_nil_iff.1 hnil
      exact ⟨ps, t, rfl, Kind.symbol_inj ht,
        readsAsProgram_iff.2 ⟨hs, fun t ht => hts t (by simp [ht])⟩⟩
    · left
      obtain ⟨more, rfl, hmore⟩ := exists_tokens fun x hx =>
        hs.exists_kind x (List.mem_append_right _ hx)
      refine ⟨more, readsAsProgram_iff.2 ⟨?_, fun t ht => ?_⟩⟩
      · rw [symbolsOf, List.map_append]
        exact hs
      · exact (List.mem_append.1 ht).elim (hts t) (hmore t)
  · rintro (⟨more, hmore⟩ | ⟨ps, t, rfl, ht, hps⟩)
    · refine ⟨symbolsOf (ts ++ more), (readsAsProgram_iff.1 hmore).1, ?_⟩
      rw [symbolsOf, symbolsOf, List.map_append, List.append_assoc]
      exact List.prefix_append ..
    · refine ⟨symbolsOf ps, (readsAsProgram_iff.1 hps).1, ?_⟩
      rw [symbolsOf, symbolsOf, List.map_append, ← ht]
      exact List.prefix_refl _

end CatAndMouse
