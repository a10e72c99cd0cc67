import CatAndMouse.Grammar

/-!
# Derivations

What a grammar generates, said without a parser. `Rightmost` replays a list of
productions on the rightmost nonterminal; `Derives` is the reflexive transitive
closure of using a production anywhere.
-/

namespace CatAndMouse

/-- `RightStep nonterminals p s t`: using `p` on the rightmost nonterminal of `s` gives `t`. -/
inductive RightStep (nonterminals : List String) (p : Production) :
    List String → List String → Prop where
  | mk (before after : List String) (hlhs : p.lhs ∈ nonterminals)
      (hafter : ∀ x ∈ after, x ∉ nonterminals) :
      RightStep nonterminals p (before ++ p.lhs :: after) (before ++ p.rhs ++ after)

/-- `Rightmost nonterminals ps s t`: the productions `ps`, one after the other, lead from `s`
to `t`, each used on the rightmost nonterminal. -/
inductive Rightmost (nonterminals : List String) :
    List Production → List String → List String → Prop where
  | nil (s : List String) : Rightmost nonterminals [] s s
  | cons {p : Production} {ps : List Production} {s t u : List String}
      (step : RightStep nonterminals p s t) (rest : Rightmost nonterminals ps t u) :
      Rightmost nonterminals (p :: ps) s u

/-- `Derives ps s t`: productions of `ps` lead from `s` to `t`. -/
inductive Derives (ps : List Production) : List String → List String → Prop where
  | refl (s : List String) : Derives ps s s
  | step {p : Production} {before after t : List String} (hp : p ∈ ps)
      (rest : Derives ps (before ++ p.rhs ++ after) t) :
      Derives ps (before ++ p.lhs :: after) t

/-- A replayed list of productions of a grammar is a derivation in it. -/
theorem Rightmost.derives {nonterminals s t : List String} {ps qs : List Production}
    (h : Rightmost nonterminals qs s t) (hqs : ∀ q ∈ qs, q ∈ ps) : Derives ps s t := by
  induction h with
  | nil s => exact .refl s
  | cons step _ ih =>
    obtain ⟨before, after, _, _⟩ := step
    exact .step (hqs _ (by simp)) (ih fun q hq => hqs q (by simp [hq]))

/-- The sequences of terminal symbols that are programs. -/
def Sentence (symbols : List String) : Prop :=
  Derives (standardProductions.map (·.2)) [programSymbol] symbols
    ∧ ∀ x ∈ symbols, x ∉ standardNonterminals

end CatAndMouse
