import CatAndMouse.Proofs.Grammar.Viable
import CatAndMouse.Proofs.Table.Edges

/-!
# What can follow a phrase

In whatever is derived from a program and its end, only the tokens of `follow p` come after a
phrase `p` (`mem_follow_of_derives`): each phrase among the parts is followed as it should be
(`Followed`), and this is kept when a phrase gives way to the parts of its rule
(`Followed.expand`).

The standard table uses a rule whenever the token that waits can follow the phrase of the rule
somewhere in a program (`mem_follow_of_reduce`). Where the phrase stands now it need not be able
to follow. Only after a list of statements does that matter, and only with the two tokens that
end lists (`eq_of_actionAt_target`): in the states after a semicolon the table does not know
which list it is in.
-/

namespace CatAndMouse

/-! ### Derived from a program and its end -/

theorem exists_mem_startsOf (next : Kind) (xs : List Part) : ∃ k, k ∈ startsOf next xs := by
  cases xs with
  | nil => exact ⟨next, .head _⟩
  | cons x xs =>
    cases x with
    | token k => exact ⟨k, .head _⟩
    | phrase p => cases p <;> exact ⟨_, .head _⟩

/-- What begins some parts and others after them begins the first, with a beginning of the others
to follow. -/
theorem mem_startsOf_append {next k : Kind} {xs ys : List Part} :
    k ∈ startsOf next (xs ++ ys) ↔ ∃ k' ∈ startsOf next ys, k ∈ startsOf k' xs := by
  cases xs with
  | nil => simp [startsOf]
  | cons x xs =>
    obtain ⟨k', hk'⟩ := exists_mem_startsOf next ys
    exact ⟨fun h => ⟨k', hk', h⟩, fun ⟨_, _, h⟩ => h⟩

theorem followed_append {next : Kind} {xs ys : List Part} :
    Followed next (xs ++ ys) ↔ (∀ k ∈ startsOf next ys, Followed k xs) ∧ Followed next ys := by
  induction xs with
  | nil => simp [Followed]
  | cons x xs ih =>
    cases x with
    | token k => exact ih
    | phrase p =>
      obtain ⟨k₀, hk₀⟩ := exists_mem_startsOf next ys
      simp only [List.cons_append, Followed, ih, mem_startsOf_append]
      constructor
      · rintro ⟨hp, hxs, hys⟩
        exact ⟨fun k hk => ⟨fun k' hk' => hp k' ⟨k, hk, hk'⟩, hxs k hk⟩, hys⟩
      · rintro ⟨hxs, hys⟩
        exact ⟨fun k' ⟨k, hk, hk'⟩ => (hxs k hk).1 k' hk', fun k hk => (hxs k hk).2, hys⟩

/-- A phrase gives way to the parts of its rule. -/
theorem Followed.expand {next : Kind} {r : PhraseRule} (hr : r ∈ phraseRules)
    {before after : List Part} (h : Followed next (before ++ .phrase r.phrase :: after)) :
    Followed next (before ++ r.parts ++ after) := by
  obtain ⟨hbefore, hphrase, hafter⟩ := followed_append.1 h
  rw [List.append_assoc, followed_append, followed_append]
  refine ⟨fun k hk => ?_, fun k hk => followed_parts hr (hphrase k hk), hafter⟩
  obtain ⟨x, xs, hparts, hfirsts⟩ := firsts_of_parts hr
  rw [hparts] at hk
  exact hbefore k (hfirsts k hk)

/-- **After a phrase**: of what is derived from a program and its end, only certain tokens can
come after a phrase. -/
theorem mem_follow_of_derives {p : Phrase} {k : Kind} {before after : List String}
    (h : Derives (standardProductions.map (·.2)) [programSymbol, endSymbol]
      (before ++ p.symbol :: k.symbol :: after)) : k ∈ follow p := by
  have hstart : [programSymbol, endSymbol] =
      [Part.phrase .program, .token .endOfInput].map Part.symbol := rfl
  have hfollowed : Followed .endOfInput [.phrase .program, .token .endOfInput] := by decide
  obtain ⟨ys, hys, hfollowed⟩ :=
    exists_parts_of_derives (fun _ hr _ _ => Followed.expand hr) h hstart hfollowed
  obtain ⟨front, back, rfl, -, hback⟩ := List.map_eq_append_iff.1 hys.symm
  obtain ⟨x, back, rfl, hx, hback⟩ := List.map_eq_cons_iff.1 hback
  obtain ⟨y, back, rfl, hy, -⟩ := List.map_eq_cons_iff.1 hback
  obtain rfl : x = .phrase p := Part.symbol_inj hx
  obtain rfl : y = .token k := Part.symbol_inj hy
  exact (followed_append.1 hfollowed).2.1 k (List.mem_singleton_self k)

/-! ### Rules that are used -/

/-- The states in which a statement and its semicolon have just been read. -/
def AfterStatement (s : Nat) : Prop := s = 16 ∨ s = 23

instance (s : Nat) : Decidable (AfterStatement s) := inferInstanceAs (Decidable (_ ∨ _))

/-- A rule is used when the token that waits can follow its phrase. -/
theorem mem_follow_of_reduce {s : Nat} {k : Kind} {r : PhraseRule} (hr : r ∈ phraseRules)
    (h : actionAt s k = .reduce r.number) : k ∈ follow r.phrase := by
  have hall : ∀ s < 38, ∀ k ∈ Kind.all, ∀ n ∈ (actionAt s k).reduction?.toList,
      ∀ r ∈ phraseRules, r.number = n → k ∈ follow r.phrase := by
    decide +kernel
  exact hall s (lt_of_actionAt h nofun) k k.mem_all _ (mem_reduction? h) r hr rfl

/-- A list of statements is complete only after a semicolon. -/
theorem afterStatement_of_reduce {s : Nat} {k : Kind} {r : PhraseRule} (hr : r ∈ phraseRules)
    (h : actionAt s k = .reduce r.number) (hp : r.phrase = .list) : AfterStatement s := by
  have hall : ∀ s < 38, ∀ k ∈ Kind.all, ∀ n ∈ (actionAt s k).reduction?.toList,
      ∀ r ∈ phraseRules, r.number = n → r.phrase = .list → AfterStatement s := by
    decide +kernel
  exact hall s (lt_of_actionAt h nofun) k k.mem_all _ (mem_reduction? h) r hr rfl hp

/-- **After a semicolon** a list of statements is complete, before whatever can follow some list;
all other tokens are refused. -/
theorem actionAt_of_afterStatement {s : Nat} (hs : AfterStatement s) :
    ∃ r ∈ phraseRules, r.phrase = .list ∧
      ∀ k, actionAt s k = if k ∈ follow .list then .reduce r.number else .error := by
  have hall : ∀ s < 38, AfterStatement s → ∃ r ∈ phraseRules, r.phrase = .list ∧
      ∀ k ∈ Kind.all, actionAt s k = if k ∈ follow .list then .reduce r.number else .error := by
    decide +kernel
  have hlt : s < 38 := by
    rcases hs with rfl | rfl <;> decide
  obtain ⟨r, hr, hp, hact⟩ := hall s hlt hs
  exact ⟨r, hr, hp, fun k => hact k k.mem_all⟩

/-- What has just been read after a semicolon: the semicolon, and the statement before it. -/
theorem underway_of_afterStatement {s : Nat} (hs : AfterStatement s) :
    ∃ r ∈ phraseRules, Underway s r r.parts.length ∧
      ∃ xs, r.parts = xs ++ [.phrase .statement, .token .semicolon] := by
  rcases hs with rfl | rfl
  · exact ⟨_, .tail _ (.head _), by decide, [], rfl⟩
  · exact ⟨_, .tail _ (.tail _ (.head _)), by decide, [.phrase .list], rfl⟩

/-- Only the semicolon leads to the states after it. -/
theorem eq_semicolon_of_edge {s s' : Nat} {x : Part} (he : edge s x = some s')
    (hs : AfterStatement s') : x = .token .semicolon := by
  have hall : ∀ s < 38, ∀ x ∈ Part.all, ∀ s' ∈ (edge s x).toList, AfterStatement s' →
      x = .token .semicolon := by
    decide +kernel
  exact hall s (lt_of_edge he) x x.mem_all s' (Option.mem_toList.2 he) hs

/-- **After a rule**: a token that can follow the phrase of the rule may be refused only after a
list, and only if it ends lists. -/
theorem eq_of_actionAt_target {s t : Nat} {p : Phrase} {k : Kind} (hgoto : gotoAt s p = some t)
    (hk : k ∈ follow p) (h : actionAt t k = .error) : p = .list ∧ (k = .halt ∨ k = .done) := by
  have hall : ∀ s < 38, ∀ p ∈ [Phrase.program, .list, .statement, .direction],
      ∀ t ∈ (gotoAt s p).toList, ∀ k ∈ follow p, actionAt t k = .error →
        p = .list ∧ (k = .halt ∨ k = .done) := by
    decide +kernel
  have hp : p ∈ [Phrase.program, .list, .statement, .direction] := by cases p <;> decide
  exact hall s (lt_of_edge (x := .phrase p) hgoto) p hp t (Option.mem_toList.2 hgoto) k hk h

end CatAndMouse
