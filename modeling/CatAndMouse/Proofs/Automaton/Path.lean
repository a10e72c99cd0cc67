import CatAndMouse.Automaton
import CatAndMouse.Proofs.Grammar.Rightmost
import CatAndMouse.Proofs.Table.Edges

/-!
# Stacks as paths

The frames of the automaton are a path through the standard table, from its
first state (`Path`). Two facts follow from what is under way in the last state.
When a rule is used, its parts lie on top of the stack, and below them its
phrase is expected (`Path.pop`). And nothing on a path is in vain: whatever is
read as the parts of a path can be completed to a program (`Path.viable`).
-/

namespace CatAndMouse

/-- `Path frames xs`: the frames are a path from the first state, over the parts `xs`; the last
part comes first. -/
inductive Path : List Frame → List Part → Prop where
  | nil : Path [] []
  | cons {frames : List Frame} {xs : List Part} {x : Part} {s : Nat} (below : Path frames xs)
      (he : edge (topState frames) x = some s) : Path (⟨x.symbol, s⟩ :: frames) (x :: xs)

/-- Nothing is under way in the first state. -/
theorem not_underway_start (r : PhraseRule) (read : Nat) : ¬ Underway Table.start r read := by
  simp [Underway, underwayRules, Table.start]

namespace Path

variable {frames : List Frame} {xs : List Part}

theorem length_eq (h : Path frames xs) : frames.length = xs.length := by
  induction h with
  | nil => rfl
  | cons _ _ ih => simp [ih]

/-- Only the empty path ends in the first state. -/
theorem eq_nil_of_topState (h : Path frames xs) (hs : topState frames = 0) :
    frames = [] ∧ xs = [] := by
  cases h with
  | nil => exact ⟨rfl, rfl⟩
  | @cons _ _ x s _ he =>
    obtain rfl : s = 0 := hs
    exact absurd he (edge_ne_zero _ x)

/-- A path ends in the accepting state only after a program. -/
theorem eq_program_of_topState (h : Path frames xs) (hs : topState frames = 1) :
    xs = [.phrase .program] := by
  cases h with
  | nil => cases hs
  | @cons _ _ _ s below he =>
    obtain rfl : s = 1 := hs
    obtain ⟨hs, rfl⟩ := eq_of_edge_one he
    rw [(below.eq_nil_of_topState hs).2]

/-- **What has been read of a rule**: if a rule is under way, as many frames as it has parts
read lie on top, over these parts, and below them the phrase of the rule is expected. -/
theorem pop {r : PhraseRule} {read : Nat} (h : Path frames xs) (hr : r ∈ phraseRules)
    (hu : Underway (topState frames) r read) :
    ∃ top below ys, frames = top ++ below ∧ top.length = read ∧
      xs = (r.parts.take read).reverse ++ ys ∧ Path below ys ∧
      (gotoAt (topState below) r.phrase).isSome = true := by
  induction read generalizing frames xs with
  | zero =>
    cases h with
    | nil => exact absurd hu (not_underway_start r 0)
    | cons _ he => exact (passedLast_of_edge he hr hu).elim
  | succ n ih =>
    cases h with
    | nil => exact absurd hu (not_underway_start r _)
    | @cons frames xs x s below he =>
      obtain ⟨hx, hu' | ⟨rfl, hgoto⟩⟩ := passedLast_of_edge he hr hu
      · obtain ⟨top, below', ys, rfl, rfl, rfl, hbelow, hgoto⟩ := ih below hu'
        refine ⟨⟨x.symbol, s⟩ :: top, below', ys, rfl, rfl, ?_, hbelow, hgoto⟩
        rw [List.take_add_one, hx]
        simp
      · refine ⟨[⟨x.symbol, s⟩], frames, xs, rfl, rfl, ?_, below, hgoto⟩
        rw [List.take_add_one, hx]
        simp

/-- **A reduction on a path**: the parts of the rule lie on top, and give way to its phrase. What has
been read is read in the new way, too. -/
theorem reduce {rs : List Nat} {ts : List Token} {vs : List Node} {n : Nat} {k : Kind}
    (h : Path frames xs) (hparse : Parses xs.reverse rs ts vs)
    (ha : actionAt (topState frames) k = .reduce n) :
    ∃ r ∈ phraseRules, r.number = n ∧ ∃ top below target,
      frames = top ++ below ∧ top.length = r.parts.length ∧
      gotoAt (topState below) r.phrase = some target ∧
      ∃ ys, Path (⟨r.phrase.symbol, target⟩ :: below) (.phrase r.phrase :: ys) ∧
      ∃ us₁ us₂ v, vs = us₁ ++ us₂ ∧ Builds r.number us₂ v ∧
        Parses (Part.phrase r.phrase :: ys).reverse (rs ++ [n]) ts (us₁ ++ [v]) := by
  obtain ⟨-, r, hr, rfl, hu⟩ := underway_of_reduce ha
  obtain ⟨top, below, ys, hframes, htop, rfl, hbelow, hgoto⟩ := h.pop hr hu
  obtain ⟨target, htarget⟩ := Option.isSome_iff_exists.1 hgoto
  rw [List.take_length, List.reverse_append, List.reverse_reverse] at hparse
  obtain ⟨us₁, us₂, v, hvs, hv, hfold⟩ := hparse.snoc_phrase hr
  rw [← List.reverse_cons] at hfold
  exact ⟨r, hr, rfl, top, below, target, hframes, htop, htarget, ys,
    hbelow.cons (x := .phrase r.phrase) htarget, us₁, us₂, v, hvs, hv, hfold⟩

end Path

/-! ### Completing what has been read -/

/-- `ValidItem xs r n`: after the parts `xs`, the last one first, the first `n` parts of rule `r`
may have been read, within other rules. -/
inductive ValidItem : List Part → PhraseRule → Nat → Prop where
  /-- A program begins. -/
  | start {r : PhraseRule} (hr : r ∈ phraseRules) (hp : r.phrase = .program) : ValidItem [] r 0
  /-- A phrase that comes next begins. -/
  | inner {xs : List Part} {r r' : PhraseRule} {n : Nat} (h : ValidItem xs r n)
      (hx : r.parts[n]? = some (.phrase r'.phrase)) (hr : r' ∈ phraseRules) : ValidItem xs r' 0
  /-- One more part has been read. -/
  | advance {xs : List Part} {r : PhraseRule} {n : Nat} {x : Part} (h : ValidItem xs r n)
      (hx : r.parts[n]? = some x) : ValidItem (x :: xs) r (n + 1)

theorem ValidItem.mem {xs : List Part} {r : PhraseRule} {n : Nat} (h : ValidItem xs r n) :
    r ∈ phraseRules := by
  induction h with
  | start hr => exact hr
  | inner _ _ hr => exact hr
  | advance _ _ ih => exact ih

/-- Tokens that are read as the parts so far, with the phrase of the rule in the place of those
of its parts that have been read, and as certain other parts after it, are a program. -/
theorem ValidItem.exists_after {xs : List Part} {r : PhraseRule} {n : Nat}
    (h : ValidItem xs r n) :
    ∃ before after, xs.reverse = before ++ r.parts.take n ∧
      ∀ {rs ts vs}, Parses (before ++ .phrase r.phrase :: after) rs ts vs → ReadsAsProgram ts := by
  induction h with
  | start hr hp =>
    refine ⟨[], [], rfl, fun {rs ts vs} h => ?_⟩
    rw [hp] at h
    obtain ⟨root, rfl⟩ := h.exists_root
    exact ⟨rs, root, h⟩
  | @inner xs r r' n h hx _ ih =>
    obtain ⟨before, after, hxs, hprog⟩ := ih
    refine ⟨xs.reverse, r.parts.drop (n + 1) ++ after, by simp, fun {rs ts vs} hparse => ?_⟩
    have hparts : r.parts = r.parts.take n ++ .phrase r'.phrase :: r.parts.drop (n + 1) := by
      obtain ⟨hn, hget⟩ := List.getElem?_eq_some_iff.1 hx
      rw [← hget, List.getElem_cons_drop, List.take_append_drop]
    have hparse' : Parses (before ++ r.parts ++ after) rs ts vs := by
      rw [hparts]
      simpa [hxs] using hparse
    obtain ⟨_, _, _, -, hfold, -⟩ := hparse'.fold h.mem
    exact hprog hfold
  | advance _ hx ih =>
    obtain ⟨before, after, hxs, hprog⟩ := ih
    refine ⟨before, after, ?_, hprog⟩
    rw [List.take_add_one, hx, List.reverse_cons, hxs]
    simp

/-- Where a phrase is expected its rules may begin. -/
theorem ValidItem.of_expected {s : Nat} {xs : List Part}
    (hunder : ∀ r ∈ phraseRules, ∀ n, Underway s r n → ValidItem xs r n)
    (hstart : s = 0 → xs = []) {r : PhraseRule} (hr : r ∈ phraseRules)
    (h : (gotoAt s r.phrase).isSome = true) : ValidItem xs r 0 := by
  -- a statement can be expected because a list is, so lists come first
  have hnext : ∀ {r : PhraseRule}, r ∈ phraseRules → (gotoAt s r.phrase).isSome = true →
      r.phrase ≠ .statement → ValidItem xs r 0 := by
    intro r hr h hne
    rcases expected_of_gotoAt h with ⟨rfl, hp⟩ | ⟨r', hr', n, hu, hx⟩ | ⟨hp, -⟩
    · rw [hstart rfl]
      exact .start hr hp
    · exact .inner (hunder r' hr' n hu) hx hr
    · exact absurd hp hne
  rcases expected_of_gotoAt h with ⟨rfl, hp⟩ | ⟨r', hr', n, hu, hx⟩ | ⟨hp, hlist⟩
  · rw [hstart rfl]
    exact .start hr hp
  · exact .inner (hunder r' hr' n hu) hx hr
  · have hrule : ⟨2, .list, [.phrase .statement, .token .semicolon]⟩ ∈ phraseRules := by decide
    exact .inner (hnext hrule hlist (by decide)) (by simp [hp]) hr

/-- What is under way at the end of a path may have been read. -/
theorem Path.validItem {frames : List Frame} {xs : List Part} (h : Path frames xs) :
    ∀ r ∈ phraseRules, ∀ n, Underway (topState frames) r n → ValidItem xs r n := by
  induction h with
  | nil => exact fun r _ n hu => absurd hu (not_underway_start r n)
  | cons below he ih =>
    intro r hr n hu
    have hlast := passedLast_of_edge he hr hu
    cases n with
    | zero => exact hlast.elim
    | succ n =>
      obtain ⟨hx, hu' | ⟨rfl, hgoto⟩⟩ := hlast
      · exact .advance (ih r hr n hu') hx
      · exact .advance (.of_expected ih (fun hs => (below.eq_nil_of_topState hs).2) hr hgoto) hx

/-- **Nothing in vain**: what has been read as the parts of a path is the beginning of a
program. -/
theorem Path.viable {frames : List Frame} {xs : List Part} (h : Path frames xs) {rs : List Nat}
    {ts : List Token} {vs : List Node} (hparse : Parses xs.reverse rs ts vs) :
    ∃ more, ReadsAsProgram (ts ++ more) := by
  cases h with
  | nil =>
    cases hparse
    obtain ⟨rs, more, vs, hmore⟩ := exists_parses [.phrase .program]
    obtain ⟨root, rfl⟩ := hmore.exists_root
    exact ⟨more, rs, root, hmore⟩
  | @cons frames xs x s below he =>
    have h := Path.cons below he
    by_cases hs : s = 1
    · rw [h.eq_program_of_topState hs] at hparse
      obtain ⟨root, rfl⟩ := hparse.exists_root
      exact ⟨[], rs, root, by simpa using hparse⟩
    · obtain ⟨r, hr, n, hu⟩ := exists_underway he hs
      obtain ⟨before, after, hxs, hprog⟩ := (h.validItem r hr n hu).exists_after
      -- the rest of the rule and what comes after it can be read as some tokens
      obtain ⟨rs', more, vs', hmore⟩ := exists_parses (r.parts.drop n ++ after)
      rw [hxs] at hparse
      have hall := hparse.append hmore
      rw [List.append_assoc before, ← List.append_assoc (r.parts.take n), List.take_append_drop,
        ← List.append_assoc] at hall
      obtain ⟨_, _, _, -, hfold, -⟩ := hall.fold hr
      exact ⟨more, hprog hfold⟩

end CatAndMouse
