import CatAndMouse.Proofs.Grammar.Phrase
import CatAndMouse.Table.Standard
import Mathlib.Tactic.ByContra

/-!
# The standard table as a graph

The states of the standard table are the nodes of a graph; an edge leads over a
part, by a shift or by a target. Two annotations say what the states mean.
`Underway s r d` says that in state `s` the first `d` parts of rule `r` have just
been read, and `follow p` lists the tokens that can stand after a phrase. The
table and the annotations are finite, so what ties them together is checked by
computation: `passedLast_of_edge` for the way into a state, `exists_walk` for the
way out of it.
-/

namespace CatAndMouse

theorem Kind.mem_all (k : Kind) : k ∈ Kind.all := by
  cases k with
  | heading h => cases h <;> decide
  | _ => decide

/-! ### Actions and edges -/

/-- What the standard table does in a state, facing a token. -/
def actionAt (s : Nat) (k : Kind) : Action :=
  ((Table.standardActions[s]?.getD []).lookup k).getD .error

/-- Where the standard table goes from a state, over a phrase. -/
def gotoAt (s : Nat) (p : Phrase) : Option Nat :=
  ((Table.standardGotos.lookup s).getD []).lookup p.symbol

namespace Table

theorem standard_columnOf_kind (k : Kind) :
    standard.columnOf k.symbol = .ok (Kind.all.idxOf k) := by
  cases k with
  | heading h => cases h <;> rfl
  | _ => rfl

theorem getElem?_all_idxOf (k : Kind) : Kind.all[Kind.all.idxOf k]? = some k := by
  cases k with
  | heading h => cases h <;> rfl
  | _ => rfl

theorem standard_actionOf (s : Nat) (k : Kind) :
    standard.actionOf s k.symbol = .ok (actionAt s k) := by
  rw [actionOf, standard_columnOf_kind, Except.map, cellAt?_natCast]
  simp only [standard, List.getElem?_map, actionAt]
  cases hs : standardActions[s]? with
  | none => rfl
  | some row =>
    simp [getElem?_all_idxOf]

theorem standard_columnOf_phrase (p : Phrase) :
    standard.columnOf p.symbol = .ok (18 + standardNonterminals.idxOf p.symbol) := by
  cases p <;> rfl

/-- Beyond the last state there is no target. -/
theorem lookup_standardGotos_of_le {s : Nat} (hs : 38 ≤ s) : standardGotos.lookup s = none := by
  rw [List.lookup_eq_none_iff]
  simp only [standardGotos, List.mem_cons, List.not_mem_nil, or_false]
  rintro p (rfl | rfl | rfl | rfl | rfl | rfl | rfl) <;> simp <;> omega

theorem standard_gotoOf (s : Nat) (p : Phrase) :
    standard.gotoOf s p.symbol = .ok (gotoAt s p) := by
  have hcol : standardNonterminals[standardNonterminals.idxOf p.symbol]? = some p.symbol := by
    cases p <;> rfl
  rw [gotoOf, standard_columnOf_phrase, Except.map,
    if_neg (show ¬ 18 + standardNonterminals.idxOf p.symbol < standard.symbols.terminals.length
      from Nat.not_lt.2 (Nat.le_add_right ..)),
    show 18 + standardNonterminals.idxOf p.symbol - standard.symbols.terminals.length
      = standardNonterminals.idxOf p.symbol from Nat.add_sub_cancel_left .., cellAt?_natCast]
  simp only [standard, List.getElem?_map, gotoAt]
  by_cases hs : s < 38
  · simp [standardStates, hs, hcol]
  · rw [lookup_standardGotos_of_le (Nat.not_lt.1 hs)]
    simp [standardStates, hs]

/-- The rules of the standard table are those of the productions. -/
theorem standard_rule {n : Int} {p : Production} (h : (n, p) ∈ standardProductions) :
    standard.rule n = .ok p.rule := by
  have hall : ∀ np ∈ standardProductions, standard.rules.lookup np.1 = some np.2.rule := by
    decide +kernel
  rw [rule, hall (n, p) h]

end Table

/-- Where an edge leads from a state. -/
def edge (s : Nat) : Part → Option Nat
  | .token k =>
    match actionAt s k with
    | .shift s' => some s'
    | _ => none
  | .phrase p => gotoAt s p

/-- Where a way leads from a state, edge by edge. -/
def walk (s : Nat) : List Part → Option Nat
  | [] => some s
  | x :: xs => (edge s x).bind fun s' => walk s' xs

theorem edge_token_eq_some_iff {s s' : Nat} {k : Kind} :
    edge s (.token k) = some s' ↔ actionAt s k = .shift s' := by
  cases h : actionAt s k <;> simp [edge, h]

/-! ### Annotations -/

/-- For each state, the rules under way and how many of their parts have been read. -/
def underwayRules : List (List (Nat × Nat)) :=
  [[], [], [(1, 1)], [(1, 2)], [(1, 3)], [(1, 4)], [(1, 5), (3, 1)], [(2, 1)], [(4, 1)], [(5, 1)],
   [(6, 1)], [(7, 1), (8, 1)], [(9, 1)], [(10, 1)], [(1, 6)], [(3, 2)], [(2, 2)], [(4, 2)],
   [(5, 2)], [(6, 2)], [(7, 2), (8, 2)], [(9, 2)], [(10, 2)], [(3, 3)], [(4, 3)], [(5, 3)],
   [(6, 3)], [(8, 3)], [(10, 3), (3, 1)], [(4, 4)], [(5, 4)], [(10, 4)], [(4, 5)], [(11, 1)],
   [(12, 1)], [(13, 1)], [(14, 1)], [(5, 5)]]

/-- In the state, a number of parts of the rule have just been read. -/
def Underway (s : Nat) (r : PhraseRule) (read : Nat) : Prop :=
  (r.number, read) ∈ underwayRules[s]?.getD []

instance (s : Nat) (r : PhraseRule) (read : Nat) : Decidable (Underway s r read) :=
  inferInstanceAs (Decidable (_ ∈ _))

/-- The first tokens of a statement. -/
def statementStarts : List Kind := [.cat, .mouse, .hole, .move, .clockwise, .loop]

/-- The tokens with which a part can begin. -/
def firsts : Part → List Kind
  | .token k => [k]
  | .phrase .program => [.size]
  | .phrase .list | .phrase .statement => statementStarts
  | .phrase .direction => Heading.all.map .heading

/-- The tokens that can stand after a phrase. -/
def follow : Phrase → List Kind
  | .program => [.endOfInput]
  | .list => .halt :: .done :: statementStarts
  | .statement | .direction => [.semicolon]

/-- The tokens with which parts can begin; without parts, the token that comes next. -/
def startsOf (next : Kind) : List Part → List Kind
  | [] => [next]
  | x :: _ => firsts x

/-- What comes after each phrase among the parts can stand there; `next` comes after the last. -/
def Followed (next : Kind) : List Part → Prop
  | [] => True
  | .token _ :: xs => Followed next xs
  | .phrase p :: xs => (∀ k ∈ startsOf next xs, k ∈ follow p) ∧ Followed next xs

instance decidableFollowed (next : Kind) : (xs : List Part) → Decidable (Followed next xs)
  | [] => inferInstanceAs (Decidable True)
  | .token _ :: xs => decidableFollowed next xs
  | .phrase _ :: xs =>
    have := decidableFollowed next xs
    inferInstanceAs (Decidable (_ ∧ _))

/-! ### What the table and the annotations have in common -/

/-- All the parts. -/
def Part.all : List Part :=
  Kind.all.map .token ++ [.phrase .program, .phrase .list, .phrase .statement, .phrase .direction]

theorem Part.mem_all (x : Part) : x ∈ Part.all := by
  cases x with
  | token k => exact List.mem_append_left _ (List.mem_map_of_mem k.mem_all)
  | phrase p => cases p <;> exact List.mem_append_right _ (by decide)

theorem actionAt_of_le {s : Nat} (hs : 38 ≤ s) (k : Kind) : actionAt s k = .error := by
  have hlen : Table.standardActions.length = 38 := rfl
  rw [actionAt, List.getElem?_eq_none (by omega)]
  rfl

/-- A state in which a token is no error is a state of the table. -/
theorem lt_of_actionAt {s : Nat} {k : Kind} {a : Action} (h : actionAt s k = a)
    (ha : a ≠ .error) : s < 38 := by
  by_contra hs
  exact ha (h.symm.trans (actionAt_of_le (Nat.not_lt.1 hs) k))

theorem gotoAt_of_le {s : Nat} (hs : 38 ≤ s) (p : Phrase) : gotoAt s p = none := by
  rw [gotoAt, Table.lookup_standardGotos_of_le hs]
  rfl

/-- A state from which an edge leads is a state of the table. -/
theorem lt_of_edge {s s' : Nat} {x : Part} (h : edge s x = some s') : s < 38 := by
  cases x with
  | token k => exact lt_of_actionAt (edge_token_eq_some_iff.1 h) nofun
  | phrase p =>
    by_contra hs
    rw [edge, gotoAt_of_le (Nat.not_lt.1 hs)] at h
    cases h

/-- Over the edge, the last of the parts that have been read was passed: before it, the others
had been read, or the phrase of the rule was expected. -/
def PassedLast (s : Nat) (x : Part) (r : PhraseRule) : Nat → Prop
  | 0 => False
  | n + 1 => r.parts[n]? = some x ∧ (Underway s r n ∨ n = 0 ∧ (gotoAt s r.phrase).isSome = true)

instance (s : Nat) (x : Part) (r : PhraseRule) : (read : Nat) → Decidable (PassedLast s x r read)
  | 0 => inferInstanceAs (Decidable False)
  | _ + 1 => inferInstanceAs (Decidable (_ ∧ _))

/-- **The way into a state**: the edge passes the last of the parts that have been read of each
rule under way. -/
theorem passedLast_of_edge {s s' : Nat} {x : Part} {r : PhraseRule} {read : Nat}
    (he : edge s x = some s') (hr : r ∈ phraseRules) (h : Underway s' r read) :
    PassedLast s x r read := by
  have hall : ∀ s < 38, ∀ x ∈ Part.all, ∀ s' ∈ (edge s x).toList,
      ∀ i ∈ underwayRules[s']?.getD [], ∀ r ∈ phraseRules, r.number = i.1 →
        PassedLast s x r i.2 := by
    decide +kernel
  exact hall s (lt_of_edge he) x x.mem_all s' (Option.mem_toList.2 he) _ h r hr rfl

/-- **The way out of a state**: where a phrase is expected, all the parts of its rules can be
passed; then the rule is used, whatever token after the phrase comes next. -/
theorem exists_walk {s : Nat} {r : PhraseRule} (hr : r ∈ phraseRules)
    (h : (gotoAt s r.phrase).isSome = true) :
    ∃ e, walk s r.parts = some e ∧ ∀ k ∈ follow r.phrase, actionAt e k = .reduce r.number := by
  have hall : ∀ s < 38, ∀ r ∈ phraseRules, (gotoAt s r.phrase).isSome = true →
      (walk s r.parts).isSome = true ∧ ∀ e ∈ (walk s r.parts).toList,
        ∀ k ∈ follow r.phrase, actionAt e k = .reduce r.number := by
    decide +kernel
  obtain ⟨s', hs'⟩ := Option.isSome_iff_exists.1 h
  obtain ⟨hsome, hred⟩ := hall s (lt_of_edge (x := .phrase r.phrase) hs') r hr h
  obtain ⟨e, he⟩ := Option.isSome_iff_exists.1 hsome
  exact ⟨e, he, hred e (Option.mem_toList.2 he)⟩

/-- What can follow a phrase can follow the last part of its rules. -/
theorem followed_parts {r : PhraseRule} (hr : r ∈ phraseRules) {k : Kind}
    (hk : k ∈ follow r.phrase) : Followed k r.parts := by
  have hall : ∀ r ∈ phraseRules, ∀ k ∈ follow r.phrase, Followed k r.parts := by decide
  exact hall r hr k hk

/-- What can begin the parts of a rule can begin its phrase. -/
theorem firsts_of_parts {r : PhraseRule} (hr : r ∈ phraseRules) :
    ∃ x xs, r.parts = x :: xs ∧ ∀ k ∈ firsts x, k ∈ firsts (.phrase r.phrase) := by
  have hall : ∀ r ∈ phraseRules, ∀ x ∈ r.parts.head?.toList,
      ∀ k ∈ firsts x, k ∈ firsts (.phrase r.phrase) := by decide
  have hne : ∀ r ∈ phraseRules, r.parts ≠ [] := by decide
  obtain ⟨x, xs, hparts⟩ := List.exists_cons_of_ne_nil (hne r hr)
  exact ⟨x, xs, hparts, hall r hr x (by simp [hparts])⟩

/-- The rule of a reduction. -/
def Action.reduction? : Action → Option Nat
  | .reduce n => some n
  | _ => none

theorem mem_reduction? {s n : Nat} {k : Kind} (h : actionAt s k = .reduce n) :
    n ∈ (actionAt s k).reduction?.toList := by
  simp [h, Action.reduction?]

/-- **Reductions**: a rule is used when all of its parts have been read, and never while a
token with a value waits. -/
theorem underway_of_reduce {s n : Nat} {k : Kind} (h : actionAt s k = .reduce n) :
    k.isLeaf = false ∧ ∃ r ∈ phraseRules, r.number = n ∧ Underway s r r.parts.length := by
  have hall : ∀ s < 38, ∀ k ∈ Kind.all, ∀ n ∈ (actionAt s k).reduction?.toList,
      k.isLeaf = false ∧ ∃ r ∈ phraseRules, r.number = n ∧ Underway s r r.parts.length := by
    decide +kernel
  exact hall s (lt_of_actionAt h nofun) k k.mem_all n (mem_reduction? h)

/-- The table accepts in one state only, at the end of the input. -/
theorem eq_of_accept {s : Nat} {k : Kind} (h : actionAt s k = .accept) :
    s = 1 ∧ k = .endOfInput := by
  have hall : ∀ s < 38, ∀ k ∈ Kind.all, actionAt s k = .accept → s = 1 ∧ k = .endOfInput := by
    decide +kernel
  exact hall s (lt_of_actionAt h nofun) k k.mem_all h

/-- The end of the input is never shifted. -/
theorem edge_endOfInput (s : Nat) : edge s (.token .endOfInput) = none := by
  have hall : ∀ s < 38, edge s (.token .endOfInput) = none := by decide +kernel
  by_cases hs : s < 38
  · exact hall s hs
  · exact Option.eq_none_iff_forall_ne_some.2 fun _ he => hs (lt_of_edge he)

/-- A program leads to the accepting state, from the first state only. -/
theorem eq_of_edge_one {s : Nat} {x : Part} (h : edge s x = some 1) :
    s = 0 ∧ x = .phrase .program := by
  have hall : ∀ s < 38, ∀ x ∈ Part.all, edge s x = some 1 → s = 0 ∧ x = .phrase .program := by
    decide +kernel
  exact hall s (lt_of_edge h) x x.mem_all h

/-- No edge leads back to the first state. -/
theorem edge_ne_zero (s : Nat) (x : Part) : edge s x ≠ some 0 := by
  have hall : ∀ s < 38, ∀ x ∈ Part.all, edge s x ≠ some 0 := by decide +kernel
  exact fun h => hall s (lt_of_edge h) x x.mem_all h

/-- A rule is under way in every state that an edge leads to, but the accepting one. -/
theorem exists_underway {s s' : Nat} {x : Part} (he : edge s x = some s') (hs : s' ≠ 1) :
    ∃ r ∈ phraseRules, ∃ n, Underway s' r n := by
  have hall : ∀ s < 38, ∀ x ∈ Part.all, ∀ s' ∈ (edge s x).toList, s' ≠ 1 →
      ∃ r ∈ phraseRules, ∃ i ∈ underwayRules[s']?.getD [], Underway s' r i.2 := by
    decide +kernel
  obtain ⟨r, hr, i, -, hi⟩ :=
    hall s (lt_of_edge he) x x.mem_all s' (Option.mem_toList.2 he) hs
  exact ⟨r, hr, i.2, hi⟩

/-- Why a phrase is expected in a state: as the program, as the next part of a rule under way,
or as the first part of a phrase that comes before it in the list of rules. -/
theorem expected_of_gotoAt {s : Nat} {p : Phrase} (h : (gotoAt s p).isSome = true) :
    (s = 0 ∧ p = .program) ∨
      (∃ r ∈ phraseRules, ∃ n, Underway s r n ∧ r.parts[n]? = some (.phrase p)) ∨
      p = .statement ∧ (gotoAt s .list).isSome = true := by
  have hall : ∀ s < 38, ∀ p ∈ [Phrase.program, .list, .statement, .direction],
      (gotoAt s p).isSome = true → (s = 0 ∧ p = .program) ∨
        (∃ r ∈ phraseRules, ∃ i ∈ underwayRules[s]?.getD [], Underway s r i.2 ∧
          r.parts[i.2]? = some (.phrase p)) ∨
        p = .statement ∧ (gotoAt s .list).isSome = true := by
    decide +kernel
  obtain ⟨s', hs'⟩ := Option.isSome_iff_exists.1 h
  have hp : p ∈ [Phrase.program, .list, .statement, .direction] := by cases p <;> decide
  rcases hall s (lt_of_edge (x := .phrase p) hs') p hp h with h | ⟨r, hr, i, -, hi⟩ | h
  · exact .inl h
  · exact .inr (.inl ⟨r, hr, i.2, hi⟩)
  · exact .inr (.inr h)

end CatAndMouse
