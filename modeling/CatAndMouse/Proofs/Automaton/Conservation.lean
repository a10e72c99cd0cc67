import CatAndMouse.Proofs.Automaton.Reading
import CatAndMouse.Proofs.Automaton.Steps
import CatAndMouse.Proofs.Tree.Frontier

/-!
# No leaf is lost

Whatever the table, the leaves of the fragments are the leaves of the tokens taken so
far, in their order, but for the distances that rule 7 gives (`Launched.leavesBut`). A
shift adds the leaf of one token on top, and a reduction only rearranges what is
there (`LeavesBut.apply`). So the tree that is accepted has the leaves of all the
tokens taken, and no others but those distances (`leaves_conserved`).
-/

namespace CatAndMouse

/-- `LeavesOf ts ls`: the leaves of the tokens that have one are `ls`. -/
def LeavesOf (ts : List Token) (ls : List Node) : Prop :=
  List.Forall₂ (fun t v => Node.ofToken t = .ok v) (ts.filter (·.kind.isLeaf)) ls

namespace LeavesOf

variable {ts : List Token} {t : Token} {ls us : List Node}

theorem of_leaves (h : t.leaves = .ok us) : LeavesOf [t] us := by
  rcases Token.leaves_eq_ok_iff.1 h with ⟨hk, rfl⟩ | ⟨hk, v, hv, rfl⟩
  · simp [LeavesOf, hk]
  · simpa [LeavesOf, hk] using hv

/-- The next token adds its leaf; the end of the input adds none. -/
theorem take_succ {k : Nat} {line : Int} (h : LeavesOf (ts.take k) ls)
    (hus : (ts[k]?.getD (Token.endAt line)).leaves = .ok us) :
    LeavesOf (ts.take (k + 1)) (ls ++ us) := by
  rw [List.take_add_one]
  cases hget : ts[k]? with
  | none =>
    rw [hget] at hus
    obtain rfl : [] = us := Except.ok.inj hus
    simpa using h
  | some t =>
    rw [hget] at hus
    rw [Option.toList_some, LeavesOf, List.filter_append]
    exact List.rel_append h (of_leaves hus)

end LeavesOf

/-- The leaf of a token has nothing below it. -/
theorem Node.children_of_ofToken {t : Token} {v : Node} (h : Node.ofToken t = .ok v) :
    v.children = [] := by
  unfold ofToken at h
  split at h
  · split at h
    · cases h
    · split at h <;> cases h
      rfl
  · cases h
    rfl
  · cases h
    rfl
  · cases h

theorem LeavesBut.of_leaves {t : Token} {us : List Node} (h : t.leaves = .ok us) :
    LeavesBut 0 us.reverse us := by
  rw [Token.reverse_leaves h]
  rcases Token.leaves_eq_ok_iff.1 h with ⟨-, rfl⟩ | ⟨-, v, hv, rfl⟩
  · exact .nil
  · exact .leaf (Node.children_of_ofToken hv) .nil

variable {t : Table} {ts : List Token} {k : Nat} {c : Config (List Token)} {look : Token}

/-- **What steps keep**: the leaves of the fragments, from the bottom to the top, are those of the
tokens taken, but for one distance for each use of rule 7. -/
theorem Launched.leavesBut (h : Launched t ts k c look) :
    ∃ ls, LeavesOf (ts.take (k + 1)) ls ∧
      LeavesBut (c.applied.count 7) c.fragments.reverse ls := by
  induction h with
  | first h =>
    obtain ⟨us, hus, rfl, happlied⟩ := Config.launch_eq_next h
    rw [(Launched.first h : Launched t ts _ _ _).look_list] at hus
    rw [happlied]
    exact ⟨_, LeavesOf.take_succ .nil hus, .of_leaves hus⟩
  | @shift k c c' look look' h hshifts hstep ih =>
    obtain ⟨ls, hls, hbut⟩ := ih
    rcases Config.step_eq_next hstep with ⟨s, -, hs⟩ | ⟨-, n, hred⟩
    · obtain ⟨us, hus, hfragments, happlied⟩ := Config.shift_eq_next hs
      rw [(Launched.shift h hshifts hstep).look_list] at hus
      rw [happlied, hfragments, List.reverse_append]
      exact ⟨_, hls.take_succ hus, hbut.append (.of_leaves hus)⟩
    · exact absurd hshifts hred.not_shifts
  | @stay k c c' look look' h hshifts hstep ih =>
    obtain ⟨ls, hls, hbut⟩ := ih
    rcases Config.step_eq_next hstep with ⟨s, ha, -⟩ | ⟨-, n, hred⟩
    · exact absurd ⟨s, ha⟩ hshifts
    · refine ⟨ls, hls, ?_⟩
      have hseven : (n : Int) = 7 ↔ n = 7 := by omega
      have happly := hbut.apply hred.apply_eq
      simpa [hred.applied_eq, List.count_cons, hseven] using happly

/-- **No leaf is lost**, nor added or moved, whatever the table: the leaves of the tree that is
accepted are those of the tokens taken, in their order, but for the distance of one that each use
of rule 7 gives a move, on the line of the name before it. -/
theorem leaves_conserved {o : Outcome (List Token)} {root : Node}
    (ho : t.HaltsWith ts o) (hv : o.verdict = .accepted root) :
    ∃ ls, LeavesOf (ts.take o.config.pulled) ls ∧ LeavesBut (o.rules.count 7) [root] ls ∧
      ls.Sublist root.frontier ∧ root.frontier.length = ls.length + o.rules.count 7 := by
  obtain ⟨n, hn⟩ := haltsWith_iff_ends.1 ho
  obtain ⟨k, look, -, hlaunched, -, hfragments⟩ := hn.exists_launched hv
  obtain ⟨ls, hls, hbut⟩ := hlaunched.leavesBut
  have hpulled : o.config.pulled = min (k + 1) ts.length := by
    have hplace := congrArg Place.pulled hlaunched.place_eq
    rw [Place.after_pulled_list] at hplace
    exact hplace.trans (Nat.zero_add _)
  rw [hfragments, List.reverse_singleton, ← List.count_reverse, ← Outcome.rules] at hbut
  obtain ⟨hsub, hlen⟩ := hbut.sublist
  rw [List.flatMap_singleton] at hsub hlen
  refine ⟨ls, ?_, hbut, hsub, hlen⟩
  rwa [hpulled, ← List.take_eq_take_min]

/-- A corrupt table: rule 7 is used facing a name, and takes its leaf. -/
def hastyTable : Table where
  symbols := Table.standard.symbols
  actions :=
    [[(.move, .shift 1)], [(.name, .shift 2)], [(.name, .reduce 7)], [(.name, .shift 4)],
      [(.semicolon, .shift 5)], [(.endOfInput, .reduce 3)],
      [(.endOfInput, .accept)]].map fun (row : List (Kind × Action)) =>
        Kind.all.map fun k => (row.lookup k).getD .error
  gotos := (List.range 7).map fun state =>
    if state = 0 then [none, some 6, some 3, none] else [none, none, none, none]
  rules := standardRules
  states := 7

/-- Two names, on two lines, where the language has one. -/
def twoNames : List Token :=
  [⟨.move, "move", 1, 1⟩, ⟨.name, "tom", 1, 6⟩, ⟨.name, "jerry", 2, 1⟩, ⟨.semicolon, ";", 2, 6⟩]

/-- The move takes the second name, and the first one comes to stand before it in the tree. -/
theorem leaves_conserved_hastyTable :
    ∃ o root, hastyTable.HaltsWith twoNames o ∧ o.verdict = .accepted root ∧
      root = .chain (.name "tom" 1) (.move (.name "jerry" 2) (.number 1 2)) ∧
      ∃ ls, LeavesOf (twoNames.take o.config.pulled) ls ∧ LeavesBut 1 [root] ls ∧
        ls.length = 2 := by
  have hrun : (hastyTable.derive? twoNames).map (fun o => (o.verdict, o.rules)) =
      some (.accepted (.chain (.name "tom" 1) (.move (.name "jerry" 2) (.number 1 2))),
        [7, 3]) := by rfl
  obtain ⟨o, ho, hpair⟩ := Option.map_eq_some_iff.1 hrun
  obtain ⟨hv, hrules⟩ := Prod.mk.inj hpair
  have hhalts := Table.haltsWith_of_derive? ho
  obtain ⟨ls, hls, hbut, -, hlen⟩ := leaves_conserved hhalts hv
  rw [hrules] at hbut hlen
  exact ⟨o, _, hhalts, hv, rfl, ls, hls, hbut, Nat.succ.inj hlen.symm⟩

end CatAndMouse
