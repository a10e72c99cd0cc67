import CatAndMouse.Proofs.Automaton.Conservation
import CatAndMouse.Proofs.Tree.Typed

/-!
# The fragments of any run

Whatever the table, fragments come from two things: the leaves of tokens, which go onto the stack
when the tokens are taken, and rules. So what these leaves have and what rules keep is had by all
fragments, in every configuration of a run and at its end (`Launched.forall_fragments`,
`Ends.forall_fragments`). In particular no statement is built with a leaf of the wrong sort
(`fragments_well_typed`).
-/

namespace CatAndMouse

open TokenSource

variable {P : Node → Prop} {t : Table}

/-! ### Steps -/

namespace Config

variable {σ : Type} {c : Config σ} {look : Token}

theorem goTo_fragments (t : Table) (c : Config σ) (look : Token) (number : Nat) (rule : Rule) :
    (goTo t c look number rule).config.fragments = c.fragments := by
  unfold goTo
  split
  · rfl
  · split <;> rfl

theorem accept_fragments (t : Table) (c : Config σ) (look : Token) :
    (accept t c look).config.fragments = c.fragments := by
  unfold accept
  split
  · split <;> rfl
  · rfl

theorem reduce_fragments (hP : Build.Keeps P) (h : ∀ a ∈ c.fragments, P a) (t : Table)
    (look : Token) (number : Nat) :
    ∀ a ∈ (reduce t c look number).config.fragments, P a := by
  have hkept := Fragments.apply_of_keeps hP h number
  unfold reduce
  split
  · exact h
  · split <;> next happly =>
      rw [happly] at hkept
      first
      | exact hkept
      | rw [goTo_fragments]; exact hkept

variable [TokenSource σ]

/-- The leaf of the token that comes next goes onto the fragments, and nothing else. -/
theorem pull_fragments (hnext : ∀ u v, c.place.look = .ok u → Node.ofToken u = .ok v → P v)
    (h : ∀ a ∈ c.fragments, P a) : ∀ a ∈ c.pull.2.fragments, P a := by
  rw [pull_eq]
  cases hlook : c.place.look with
  | error e => exact h
  | ok u =>
    dsimp only
    cases hleaves : u.leaves with
    | error e => exact h
    | ok us =>
      rcases Token.leaves_eq_ok_iff.1 hleaves with ⟨-, rfl⟩ | ⟨-, v, hv, rfl⟩
      · exact h
      · intro a ha
        rcases List.mem_cons.1 ha with rfl | ha
        · exact hnext u a hlook hv
        · exact h a ha

/-- **One step**: what rules keep, and the leaf of the next token has, is had by all fragments
after the step if it is had by all before. -/
theorem step_fragments (hP : Build.Keeps P)
    (hnext : ∀ u v, c.place.look = .ok u → Node.ofToken u = .ok v → P v)
    (h : ∀ a ∈ c.fragments, P a) : ∀ a ∈ (step t c look).config.fragments, P a := by
  unfold step
  split
  · exact h
  · next state _ =>
    have hpull := pull_fragments
      (c := { c with frames := ⟨look.kind.symbol, state⟩ :: c.frames }) hnext h
    unfold shift
    split <;> next heq => rw [heq] at hpull; exact hpull
  · exact reduce_fragments hP h t look _
  · rw [accept_fragments]
    exact h
  · exact h

theorem launch_fragments {source : σ}
    (hnext : ∀ u v, (Place.mk source 1 0).look = .ok u → Node.ofToken u = .ok v → P v) :
    ∀ a ∈ (launch source).config.fragments, P a := by
  have hpull := pull_fragments (c := (initial source).recordStack) hnext (List.forall_mem_nil P)
  unfold launch
  split <;> next heq => rw [heq] at hpull; exact hpull

end Config

/-! ### Runs -/

section Runs

variable {ts : List Token} {k n : Nat} {c : Config (List Token)} {look : Token}
  {o : Outcome (List Token)}

/-- A token that a run over a list looks at and that has a leaf is one of the list. -/
theorem mem_of_lookAt {u : Token} {v : Node} (h : lookAt n ts = .ok u)
    (hv : Node.ofToken u = .ok v) : u ∈ ts := by
  rw [lookAt_list] at h
  cases hget : ts[n]? with
  | some u' =>
    rw [hget] at h
    cases h
    exact List.mem_of_getElem? hget
  | none =>
    rw [hget] at h
    cases h
    cases hv

theorem Launched.look_place (h : Launched t ts k c look) : c.place.look = lookAt (k + 1) ts := by
  rw [h.place_eq, lookAt]

section Keeps

variable (hts : ∀ u ∈ ts, ∀ v, Node.ofToken u = .ok v → P v)
include hts

theorem launch_fragments_list : ∀ a ∈ (Config.launch ts).config.fragments, P a :=
  Config.launch_fragments fun u v hu hv => hts u (mem_of_lookAt (n := 0) hu hv) v hv

variable (hP : Build.Keeps P)
include hP

theorem Launched.step_fragments (h : Launched t ts k c look) (hc : ∀ a ∈ c.fragments, P a) :
    ∀ a ∈ (Config.step t c look).config.fragments, P a := by
  refine Config.step_fragments hP (fun u v hu hv => ?_) hc
  rw [h.look_place] at hu
  exact hts u (mem_of_lookAt hu hv) v hv

/-- **What runs keep**: a property that rules keep and that the leaves of the tokens have is had by
all fragments, wherever the run comes. -/
theorem Launched.forall_fragments (h : Launched t ts k c look) : ∀ a ∈ c.fragments, P a := by
  induction h with
  | first h =>
    have hkept := launch_fragments_list hts
    rw [h] at hkept
    exact hkept
  | shift h _ hnext ih =>
    have hkept := h.step_fragments hts hP ih
    rw [hnext] at hkept
    exact hkept
  | stay h _ hnext ih =>
    have hkept := h.step_fragments hts hP ih
    rw [hnext] at hkept
    exact hkept

/-- The fragments that are left at the end of a run have it too. -/
theorem Ends.forall_fragments (h : Ends t ts n o) : ∀ a ∈ o.config.fragments, P a := by
  rcases h.exists_halt with ⟨hlaunch, -⟩ | ⟨k, c, look, hc, hhalt, -⟩
  · have hkept := launch_fragments_list hts
    rw [hlaunch] at hkept
    exact hkept
  · have hkept := hc.step_fragments hts hP (hc.forall_fragments hts hP)
    rw [hhalt] at hkept
    exact hkept

end Keeps

end Runs

/-! ### Typed fragments -/

/-- The tree has leaves of the right sort in its fields, and its facings are those of tokens of the
list. -/
structure Node.TypedOver (ts : List Token) (a : Node) : Prop where
  fields : a.FieldTyped
  facings : ∀ heading line, .facing heading line ∈ a.frontier →
    ∃ u ∈ ts, u.kind = .heading heading ∧ u.line = line

/-- The leaf of a token is a number that is not negative, or a name, or a facing. -/
theorem Node.fieldTyped_of_ofToken {u : Token} {v : Node} (h : Node.ofToken u = .ok v) :
    v.FieldTyped := by
  unfold ofToken at h
  split at h
  · split at h
    · cases h
    · split at h <;> cases h
      exact Int.natCast_nonneg _
  · cases h
    trivial
  · cases h
    trivial
  · cases h

theorem Node.kind_of_ofToken_facing {u : Token} {heading : Heading} {line : Int}
    (h : Node.ofToken u = .ok (.facing heading line)) :
    u.kind = .heading heading ∧ u.line = line := by
  unfold ofToken at h
  split at h
  · split at h
    · cases h
    · split at h <;> cases h
  · cases h
  · next hkind =>
    cases h
    exact ⟨hkind, rfl⟩
  · cases h

/-- A leaf of a token of the list. -/
def IsLeafOf (ts : List Token) (l : Node) : Prop := ∃ u ∈ ts, Node.ofToken u = .ok l

theorem Node.leavesFrom_of_ofToken {ts : List Token} {u : Token} {v : Node} (hu : u ∈ ts)
    (hv : Node.ofToken u = .ok v) : v.LeavesFrom (IsLeafOf ts) := by
  intro l hl
  rw [frontier_of_children_eq_nil (children_of_ofToken hv), List.mem_singleton] at hl
  exact .inl ⟨u, hu, hl ▸ hv⟩

theorem Node.TypedOver.of_leavesFrom {ts : List Token} {a : Node} (hfields : a.FieldTyped)
    (hleaves : a.LeavesFrom (IsLeafOf ts)) : a.TypedOver ts := by
  refine ⟨hfields, fun heading line hl => ?_⟩
  rcases hleaves _ hl with ⟨u, hu, hv⟩ | ⟨line, hline⟩
  · exact ⟨u, hu, kind_of_ofToken_facing hv⟩
  · cases hline

/-- **Fragments are well typed**, whatever the table: wherever a run over a list of tokens comes,
and also where it ends, the fields of all fragments are leaves of the right sort, and their facings
are those of tokens of the list. So this holds of any tree that is accepted. -/
theorem fragments_well_typed (t : Table) (ts : List Token) :
    (∀ k c look, Launched t ts k c look → ∀ a ∈ c.fragments, a.TypedOver ts) ∧
    (∀ o, t.HaltsWith ts o → (∀ a ∈ o.config.fragments, a.TypedOver ts) ∧
      ∀ root, o.verdict = .accepted root → root.TypedOver ts) := by
  have hP := Build.keeps_fieldTyped.and (Build.keeps_leavesFrom (IsLeafOf ts))
  have hts : ∀ u ∈ ts, ∀ v, Node.ofToken u = .ok v →
      v.FieldTyped ∧ v.LeavesFrom (IsLeafOf ts) := fun u hu v hv =>
    ⟨Node.fieldTyped_of_ofToken hv, Node.leavesFrom_of_ofToken hu hv⟩
  have htyped : ∀ {fragments : Fragments},
      (∀ a ∈ fragments, a.FieldTyped ∧ a.LeavesFrom (IsLeafOf ts)) →
      ∀ a ∈ fragments, a.TypedOver ts := fun h a ha =>
    .of_leavesFrom (h a ha).1 (h a ha).2
  constructor
  · intro k c look h
    exact htyped (h.forall_fragments hts hP)
  · intro o ho
    obtain ⟨n, hn⟩ := haltsWith_iff_ends.1 ho
    have hend := htyped (hn.forall_fragments hts hP)
    refine ⟨hend, fun root hv => ?_⟩
    obtain ⟨k, look, -, -, -, hfragments⟩ := hn.exists_launched hv
    exact hend root (by rw [hfragments]; exact List.mem_singleton_self root)

/-- A corrupt table: it accepts a heading on its own. -/
def headingTable : Table where
  symbols := Table.standard.symbols
  actions :=
    [[(.heading .north, .shift 1)], [(.endOfInput, .accept)]].map fun (row : List (Kind × Action)) =>
      Kind.all.map fun k => (row.lookup k).getD .error
  gotos := List.replicate 2 [none, none, none, none]
  rules := []
  states := 2

/-- A heading on its own. -/
def northOnly : List Token := [⟨.heading .north, "north", 3, 1⟩]

/-- The tree that is accepted is no program, but its heading is that of a token. -/
theorem fragments_well_typed_headingTable :
    ∃ o, headingTable.HaltsWith northOnly o ∧
      o.verdict = .accepted (.facing .north 3) ∧
      (Node.facing .north 3).TypedOver northOnly := by
  have hrun : (headingTable.derive? northOnly).map Outcome.verdict =
      some (.accepted (.facing .north 3)) := by rfl
  obtain ⟨o, ho, hv⟩ := Option.map_eq_some_iff.1 hrun
  have hhalts := Table.haltsWith_of_derive? ho
  exact ⟨o, hhalts, hv, ((fragments_well_typed headingTable _).2 o hhalts).2 _ hv⟩

end CatAndMouse
