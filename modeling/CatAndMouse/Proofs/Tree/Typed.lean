import CatAndMouse.Proofs.Tree.Build
import CatAndMouse.Proofs.Tree.Frontier
import CatAndMouse.Tree.WellFormed

/-!
# What building keeps

A rule looks at the shapes of the leaves that it takes, and at nothing else. Still some
properties of trees are kept by every rule (`Build.Keeps`), in whatever order rules are applied:
fields are leaves of the right sort (`Build.keeps_fieldTyped`), and leaves come from the leaves
below (`Build.keeps_leavesFrom`). A rule that fails keeps them too, for it leaves fragments that
were there before (`Fragments.apply_of_keeps`).
-/

namespace CatAndMouse

namespace Node

/-! ### Leaves of the right sort -/

theorem isName_of_shape {n : Node} (h : n.shape = .name) : n.IsName := by
  cases n with
  | name text line => exact .mk text line
  | _ => cases h

theorem isFacing_of_shape {n : Node} (h : n.shape = .facing) : n.IsFacing := by
  cases n with
  | facing heading line => exact .mk heading line
  | _ => cases h

theorem isNumber_of_shape {n : Node} (h : n.shape = .number) (ht : n.FieldTyped) :
    n.IsNumber := by
  cases n with
  | number value line =>
    obtain ⟨value, rfl⟩ := Int.eq_ofNat_of_zero_le ht
    exact .mk value line
  | _ => cases h

/-- Every leaf of the tree is in `P`, or it is a distance of one. -/
def LeavesFrom (P : Node → Prop) (a : Node) : Prop :=
  ∀ l ∈ a.frontier, P l ∨ ∃ line, l = .number 1 line

theorem leavesFrom_of_children {P : Node → Prop} {a : Node} (ha : a.children ≠ [])
    (h : ∀ b ∈ a.children, b.LeavesFrom P) : a.LeavesFrom P := by
  intro l hl
  rw [frontier_of_children_ne_nil ha] at hl
  obtain ⟨b, hb, hl⟩ := List.mem_flatMap.1 hl
  exact h b hb l hl

end Node

/-! ### Rules -/

namespace Build

/-- `Keeps P`: trees made of trees in `P` are in `P`. -/
def Keeps (P : Node → Prop) : Prop :=
  ∀ (b : Build) (us : List Node) (v : Node), b.Makes us v → (∀ u ∈ us, P u) → P v

theorem Keeps.and {P Q : Node → Prop} (hP : Keeps P) (hQ : Keeps Q) :
    Keeps fun a => P a ∧ Q a := by
  intro b us v hmakes h
  exact ⟨hP b us v hmakes fun u hu => (h u hu).1, hQ b us v hmakes fun u hu => (h u hu).2⟩

/-- **Fields stay typed**, whichever rule is applied. -/
theorem keeps_fieldTyped : Keeps Node.FieldTyped := by
  intro b us v hmakes h
  cases hmakes with
  | program hw hh =>
    exact ⟨Node.isNumber_of_shape hw (h _ (by simp)), Node.isNumber_of_shape hh (h _ (by simp)),
      h _ (by simp)⟩
  | pass => exact h _ (by simp)
  | chain => exact ⟨h _ (by simp), h _ (by simp)⟩
  | cat hn hx hy hf =>
    exact ⟨Node.isName_of_shape hn, Node.isNumber_of_shape hx (h _ (by simp)),
      Node.isNumber_of_shape hy (h _ (by simp)), Node.isFacing_of_shape hf⟩
  | mouse hn hx hy hf =>
    exact ⟨Node.isName_of_shape hn, Node.isNumber_of_shape hx (h _ (by simp)),
      Node.isNumber_of_shape hy (h _ (by simp)), Node.isFacing_of_shape hf⟩
  | hole hx hy =>
    exact ⟨Node.isNumber_of_shape hx (h _ (by simp)), Node.isNumber_of_shape hy (h _ (by simp))⟩
  | step => exact ⟨.mk .., .mk 1 _⟩
  | move hn hd => exact ⟨Node.isName_of_shape hn, Node.isNumber_of_shape hd (h _ (by simp))⟩
  | turn hn => exact Node.isName_of_shape hn
  | loop hc => exact ⟨Node.isNumber_of_shape hc (h _ (by simp)), h _ (by simp)⟩

/-- **Leaves come from leaves**, but for the distance that rule 7 gives. -/
theorem keeps_leavesFrom (P : Node → Prop) : Keeps (Node.LeavesFrom P) := by
  intro b us v hmakes h
  cases hmakes with
  | pass => exact h _ (by simp)
  | step =>
    intro l hl
    rcases List.mem_append.1 hl with hl | hl
    · exact h _ (List.mem_singleton_self _) l hl
    · exact .inr ⟨_, List.mem_singleton.1 hl⟩
  | _ => exact Node.leavesFrom_of_children (List.cons_ne_nil _ _) h

/-- Fragments are only taken from the top, also where they do not fit. -/
theorem take?_suffix {b : Build} {stack below : List Node} {r : Except BuildError Node}
    (h : b.take? stack = some (r, below)) : below <:+ stack := by
  unfold take? at h
  split at h <;> cases h
  all_goals simp [List.suffix_cons_iff]

end Build

/-- **Applying a rule**, with or without success, leaves only fragments that were there before, and
the tree that it makes of some of them. -/
theorem Fragments.apply_of_keeps {P : Node → Prop} (hP : Build.Keeps P) {stack : Fragments}
    (h : ∀ a ∈ stack, P a) (rule : Int) : ∀ a ∈ (stack.apply rule).2, P a := by
  obtain ⟨e?, stack', happly⟩ : ∃ e? stack', stack.apply rule = (e?, stack') := ⟨_, _, rfl⟩
  rw [happly]
  cases e? with
  | none =>
    obtain ⟨b, us, v, below, -, hmakes, rfl, rfl⟩ := Fragments.apply_eq_none_iff.1 happly
    intro a ha
    rcases List.mem_cons.1 ha with rfl | ha
    · exact hP b us _ hmakes fun u hu => h u (List.mem_append_left _ (List.mem_reverse.2 hu))
    · exact h a (List.mem_append_right _ ha)
  | some e =>
    have hsuffix : stack' <:+ stack := by
      unfold apply at happly
      split at happly
      · cases happly
        exact List.suffix_refl stack
      · split at happly
        · cases happly
          exact List.suffix_refl stack
        · cases happly
        · next htake =>
          cases happly
          exact Build.take?_suffix htake
    exact fun a ha => h a (hsuffix.mem ha)

end CatAndMouse
