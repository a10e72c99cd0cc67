import CatAndMouse.Proofs.Tree.Build
import Mathlib.Data.List.Basic

/-!
# The leaves of trees

The frontier of a tree is the list of its leaves, from left to right. A move that gives
no distance has a leaf that no token stands for: `LeavesBut n as ls` says that the
leaves of the trees `as` are `ls` but for `n` of these. Applying a rule to the fragments
keeps the leaves in their order, and only rule 7 adds one (`LeavesBut.apply`).
-/

namespace CatAndMouse

/-- The leaves of a tree, from left to right. -/
def Node.frontier : Node → List Node
  | .number v l => [.number v l]
  | .name t l => [.name t l]
  | .facing h l => [.facing h l]
  | .chain l r => l.frontier ++ r.frontier
  | .cat n x y f | .mouse n x y f => n.frontier ++ x.frontier ++ y.frontier ++ f.frontier
  | .hole x y => x.frontier ++ y.frontier
  | .move n d => n.frontier ++ d.frontier
  | .turn n => n.frontier
  | .loop c b => c.frontier ++ b.frontier
  | .program w h b => w.frontier ++ h.frontier ++ b.frontier

/-- A tree without children is a leaf. -/
theorem Node.frontier_of_children_eq_nil {a : Node} (h : a.children = []) : a.frontier = [a] := by
  cases a <;> first | rfl | cases h

theorem Node.frontier_of_children_ne_nil {a : Node} (h : a.children ≠ []) :
    a.frontier = a.children.flatMap frontier := by
  cases a <;> simp_all [children, frontier]

/-- `LeavesBut n as ls`: the leaves of the trees `as`, from left to right, are `ls` but for `n` of
them. Each of these `n` is the distance of a move: it is one, on the line of the name, which is
the leaf right before it. -/
inductive LeavesBut : Nat → List Node → List Node → Prop where
  | nil : LeavesBut 0 [] []
  | leaf {n : Nat} {a : Node} {as ls : List Node} (ha : a.children = [])
      (rest : LeavesBut n as ls) : LeavesBut n (a :: as) (a :: ls)
  | inner {m n : Nat} {a : Node} {as ls ms : List Node} (ha : a.children ≠ [])
      (below : LeavesBut m a.children ls) (rest : LeavesBut n as ms) :
      LeavesBut (m + n) (a :: as) (ls ++ ms)
  /-- The distance of a move is left out. -/
  | move {n : Nat} {text : String} {line : Int} {as ls : List Node} (rest : LeavesBut n as ls) :
      LeavesBut (n + 1) (.move (.name text line) (.number 1 line) :: as) (.name text line :: ls)

namespace LeavesBut

variable {m n : Nat} {as bs ls ms : List Node}

/-- So many leaves are left out, and the others keep their order. -/
theorem sublist (h : LeavesBut n as ls) :
    ls.Sublist (as.flatMap Node.frontier) ∧
      (as.flatMap Node.frontier).length = ls.length + n := by
  induction h with
  | nil => exact ⟨.slnil, rfl⟩
  | leaf ha _ ih =>
    obtain ⟨hsub, hlen⟩ := ih
    rw [List.flatMap_cons, Node.frontier_of_children_eq_nil ha]
    refine ⟨hsub.cons_cons _, ?_⟩
    simp only [List.cons_append, List.nil_append, List.length_cons]
    omega
  | inner ha _ _ ih₁ ih₂ =>
    obtain ⟨hsub₁, hlen₁⟩ := ih₁
    obtain ⟨hsub₂, hlen₂⟩ := ih₂
    rw [List.flatMap_cons, Node.frontier_of_children_ne_nil ha]
    refine ⟨hsub₁.append hsub₂, ?_⟩
    simp only [List.length_append]
    omega
  | move _ ih =>
    obtain ⟨hsub, hlen⟩ := ih
    refine ⟨(hsub.cons _).cons_cons _, ?_⟩
    simp only [List.flatMap_cons, Node.frontier, List.length_append, List.length_cons,
      List.length_nil]
    omega

theorem append (h : LeavesBut m as ls) (h' : LeavesBut n bs ms) :
    LeavesBut (m + n) (as ++ bs) (ls ++ ms) := by
  induction h with
  | nil => rwa [Nat.zero_add]
  | leaf ha _ ih => exact .leaf ha ih
  | inner ha below _ _ ih =>
    rw [Nat.add_assoc, List.append_assoc]
    exact .inner ha below ih
  | move _ ih =>
    rw [Nat.succ_add]
    exact .move ih

theorem split (h : LeavesBut n (as ++ bs) ls) :
    ∃ n₁ n₂ ls₁ ls₂, n = n₁ + n₂ ∧ ls = ls₁ ++ ls₂ ∧
      LeavesBut n₁ as ls₁ ∧ LeavesBut n₂ bs ls₂ := by
  induction as generalizing n ls with
  | nil => exact ⟨0, n, [], ls, (Nat.zero_add n).symm, rfl, .nil, h⟩
  | cons a as ih =>
    cases h with
    | leaf ha rest =>
      obtain ⟨n₁, n₂, ls₁, ls₂, rfl, rfl, h₁, h₂⟩ := ih rest
      exact ⟨n₁, n₂, a :: ls₁, ls₂, rfl, rfl, .leaf ha h₁, h₂⟩
    | @inner m _ _ _ ls _ ha below rest =>
      obtain ⟨n₁, n₂, ls₁, ls₂, rfl, rfl, h₁, h₂⟩ := ih rest
      exact ⟨m + n₁, n₂, ls ++ ls₁, ls₂, by omega, by simp, .inner ha below h₁, h₂⟩
    | move rest =>
      obtain ⟨n₁, n₂, ls₁, ls₂, rfl, rfl, h₁, h₂⟩ := ih rest
      exact ⟨n₁ + 1, n₂, _ :: ls₁, ls₂, by omega, rfl, .move h₁, h₂⟩

/-- Trees that become the children of a new tree keep their leaves. -/
theorem of_children {a : Node} (h : LeavesBut n a.children ls) (ha : a.children ≠ []) :
    LeavesBut n [a] ls := by
  simpa using LeavesBut.inner ha h .nil

/-- **Applying a rule** to the fragments keeps the leaves and their order; the distance that rule 7
gives a move is the only new one. -/
theorem apply {rule : Int} {stack stack' : Fragments} (h : LeavesBut n stack.reverse ls)
    (happly : stack.apply rule = (none, stack')) :
    LeavesBut (n + if rule = 7 then 1 else 0) stack'.reverse ls := by
  obtain ⟨b, us, v, below, hb, hmakes, rfl, rfl⟩ := Fragments.apply_eq_none_iff.1 happly
  rw [List.reverse_append, List.reverse_reverse] at h
  obtain ⟨n₁, n₂, ls₁, ls₂, rfl, rfl, hbelow, hus⟩ := h.split
  have hnew : LeavesBut (n₂ + if rule = 7 then 1 else 0) [v] ls₂ := by
    simp only [← Build.eq_step_iff hb]
    cases hmakes with
    | pass => simpa using hus
    | step =>
      cases hus with
      | leaf _ rest =>
        cases rest
        exact .move .nil
      | inner hne => exact absurd rfl hne
    | _ => exact of_children (by simpa [Node.children] using hus) (List.cons_ne_nil _ _)
  rw [List.reverse_cons, Nat.add_assoc]
  exact hbelow.append hnew

end LeavesBut

end CatAndMouse
