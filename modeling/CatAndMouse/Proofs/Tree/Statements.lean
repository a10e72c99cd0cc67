import CatAndMouse.Tree
import Mathlib.Logic.Function.Iterate

/-!
# Statements in order

The statements of a body are collected by a loop with a list of trees that are still pending: a
chain gives way to its two parts, and any other tree is a statement. Read as a tree, a body has the
statements of its left part before those of its right part (`Node.inOrder`). The two agree for any
chains, to whichever side they grow, and the loop comes to its end after a number of rounds that
is known beforehand (`Unchaining.iterate_rounds`, `statements_in_order`).
-/

namespace CatAndMouse

namespace Node

variable {n : Node}

/-- The statements of a tree, read from left to right. -/
def inOrder : Node → List Node
  | .chain l r => l.inOrder ++ r.inOrder
  | n => [n]

theorem eq_chain_or (n : Node) : (∃ l r, n = .chain l r) ∨ n.shape ≠ .chain := by
  cases n with
  | chain l r => exact .inl ⟨l, r, rfl⟩
  | _ => exact .inr nofun

theorem inOrder_of_shape_ne (h : n.shape ≠ .chain) : n.inOrder = [n] := by
  cases n with
  | chain l r => exact absurd rfl h
  | _ => rfl

theorem shape_ne_of_mem_inOrder (n : Node) : ∀ a ∈ n.inOrder, a.shape ≠ .chain := by
  induction n with
  | chain l r ihl ihr => exact List.forall_mem_append.2 ⟨ihl, ihr⟩
  | _ =>
    intro a ha
    obtain rfl := List.mem_singleton.1 ha
    nofun

theorem length_inOrder_pos (n : Node) : 0 < n.inOrder.length := by
  induction n with
  | chain l r ihl ihr =>
    rw [inOrder, List.length_append]
    omega
  | _ => exact Nat.zero_lt_one

/-- **Pending trees** are read one after the other. -/
theorem unchain_eq_flatMap (pending : List Node) : unchain pending = pending.flatMap inOrder := by
  induction pending using unchain.induct with
  | case1 => rw [unchain, List.flatMap_nil]
  | case2 l r pending ih =>
    rw [unchain, ih]
    simp [inOrder]
  | case3 n pending hn ih =>
    have hshape : n.shape ≠ .chain := by
      rcases n.eq_chain_or with ⟨l, r, heq⟩ | hshape
      · exact absurd heq (hn l r)
      · exact hshape
    rw [unchain, ih, List.flatMap_cons, inOrder_of_shape_ne hshape, List.singleton_append]
    exact hn

theorem statements_eq_inOrder (n : Node) : n.statements = n.inOrder := by
  rw [statements, unchain_eq_flatMap, List.flatMap_singleton]

/-- Statements that follow come last, one by one. -/
theorem inOrder_chainOf (first : Node) {others : List Node} (h : ∀ a ∈ others, a.shape ≠ .chain) :
    (chainOf first others).inOrder = first.inOrder ++ others := by
  induction others generalizing first with
  | nil => exact (List.append_nil _).symm
  | cons a others ih =>
    obtain ⟨ha, hothers⟩ := List.forall_mem_cons.1 h
    calc (chainOf (.chain first a) others).inOrder
        = (first.inOrder ++ a.inOrder) ++ others := ih (.chain first a) hothers
      _ = first.inOrder ++ a :: others := by
        rw [inOrder_of_shape_ne ha, List.append_assoc, List.singleton_append]

end Node

/-! ### Round by round -/

/-- The loop between two rounds: the statements collected so far, in order, and the trees that are
pending, the next one first. -/
structure Unchaining where
  collected : List Node
  pending : List Node

namespace Unchaining

variable (s : Unchaining)

/-- A round takes the next tree. When none is pending nothing more is done. -/
def round : Unchaining → Unchaining
  | ⟨collected, []⟩ => ⟨collected, []⟩
  | ⟨collected, .chain l r :: pending⟩ => ⟨collected, l :: r :: pending⟩
  | ⟨collected, n :: pending⟩ => ⟨collected ++ [n], pending⟩

/-- A tree that is no chain is collected. -/
theorem round_of_shape_ne (collected : List Node) {n : Node} (pending : List Node)
    (h : n.shape ≠ .chain) : round ⟨collected, n :: pending⟩ = ⟨collected ++ [n], pending⟩ := by
  cases n with
  | chain l r => exact absurd rfl h
  | _ => rfl

/-- What is collected already, and then what will be. -/
def reading : List Node := s.collected ++ s.pending.flatMap Node.inOrder

/-- How many rounds the pending trees take: one for each chain and one for each statement. As the
chains of a tree are one fewer than its statements, the statements alone tell the number. -/
def rounds : List Node → Nat
  | [] => 0
  | n :: pending => 2 * n.inOrder.length - 1 + rounds pending

theorem eq_nil_of_rounds_eq_zero {pending : List Node} (h : rounds pending = 0) : pending = [] := by
  cases pending with
  | nil => rfl
  | cons n pending =>
    have := n.length_inOrder_pos
    rw [rounds] at h
    omega

/-- **One round**: the reading stays the same, and one round fewer remains. -/
theorem round_spec : s.round.reading = s.reading ∧ rounds s.round.pending = rounds s.pending - 1 := by
  obtain ⟨collected, pending⟩ := s
  cases pending with
  | nil => exact ⟨rfl, rfl⟩
  | cons n pending =>
    rcases n.eq_chain_or with ⟨l, r, rfl⟩ | hn
    · -- no part is without statements, so nothing is cut off below zero
      have hl := l.length_inOrder_pos
      have hr := r.length_inOrder_pos
      constructor
      · simp only [reading, round, List.flatMap_cons, Node.inOrder, List.append_assoc]
      · simp only [round, rounds, Node.inOrder, List.length_append]
        omega
    · rw [round_of_shape_ne collected pending hn]
      constructor
      · simp only [reading, List.flatMap_cons, Node.inOrder_of_shape_ne hn, List.append_assoc]
      · simp only [rounds, Node.inOrder_of_shape_ne hn, List.length_singleton]
        omega

/-- **All rounds**: the reading is the same after any number of them, and each is one fewer. -/
theorem iterate_spec (m : Nat) :
    (round^[m] s).reading = s.reading ∧ rounds (round^[m] s).pending = rounds s.pending - m := by
  induction m generalizing s with
  | zero => exact ⟨rfl, rfl⟩
  | succ m ih =>
    obtain ⟨hread, hrounds⟩ := s.round_spec
    obtain ⟨ihread, ihrounds⟩ := ih s.round
    rw [Function.iterate_succ_apply]
    exact ⟨ihread.trans hread, by omega⟩

/-- As long as rounds remain, a tree is pending. -/
theorem pending_iterate_ne_nil {m : Nat} (h : m < rounds s.pending) :
    (round^[m] s).pending ≠ [] := by
  intro hnil
  have hrounds := (s.iterate_spec m).2
  rw [hnil, rounds] at hrounds
  omega

/-- When no rounds remain, everything has been collected. -/
theorem iterate_rounds : round^[rounds s.pending] s = ⟨s.reading, []⟩ := by
  obtain ⟨hread, hrounds⟩ := s.iterate_spec (rounds s.pending)
  generalize round^[rounds s.pending] s = t at hread hrounds
  obtain ⟨collected, pending⟩ := t
  obtain rfl := eq_nil_of_rounds_eq_zero (hrounds.trans (Nat.sub_self _))
  rw [← hread, reading, List.flatMap_nil, List.append_nil]

end Unchaining

/-- **Statements in order.** The loop over a tree ends after one round for each chain and each
statement, with a tree pending before every round, and has then collected the statements of the
tree from left to right. Those of a chain are the ones of its left part and then the ones of its
right part; a tree that is no chain is its only statement, whatever is below it; so no statement is
a chain, and a chain made of statements has just these. -/
theorem statements_in_order :
    (∀ n : Node, n.statements = n.inOrder ∧
      Unchaining.round^[2 * n.statements.length - 1] ⟨[], [n]⟩ = ⟨n.statements, []⟩ ∧
      ∀ m < 2 * n.statements.length - 1, (Unchaining.round^[m] ⟨[], [n]⟩).pending ≠ []) ∧
    (∀ l r : Node, (Node.chain l r).statements = l.statements ++ r.statements) ∧
    (∀ n : Node, n.shape ≠ .chain → n.statements = [n]) ∧
    (∀ n : Node, ∀ a ∈ n.statements, a.shape ≠ .chain) ∧
    ∀ (first : Node) (others : List Node), (∀ a ∈ first :: others, a.shape ≠ .chain) →
      (Node.chainOf first others).statements = first :: others := by
  refine ⟨fun n => ?_, Node.statements_chain, fun n => Node.statements_of_shape_ne, fun n => ?_,
    fun first others h => ?_⟩
  · have hrounds : 2 * n.inOrder.length - 1 = Unchaining.rounds [n] := rfl
    have hreading : Unchaining.reading ⟨[], [n]⟩ = n.inOrder := by
      rw [Unchaining.reading, List.nil_append, List.flatMap_singleton]
    rw [n.statements_eq_inOrder, hrounds]
    refine ⟨rfl, ?_, fun m hm => Unchaining.pending_iterate_ne_nil ⟨[], [n]⟩ hm⟩
    rw [Unchaining.iterate_rounds ⟨[], [n]⟩, hreading]
  · rw [n.statements_eq_inOrder]
    exact n.shape_ne_of_mem_inOrder
  · obtain ⟨hfirst, hothers⟩ := List.forall_mem_cons.1 h
    rw [Node.statements_eq_inOrder, Node.inOrder_chainOf first hothers,
      Node.inOrder_of_shape_ne hfirst, List.singleton_append]

/-- A loop whose body is a chain. -/
def nestedLoop : Node :=
  .loop (.number 2 1) (.chain (.turn (.name "tom" 1)) (.turn (.name "jerry" 1)))

/-- A loop keeps its body to itself, and chains may grow to either side. -/
theorem statements_in_order_nestedLoop :
    nestedLoop.statements = [nestedLoop] ∧
      (Node.chainOf nestedLoop [.turn (.name "tom" 2), nestedLoop]).statements =
        [nestedLoop, .turn (.name "tom" 2), nestedLoop] ∧
      (Node.chain nestedLoop (.chain (.turn (.name "tom" 2)) nestedLoop)).statements =
        [nestedLoop, .turn (.name "tom" 2), nestedLoop] := by
  obtain ⟨-, happend, hself, -, hchain⟩ := statements_in_order
  have hloop : nestedLoop.statements = [nestedLoop] := hself nestedLoop (by decide)
  have hturn : (Node.turn (.name "tom" 2)).statements = [.turn (.name "tom" 2)] :=
    hself _ (by decide)
  refine ⟨hloop, hchain nestedLoop _ (by decide), ?_⟩
  rw [happend, happend, hloop, hturn]
  rfl

end CatAndMouse
