import CatAndMouse.Fragment
import CatAndMouse.Proofs.Computation

/-!
# What rules build

`Build.Makes b us v` lists, for each rule, the trees that it takes, from left to right,
and the tree that it makes of them. The main statement is `Fragments.apply_eq_none_iff`:
applying a rule succeeds exactly if such trees lie on top of the fragments, and then
the tree takes their place.
-/

namespace CatAndMouse

theorem Node.expect_eq_ok_iff {n m : Node} {s : Shape} :
    n.expect s = .ok m ↔ n.shape = s ∧ n = m := by
  unfold expect
  split <;> simp_all

namespace Build

/-- `Makes b us v`: of the trees `us`, from left to right, the tree `v` is made. -/
inductive Makes : Build → List Node → Node → Prop where
  | program {w h b : Node} (hw : w.shape = .number) (hh : h.shape = .number) :
      Makes .program [w, h, b] (.program w h b)
  | pass {n : Node} : Makes .pass [n] n
  | chain {l r : Node} : Makes .chain [l, r] (.chain l r)
  | cat {n x y f : Node} (hn : n.shape = .name) (hx : x.shape = .number)
      (hy : y.shape = .number) (hf : f.shape = .facing) : Makes .cat [n, x, y, f] (.cat n x y f)
  | mouse {n x y f : Node} (hn : n.shape = .name) (hx : x.shape = .number)
      (hy : y.shape = .number) (hf : f.shape = .facing) :
      Makes .mouse [n, x, y, f] (.mouse n x y f)
  | hole {x y : Node} (hx : x.shape = .number) (hy : y.shape = .number) :
      Makes .hole [x, y] (.hole x y)
  /-- The distance is one, on the line of the name. -/
  | step {text : String} {line : Int} :
      Makes .step [.name text line] (.move (.name text line) (.number 1 line))
  | move {n d : Node} (hn : n.shape = .name) (hd : d.shape = .number) :
      Makes .move [n, d] (.move n d)
  | turn {n : Node} (hn : n.shape = .name) : Makes .turn [n] (.turn n)
  | loop {c b : Node} (hc : c.shape = .number) : Makes .loop [c, b] (.loop c b)

theorem take?_eq_ok_iff {b : Build} {stack below : List Node} {v : Node} :
    b.take? stack = some (.ok v, below) ↔ ∃ us, Makes b us v ∧ stack = us.reverse ++ below := by
  constructor
  · intro h
    unfold take? at h
    split at h <;> simp only [Option.some.injEq, Prod.mk.injEq, reduceCtorEq] at h
    all_goals
      obtain ⟨hv, rfl⟩ := h
      try simp only [Except.bind_eq_ok_iff, Node.expect_eq_ok_iff] at hv
    · obtain ⟨_, ⟨hw, rfl⟩, _, ⟨hh, rfl⟩, ⟨⟩⟩ := hv
      exact ⟨_, .program hw hh, rfl⟩
    · obtain ⟨⟩ := hv
      exact ⟨_, .pass, rfl⟩
    · obtain ⟨⟩ := hv
      exact ⟨_, .chain, rfl⟩
    · obtain ⟨_, ⟨hn, rfl⟩, _, ⟨hx, rfl⟩, _, ⟨hy, rfl⟩, _, ⟨hf, rfl⟩, ⟨⟩⟩ := hv
      exact ⟨_, .cat hn hx hy hf, rfl⟩
    · obtain ⟨_, ⟨hn, rfl⟩, _, ⟨hx, rfl⟩, _, ⟨hy, rfl⟩, _, ⟨hf, rfl⟩, ⟨⟩⟩ := hv
      exact ⟨_, .mouse hn hx hy hf, rfl⟩
    · obtain ⟨_, ⟨hx, rfl⟩, _, ⟨hy, rfl⟩, ⟨⟩⟩ := hv
      exact ⟨_, .hole hx hy, rfl⟩
    · rename_i n _
      obtain ⟨_, ⟨hn, rfl⟩, ⟨⟩⟩ := hv
      cases n with
      | name text line => exact ⟨_, .step, rfl⟩
      | _ => cases hn
    · obtain ⟨_, ⟨hn, rfl⟩, _, ⟨hd, rfl⟩, ⟨⟩⟩ := hv
      exact ⟨_, .move hn hd, rfl⟩
    · obtain ⟨_, ⟨hn, rfl⟩, ⟨⟩⟩ := hv
      exact ⟨_, .turn hn, rfl⟩
    · obtain ⟨_, ⟨hc, rfl⟩, ⟨⟩⟩ := hv
      exact ⟨_, .loop hc, rfl⟩
  · rintro ⟨us, h, rfl⟩
    cases h <;> simp_all [take?, Node.expect, Node.shape, bind, Except.bind, pure, Except.pure,
      oneStep, Node.line?, defaultDistance]

/-- Rule 7 is the one that gives a move its distance. -/
theorem eq_step_iff {rule : Int} {b : Build} (h : ofRules.lookup rule = some b) :
    b = .step ↔ rule = 7 := by
  have hall : ∀ rb ∈ ofRules, rb.2 = .step ↔ rb.1 = 7 := by decide
  obtain ⟨l₁, l₂, hl, -⟩ := List.lookup_eq_some_iff.1 h
  exact hall (rule, b) (by simp [hl])

end Build

/-- **Applying a rule** puts the tree that it makes in the place of the trees that it takes. -/
theorem Fragments.apply_eq_none_iff {rule : Int} {stack stack' : Fragments} :
    stack.apply rule = (none, stack') ↔
      ∃ b us v below, Build.ofRules.lookup rule = some b ∧ b.Makes us v ∧
        stack = us.reverse ++ below ∧ stack' = v :: below := by
  constructor
  · intro h
    unfold apply at h
    split at h
    · simp at h
    · next b hb =>
      split at h
      · simp at h
      · next v below htake =>
        obtain ⟨us, hmakes, hstack⟩ := Build.take?_eq_ok_iff.1 htake
        obtain ⟨-, rfl⟩ := Prod.mk.inj h
        exact ⟨b, us, v, below, hb, hmakes, hstack, rfl⟩
      · simp at h
  · rintro ⟨b, us, v, below, hb, hmakes, hstack, rfl⟩
    have htake := Build.take?_eq_ok_iff.2 ⟨us, hmakes, hstack⟩
    simp [apply, hb, htake]

end CatAndMouse
