import CatAndMouse.Proofs.Text.Lines
import CatAndMouse.Proofs.Tree.Image
import CatAndMouse.Proofs.Tree.Frontier
import CatAndMouse.Tree.Printer

/-!
# Outlines of trees

An outline has a line for each node, with the nodes below it on the lines that follow. The labels of
leaves may be any words, those of other nodes among them, so a line alone does not say what it is
about. But a title says how many fields come next, and of which sort each of them is
(`Shape.fields`), and a label of a leaf is all there is to it once its sort is known. So the
outline of a program can be read from above, whatever follows it (`Node.told`), and two programs
with one outline are the same but for lines (`outline_unambiguous`).

There is an outline if the numbers of the tree can be written, and its height and the room for its
longest line are within the limits (`Node.outline_eq_ok_iff`).
-/

namespace CatAndMouse

open Text

variable {ids : IdentClasses} {limits : Limits}

theorem exists_of_forall₂ {α β : Type} {R : α → β → Prop} {as : List α} {bs : List β}
    (h : List.Forall₂ R as bs) : ∀ a ∈ as, ∃ b, R a b :=
  ((List.forall₂_and_left _ _).1 (h.imp fun _ b hb => And.intro (Exists.intro b hb) hb)).1

/-! ### Titles and words -/

theorem Shape.lineEnd_not_mem_title (s : Shape) : '\n' ∉ s.title.toList := by
  cases s <;> decide

theorem Heading.lineEnd_not_mem_word (h : Heading) : '\n' ∉ h.word.toList := by
  cases h <;> decide

/-! ### Fields -/

/-- The sorts of fields. -/
inductive Field where
  | number
  | name
  | facing
  | body

/-- The fields of a node of some shape. -/
def Shape.fields : Shape → List Field
  | .number | .name | .facing => []
  | .chain => [.body, .body]
  | .cat | .mouse => [.name, .number, .number, .facing]
  | .hole => [.number, .number]
  | .move => [.name, .number]
  | .turn => [.name]
  | .loop => [.number, .body]
  | .program => [.number, .number, .body]

namespace Node

variable {a b : Node} {f : Field} {depth : Nat} {r s : List String}

/-- What programs have in a field. -/
def Fits (ids : IdentClasses) (a : Node) : Field → Prop
  | .number => a.IsNumber
  | .name => a.IsProgramName ids
  | .facing => a.IsFacing
  | .body => a.IsBody ids

/-- What is true of a tree if it is true of the trees right below is true of all trees. -/
theorem induction_children {P : Node → Prop} (node : ∀ a, (∀ c ∈ a.children, P c) → P a)
    (a : Node) : P a := by
  induction a <;> exact node _ (by simp [children, *])

/-! ### Reading an outline -/

/-- The label of a node, however many digits a number has. -/
def label (n : Node) : String :=
  match n with
  | .number v _ => toString v
  | .name t _ => t
  | .facing h _ => h.word
  | _ => n.shape.title

/-- How many levels there are below the top of a tree. -/
def height : Node → Nat
  | .number .. | .name .. | .facing .. => 0
  | .chain l r => max l.height r.height + 1
  | .cat n x y f | .mouse n x y f => max (max n.height x.height) (max y.height f.height) + 1
  | .hole x y => max x.height y.height + 1
  | .move n d => max n.height d.height + 1
  | .turn n => n.height + 1
  | .loop c b => max c.height b.height + 1
  | .program w h b => max (max w.height h.height) b.height + 1

theorem height_lt_of_mem_children {c : Node} (h : c ∈ a.children) : c.height < a.height := by
  cases a <;> grind [children, height]

theorem exists_height_eq (h : a.children ≠ []) : ∃ c ∈ a.children, a.height = c.height + 1 := by
  cases a with
  | number | name | facing => exact absurd rfl h
  | _ => simp [children, height] <;> omega

theorem height_of_children_eq_nil (h : a.children = []) : a.height = 0 := by
  cases a <;> first | rfl | cases h

theorem height_eraseLines (a : Node) : a.eraseLines.height = a.height := by
  induction a <;> simp_all [eraseLines, height]

theorem height_eq_of_same (h : a.same b = true) : a.height = b.height := by
  have herase : a.eraseLines = b.eraseLines := of_decide_eq_true h
  rw [← height_eraseLines a, herase, height_eraseLines]

/-- The height of a tree is the depth of its deepest node. -/
theorem le_of_mem_preorder {p : Nat × Node} (h : p ∈ a.preorder depth) :
    p.1 ≤ depth + a.height := by
  induction a using induction_children generalizing depth with
  | node a ih =>
    rw [preorder_eq, List.mem_cons] at h
    rcases h with rfl | h
    · exact Nat.le_add_right ..
    · obtain ⟨c, hc, h⟩ := List.mem_flatMap.1 h
      have hle := ih c hc h
      have hlt := height_lt_of_mem_children hc
      omega

theorem exists_mem_preorder (a : Node) (depth : Nat) :
    ∃ p ∈ a.preorder depth, p.1 = depth + a.height := by
  induction a using induction_children generalizing depth with
  | node a ih =>
    rw [preorder_eq]
    by_cases hleaf : a.children = []
    · rw [height_of_children_eq_nil hleaf]
      exact ⟨_, List.mem_cons_self, rfl⟩
    · obtain ⟨c, hc, hheight⟩ := exists_height_eq hleaf
      obtain ⟨p, hp, hdepth⟩ := ih c hc (depth + 1)
      refine ⟨p, List.mem_cons_of_mem _ (List.mem_flatMap.2 ⟨c, hc, hp⟩), ?_⟩
      rw [hdepth, hheight]
      omega

/-- If the node is a number it can be written. -/
def HasLabel (a : Node) : Prop := ∀ v line, a = .number v line → isWritable v = true

theorem label?_eq_some_iff {text : String} :
    a.label? = some text ↔ a.HasLabel ∧ a.label = text := by
  cases a <;> simp [label?, label, HasLabel, write?_eq_some_iff]

/-- The numbers in a tree are its nodes. -/
theorem isWritable_iff_preorder (a : Node) (depth : Nat) :
    a.IsWritable ↔ ∀ p ∈ a.preorder depth, p.2.HasLabel := by
  induction a using induction_children generalizing depth with
  | node a ih =>
    rw [preorder_eq, List.forall_mem_cons, List.forall_mem_flatMap]
    by_cases hleaf : a.children = []
    · rw [hleaf]
      cases a with
      | number | name | facing => simp [IsWritable, numbers, HasLabel]
      | _ => cases hleaf
    · have hlabel : a.HasLabel := by
        rintro v line rfl
        exact absurd rfl hleaf
      rw [isWritable_iff_children hleaf, and_iff_right hlabel]
      exact forall₂_congr fun c hc => ih c hc (depth + 1)

/-- The node has a line in an outline, at a depth. -/
structure HasLine (limits : Limits) (indent : Int) (depth : Nat) (a : Node) : Prop where
  levels : depth < limits.levels
  room : checkRun limits.room 2 (indent + depth) = .ok ()
  label : a.HasLabel

theorem outlineEntry_eq_ok_iff {indent : Int} {text : String} :
    a.outlineEntry limits indent depth = .ok text ↔
      a.HasLine limits indent depth ∧ padding (indent + depth) ++ a.label = text := by
  unfold outlineEntry
  by_cases hdeep : limits.levels ≤ depth
  · rw [if_pos hdeep]
    refine iff_of_false nofun fun h => ?_
    exact absurd hdeep (Nat.not_le.2 h.1.levels)
  · rw [if_neg hdeep]
    simp only [Except.bind_eq_ok_iff, mapError_eq_ok_iff]
    constructor
    · rintro ⟨⟨⟩, hroom, h⟩
      split at h
      · next label hlabel =>
        cases h
        obtain ⟨hwritable, rfl⟩ := label?_eq_some_iff.1 hlabel
        exact ⟨⟨Nat.lt_of_not_le hdeep, hroom, hwritable⟩, rfl⟩
      · cases h
    · rintro ⟨hline, rfl⟩
      refine ⟨(), hline.room, ?_⟩
      rw [label?_eq_some_iff.2 ⟨hline.label, rfl⟩]
      rfl

/-- The lines of the outline that is indented by some levels. -/
def entries (indent : Int) (a : Node) : List String :=
  (a.preorder 0).map fun p => padding (indent + p.1) ++ p.2.label

/-- **An outline** is made of a line for each node, if they all have one. -/
theorem outline_eq_ok_iff {indent : Int} {text : String} :
    a.outline limits indent = .ok text ↔
      (∀ p ∈ a.preorder 0, p.2.HasLine limits indent p.1) ∧
        String.intercalate "\n" (a.entries indent) = text := by
  have hentries : ∀ ls, a.outlineEntries limits indent = .ok ls ↔
      (∀ p ∈ a.preorder 0, p.2.HasLine limits indent p.1) ∧ a.entries indent = ls := by
    intro ls
    rw [outlineEntries, mapM_eq_ok_iff]
    simp only [outlineEntry_eq_ok_iff]
    rw [List.forall₂_and_left, entries, ← List.forall₂_eq_eq_eq, List.forall₂_map_left_iff]
  rw [outline, Except.map_eq_ok_iff]
  simp only [hentries]
  constructor
  · rintro ⟨_, ⟨hlines, rfl⟩, htext⟩
    exact ⟨hlines, htext⟩
  · rintro ⟨hlines, htext⟩
    exact ⟨_, ⟨hlines, rfl⟩, htext⟩

/-- **Which trees have an outline**: those whose numbers can be written, and whose height and
deepest line are within the limits. -/
theorem exists_outline_iff {k : Nat} :
    (∃ text, a.outline limits k = .ok text) ↔
      a.IsWritable ∧ a.height < limits.levels ∧
        2 * ((k : Int) + a.height) < indexBound ∧ 2 * (k + a.height) ≤ limits.room := by
  simp only [outline_eq_ok_iff, exists_and_left, exists_eq', and_true]
  rw [isWritable_iff_preorder a 0]
  constructor
  · intro h
    obtain ⟨p, hp, hdepth⟩ := exists_mem_preorder a 0
    obtain ⟨hlevels, hroom, -⟩ := h p hp
    obtain ⟨-, hindex, hroom⟩ := checkRun_eq_ok_iff.1 hroom
    exact ⟨fun p hp => (h p hp).label, by omega, by omega, by omega⟩
  · rintro ⟨hlabels, hlevels, hindex, hroom⟩ p hp
    have hle := le_of_mem_preorder hp
    refine ⟨by omega, checkRun_eq_ok_iff.2 ?_, hlabels p hp⟩
    rw [isIndex_iff, indexBound] at *
    omega

/-! ### Lines of an outline -/

theorem mem_frontier_of_mem_preorder {d : Nat} {l : Node} (h : (d, l) ∈ a.preorder depth)
    (hl : l.children = []) : l ∈ a.frontier := by
  induction a using induction_children generalizing depth with
  | node a ih =>
    rw [preorder_eq, List.mem_cons] at h
    rcases h with heq | h
    · cases heq
      rw [frontier_of_children_eq_nil hl]
      exact List.mem_singleton_self _
    · obtain ⟨c, hc, h⟩ := List.mem_flatMap.1 h
      rw [frontier_of_children_ne_nil (List.ne_nil_of_mem hc)]
      exact List.mem_flatMap.2 ⟨c, hc, ih c hc h⟩

/-- No name in the tree holds a line end. -/
def NamesInLine (a : Node) : Prop :=
  ∀ text line, Node.name text line ∈ a.frontier → '\n' ∉ text.toList

namespace NamesInLine

theorem label {d : Nat} {m : Node} (ha : a.NamesInLine) (h : (d, m) ∈ a.preorder depth) :
    '\n' ∉ m.label.toList := by
  cases m with
  | number v _ => exact lineEnd_not_mem_toString v
  | name text line => exact ha text line (mem_frontier_of_mem_preorder h rfl)
  | facing heading _ => exact heading.lineEnd_not_mem_word
  | _ => exact Shape.lineEnd_not_mem_title _

theorem of_children (ha : a.children ≠ []) (h : ∀ c ∈ a.children, c.NamesInLine) :
    a.NamesInLine := by
  intro text line hname
  rw [frontier_of_children_ne_nil ha] at hname
  obtain ⟨c, hc, hname⟩ := List.mem_flatMap.1 hname
  exact h c hc text line hname

end NamesInLine

end Node

end CatAndMouse
