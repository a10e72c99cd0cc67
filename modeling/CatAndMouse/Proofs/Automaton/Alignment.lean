import CatAndMouse.Proofs.Automaton.Consistency

/-!
# Frames and fragments

With the standard table the two stacks keep in line, although they are not of one length: keywords
leave no fragment, a rule takes fewer fragments than frames, and the leaf of the token looked at
lies on the fragments before the token lies on the frames. Read from the bottom, the frames with
a value and the fragments below that leaf are the same symbols (`Path.aligned`), in
every configuration of a run (`stacks_aligned`).
-/

namespace CatAndMouse

/-- The symbols that carry a value. -/
def valueSymbols : List String :=
  ["INTEGER", "VARIABLE", "NORTH", "SOUTH", "EAST", "WEST"] ++ standardNonterminals

theorem Part.symbol_mem_valueSymbols_iff (x : Part) :
    x.symbol ∈ valueSymbols ↔ x.carriesValue = true := by
  have hall : ∀ x ∈ Part.all, x.symbol ∈ valueSymbols ↔ x.carriesValue = true := by decide
  exact hall x x.mem_all

/-- The tree is one that the symbol of the name can leave. -/
def FitsSymbol (name : String) (v : Node) : Prop := ∃ x : Part, x.symbol = name ∧ x.Fits v

/-- The symbols of the frames that carry a value, from the bottom up. -/
def valuesOf (frames : List Frame) : List String :=
  (frames.reverse.map Frame.symbol).filter (· ∈ valueSymbols)

theorem Path.map_symbol {frames : List Frame} {xs : List Part} (h : Path frames xs) :
    frames.map Frame.symbol = xs.map Part.symbol := by
  induction h with
  | nil => rfl
  | cons _ _ ih => rw [List.map_cons, List.map_cons, ih]

theorem Path.valuesOf_eq {frames : List Frame} {xs : List Part} (h : Path frames xs) :
    valuesOf frames = (xs.reverse.filter Part.carriesValue).map Part.symbol := by
  rw [valuesOf, List.map_reverse, h.map_symbol, ← List.map_reverse, List.filter_map]
  congr 1
  refine List.filter_congr fun x _ => ?_
  rw [Bool.eq_iff_iff, ← x.symbol_mem_valueSymbols_iff]
  exact decide_eq_true_iff

/-- **Trees and frames**: the trees that have been read as the parts of a path are one for each of
its frames with a value, in the same order. -/
theorem Path.aligned {frames : List Frame} {xs : List Part} (h : Path frames xs) {rs : List Nat}
    {ts : List Token} {vs : List Node} (hparse : Parses xs.reverse rs ts vs) :
    List.Forall₂ FitsSymbol (valuesOf frames) vs := by
  rw [h.valuesOf_eq, List.forall₂_map_left_iff]
  exact hparse.fits.imp fun x _ hfit => ⟨x, rfl, hfit⟩

/-- **The stacks keep in line.** Wherever a run of the standard table comes, read from the bottom
the fragments are one tree for each frame with a value, such as its symbol can leave, and then the
leaf of the token looked at, if it has one. Facing a token with a leaf the table never reduces. -/
theorem stacks_aligned {ts : List Token} {k : Nat} {c : Config (List Token)} {look : Token}
    (h : Launched Table.standard ts k c look) :
    (∃ values leaf, c.fragments.reverse = values ++ leaf ∧
      List.Forall₂ FitsSymbol (valuesOf c.frames) values ∧
      (look.kind.isLeaf = true ∧ (∃ v, Node.ofToken look = .ok v ∧ leaf = [v]) ∨
        look.kind.isLeaf = false ∧ leaf = [])) ∧
    ∀ n, Table.standard.actionOf c.state look.kind.symbol = .ok (.reduce n) →
      look.kind.isLeaf = false := by
  obtain ⟨xs, values, hread⟩ := h.exists_reading
  obtain ⟨us, hus, hfragments⟩ := hread.leaves
  refine ⟨⟨values.reverse, us, ?_, hread.path.aligned hread.parse, ?_⟩, fun n ha => ?_⟩
  · rw [hfragments, List.reverse_append, Token.reverse_leaves hus]
  · rcases Token.leaves_eq_ok_iff.1 hus with ⟨hleaf, rfl⟩ | ⟨hleaf, v, hv, rfl⟩
    · exact .inr ⟨hleaf, rfl⟩
    · exact .inl ⟨hleaf, v, hv, rfl⟩
  · rw [Table.standard_actionOf] at ha
    exact (underway_of_reduce (Except.ok.inj ha)).1

/-- The first words of a program. -/
def sizeTokens : List Token :=
  [⟨.size, "size", 1, 1⟩, ⟨.integer, "4", 1, 6⟩, ⟨.integer, "5", 1, 8⟩]

/-- When the width has been shifted, the height lies on the fragments but not yet on the frames. -/
theorem stacks_aligned_sizeTokens :
    ∃ c : Config (List Token), Launched Table.standard sizeTokens 2 c ⟨.integer, "5", 1, 8⟩ ∧
      valuesOf c.frames = ["INTEGER"] ∧
      c.fragments.reverse = [.number 4 1] ++ [.number 5 1] ∧
      ∃ values leaf, c.fragments.reverse = values ++ leaf ∧
        List.Forall₂ FitsSymbol (valuesOf c.frames) values ∧ leaf = [.number 5 1] := by
  have hlaunched : Launched Table.standard sizeTokens 2 _ _ :=
    .shift (.shift (.first rfl) ⟨2, rfl⟩ rfl) ⟨3, rfl⟩ rfl
  refine ⟨_, hlaunched, rfl, rfl, ?_⟩
  obtain ⟨values, leaf, hfragments, haligned, ⟨-, v, hv, rfl⟩ | ⟨hleaf, -⟩⟩ :=
    (stacks_aligned hlaunched).1
  · cases hv
    exact ⟨values, _, hfragments, haligned, rfl⟩
  · cases hleaf

end CatAndMouse
