import CatAndMouse.Proofs.FirstError
import CatAndMouse.Proofs.Tree.Build
import CatAndMouse.Proofs.Tree.Written

/-!
# The trees of programs

The trees that are read from texts are the well-formed programs, and no others. What is read from
lexemes is well formed (`Parses.wellFormed`): it is followed through the rules, each of which makes
a well-formed phrase of well-formed parts (`PhraseRule.builds_wellFormed`). And a well-formed
program is read back from its own text (`Node.readsBack_of_isProgram`).
-/

namespace CatAndMouse

variable {ids : Text.IdentClasses}

/-! ### What is read from lexemes -/

/-- The trees that lexemes leave for a part. -/
def Part.Holds (ids : Text.IdentClasses) : Part → Node → Prop
  | .token .integer, v => v.IsNumber ∧ v.IsWritable
  | .token .name, v => v.IsProgramName ids
  | .token (.heading _), v => v.IsFacing
  | .token _, _ => False
  | .phrase p, v => p.WellFormed ids v ∧ v.IsWritable

theorem Lexeme.word_of_name {l : List Char} (h : Lexeme ids .name l) :
    IsWord ids l ∧ Kind.ofWord (String.ofList l) = .name := by
  generalize hk : Kind.name = k at h
  cases h with
  | semicolon => cases hk
  | integer => cases hk
  | word h => exact ⟨h, rfl⟩

/-- The leaf of a lexeme is a number that can be written, or a name of a program, or a facing. -/
theorem Token.holds_leaves {t : Token} {us : List Node} (hl : Lexeme ids t.kind t.text.toList)
    (ht : t.leaves = .ok us) :
    List.Forall₂ (Part.Holds ids) ([Part.token t.kind].filter Part.carriesValue) us := by
  rcases leaves_eq_ok_iff.1 ht with ⟨hleaf, rfl⟩ | ⟨hleaf, v, hv, rfl⟩
  · rw [List.filter_singleton, Part.carriesValue, hleaf]
    exact .nil
  · rw [List.filter_singleton, Part.carriesValue, hleaf]
    refine .cons ?_ .nil
    cases hk : t.kind with
    | integer =>
      have hnum := isNumeral_of_ofToken hk hv
      rw [Node.ofToken_of_isNumeral hk hnum] at hv
      cases hv
      rw [← String.ofList_toList (s := t.text)] at hnum ⊢
      exact exists_writesNumber_iff.1 ⟨_, .mk t.line hnum⟩
    | name =>
      rw [hk] at hl
      obtain ⟨hword, hname⟩ := hl.word_of_name
      rw [Node.ofToken_name hk] at hv
      cases hv
      exact .mk t.line hword (by rwa [String.ofList_toList] at hname)
    | heading h =>
      rw [Node.ofToken_heading hk] at hv
      cases hv
      exact .mk h t.line
    | _ => simp [hk, Kind.isLeaf] at hleaf

/-- A tree that is no leaf can be written exactly if the trees below it can. -/
theorem Node.isWritable_iff_children {a : Node} (ha : a.children ≠ []) :
    a.IsWritable ↔ ∀ b ∈ a.children, b.IsWritable := by
  have hnumbers : a.numbers = a.children.flatMap Node.numbers := by
    cases a <;> simp_all [Node.children, Node.numbers]
  rw [IsWritable, hnumbers, List.forall_mem_flatMap]
  rfl

theorem Node.IsWritable.of_children {a : Node} (ha : a.children ≠ [])
    (h : ∀ b ∈ a.children, b.IsWritable) : a.IsWritable :=
  (isWritable_iff_children ha).2 h

theorem Node.isWritable_one (line : Int) : (Node.number 1 line).IsWritable := by
  intro v hv
  obtain rfl := List.mem_singleton.1 hv
  exact Text.isWritable_natCast.2 (exists_isNumeral_iff.1 ⟨['1'], by decide, by decide⟩)

namespace Node

theorem IsNumber.shape_eq {n : Node} (h : n.IsNumber) : n.shape = .number := by
  cases h
  rfl

theorem IsFacing.shape_eq {n : Node} (h : n.IsFacing) : n.shape = .facing := by
  cases h
  rfl

theorem IsProgramName.shape_eq {n : Node} (h : n.IsProgramName ids) : n.shape = .name := by
  cases h
  rfl

theorem IsProgramName.isWritable {n : Node} (h : n.IsProgramName ids) : n.IsWritable := by
  obtain ⟨line, -, -⟩ := h
  exact List.forall_mem_nil _

end Node

theorem builds_of_makes {rule : Nat} {b : Build} {us : List Node} {v : Node}
    (hb : Build.ofRules.lookup (rule : Int) = some b) (h : b.Makes us v) : Builds rule us v :=
  fun below => Fragments.apply_eq_none_iff.2 ⟨b, us, v, below, hb, h, rfl, rfl⟩

/-- **Rules** make well-formed phrases of well-formed parts. -/
theorem PhraseRule.builds_wellFormed {r : PhraseRule} (hr : r ∈ phraseRules) {us : List Node}
    (h : List.Forall₂ (Part.Holds ids) (r.parts.filter Part.carriesValue) us) :
    ∃ v, Builds r.number us v ∧ (Part.phrase r.phrase).Holds ids v := by
  simp only [phraseRules, List.mem_cons, List.not_mem_nil, or_false] at hr
  rcases hr with rfl | rfl | rfl | rfl | rfl | rfl | rfl | rfl | rfl | rfl | rfl | rfl | rfl | rfl
  all_goals simp only [Part.carriesValue, Kind.isLeaf, List.filter_cons, List.filter_nil,
    Bool.false_eq_true, if_false, if_true] at h
  · obtain _ | ⟨⟨hw, hw'⟩, _ | ⟨⟨hh, hh'⟩, _ | ⟨⟨hb, hb'⟩, _ | _⟩⟩⟩ := h
    exact ⟨_, builds_of_makes rfl (.program hw.shape_eq hh.shape_eq), .mk hw hh hb,
      .of_children (List.cons_ne_nil _ _) (by simp [Node.children, *])⟩
  · obtain _ | ⟨⟨hs, hs'⟩, _ | _⟩ := h
    exact ⟨_, builds_of_makes rfl .pass, .single hs, hs'⟩
  · obtain _ | ⟨⟨hl, hl'⟩, _ | ⟨⟨hs, hs'⟩, _ | _⟩⟩ := h
    exact ⟨_, builds_of_makes rfl .chain, .chain hl hs,
      .of_children (List.cons_ne_nil _ _) (by simp [Node.children, *])⟩
  · obtain _ | ⟨hn, _ | ⟨⟨hx, hx'⟩, _ | ⟨⟨hy, hy'⟩, _ | ⟨⟨hf, hf'⟩, _ | _⟩⟩⟩⟩ := h
    exact ⟨_, builds_of_makes rfl (.cat hn.shape_eq hx.shape_eq hy.shape_eq hf.shape_eq),
      .cat hn hx hy hf,
      .of_children (List.cons_ne_nil _ _) (by simp [Node.children, hn.isWritable, *])⟩
  · obtain _ | ⟨hn, _ | ⟨⟨hx, hx'⟩, _ | ⟨⟨hy, hy'⟩, _ | ⟨⟨hf, hf'⟩, _ | _⟩⟩⟩⟩ := h
    exact ⟨_, builds_of_makes rfl (.mouse hn.shape_eq hx.shape_eq hy.shape_eq hf.shape_eq),
      .mouse hn hx hy hf,
      .of_children (List.cons_ne_nil _ _) (by simp [Node.children, hn.isWritable, *])⟩
  · obtain _ | ⟨⟨hx, hx'⟩, _ | ⟨⟨hy, hy'⟩, _ | _⟩⟩ := h
    exact ⟨_, builds_of_makes rfl (.hole hx.shape_eq hy.shape_eq), .hole hx hy,
      .of_children (List.cons_ne_nil _ _) (by simp [Node.children, *])⟩
  · obtain _ | ⟨hn, _ | _⟩ := h
    have hn' := hn.isWritable
    -- the rule looks at the text and the line of the name
    obtain ⟨line, hword, hname⟩ := hn
    exact ⟨_, builds_of_makes rfl .step, .move (.mk line hword hname) (.mk 1 line),
      .of_children (List.cons_ne_nil _ _) (by simp [Node.children, hn', Node.isWritable_one])⟩
  · obtain _ | ⟨hn, _ | ⟨⟨hd, hd'⟩, _ | _⟩⟩ := h
    exact ⟨_, builds_of_makes rfl (.move hn.shape_eq hd.shape_eq), .move hn hd,
      .of_children (List.cons_ne_nil _ _) (by simp [Node.children, hn.isWritable, *])⟩
  · obtain _ | ⟨hn, _ | _⟩ := h
    exact ⟨_, builds_of_makes rfl (.turn hn.shape_eq), .turn hn, hn.isWritable⟩
  · obtain _ | ⟨⟨hc, hc'⟩, _ | ⟨⟨hb, hb'⟩, _ | _⟩⟩ := h
    exact ⟨_, builds_of_makes rfl (.loop hc.shape_eq), .loop hc hb,
      .of_children (List.cons_ne_nil _ _) (by simp [Node.children, *])⟩
  all_goals
    obtain _ | ⟨hf, _ | _⟩ := h
    refine ⟨_, builds_of_makes rfl .pass, hf, ?_⟩
    obtain ⟨heading, line⟩ := hf
    exact List.forall_mem_nil _

/-- A program that is read from lexemes is well formed, and can be written. -/
theorem Parses.wellFormed {rs : List Nat} {ts : List Token} {root : Node}
    (h : Parses [.phrase .program] rs ts [root])
    (hts : ∀ t ∈ ts, Lexeme ids t.kind t.text.toList) : root.IsProgram ids ∧ root.IsWritable := by
  obtain _ | ⟨hroot, -⟩ := h.forall₂ (fun t ht _ hus => Token.holds_leaves (hts t ht) hus)
    fun _ hr _ hus => PhraseRule.builds_wellFormed hr hus
  exact hroot

/-! ### What is read from texts -/

namespace Scanner

variable {ts : List Token}

/-- The tokens of a text are lexemes, but for the end of the input. -/
theorem lexeme_of_yields {s : Scanner ids} (hahead : s.ahead = none)
    (hfinished : s.finished = false) (h : TokenSource.Yields s ts) :
    ∀ t ∈ beforeEnd ts, Lexeme ids t.kind t.text.toList := by
  obtain ⟨d, hproper, -, hts⟩ := Cut.exists_of_yields hahead hfinished h
  intro t ht
  have hmem : t.lexeme ∈ d.lexemes ++ [(.endOfInput, [])] := by
    rw [← hts]
    exact List.mem_map_of_mem (List.takeWhile_subset _ ht)
  rcases List.mem_append.1 hmem with hmem | hmem
  · obtain ⟨p, hp, hpt⟩ := List.mem_map.1 hmem
    have hl := hproper.lexeme p hp
    rwa [show p.kind = t.kind from congrArg Prod.fst hpt,
      show p.text = t.text.toList from congrArg Prod.snd hpt] at hl
  · have hk : t.kind = .endOfInput := congrArg Prod.fst (List.mem_singleton.1 hmem)
    have hne := List.all_eq_true.1 List.all_takeWhile t ht
    exact absurd hk (of_decide_eq_true hne)

/-- A text that is accepted can be read. -/
theorem exists_yields_of_accepted {text : String} {o : Outcome (Scanner ids)} {root : Node}
    (ho : Table.standard.HaltsWith (ofText ids text) o) (hv : o.verdict = .accepted root) :
    ∃ ts, TokenSource.Yields (ofText ids text) ts := by
  rcases hall : (ofText ids text).all with ⟨ts, e?, last⟩
  obtain ⟨o', ho', hends⟩ := exists_derive?_of_all hall
  obtain rfl := ho.unique (Table.haltsWith_of_derive? ho')
  rw [hv] at hends
  rcases hends with ⟨_, -, rfl⟩ | ⟨_, hfailed, -⟩ | ⟨_, _, hfailed, -⟩
  · exact ⟨ts, yields_of_all hall⟩
  · cases hfailed
  · cases hfailed

/-- The tokens of a text that is accepted have a parse, with the tree and the rules of the run. -/
theorem exists_parses_of_accepted {text : String} {o : Outcome (Scanner ids)} {root : Node}
    (ho : Table.standard.HaltsWith (ofText ids text) o) (hv : o.verdict = .accepted root) :
    ∃ ts, TokenSource.Yields (ofText ids text) ts ∧
      Parses [.phrase .program] o.rules (beforeEnd ts) [root] := by
  obtain ⟨ts, hts⟩ := exists_yields_of_accepted ho hv
  obtain ⟨o₁, s, ho₁, hs⟩ := exists_derive?_of_yields hts (length_le_bound hts)
  obtain rfl := ho.unique (Table.haltsWith_of_derive? hs)
  exact ⟨ts, hts, halts_accepted_iff.1 ⟨o₁, Table.haltsWith_of_derive? ho₁, hv, rfl⟩⟩

end Scanner

/-- **What is read is well formed**: the tree of a text is a program, and can be written. -/
theorem isProgram_of_accepted {text : String} {o : Outcome (Scanner ids)} {root : Node}
    (ho : Table.standard.HaltsWith (Scanner.ofText ids text) o) (hv : o.verdict = .accepted root) :
    root.IsProgram ids ∧ root.IsWritable := by
  obtain ⟨ts, hts, hparse⟩ := Scanner.exists_parses_of_accepted ho hv
  exact hparse.wellFormed (Scanner.lexeme_of_yields rfl rfl hts)

namespace Node

/-- Read again, the text of the tree gives the same tree, but for lines. -/
def ReadsBack (ids : Text.IdentClasses) (a : Node) : Prop :=
  ∃ o root, Table.standard.derive? (Scanner.ofText ids a.sourceText) = some o ∧
    o.verdict = .accepted root ∧ root.same a = true

/-- **What is well formed is read**: a program whose numbers are not too large is read back from
its text, in which every distance is written out and single blanks part the words. -/
theorem readsBack_of_isProgram {a : Node} (h : a.IsProgram ids) (hv : a.IsWritable) :
    a.ReadsBack ids := by
  obtain ⟨ls, hls, hwords⟩ := exists_writes_of_isProgram h hv
  refine derive?_of_writes hls ?_
  have hlayout := lexical_intercalate hls.lexeme
  rw [sourceText, hwords, String.toList_intercalate]
  simpa [wordsOf, Function.comp_def] using hlayout

end Node

/-- **The trees of programs**: a tree that is read from a text is a well-formed program: its body
and the bodies of its loops are chains that grow to the left by a statement at a time, the fields of
its statements are leaves of the right sort, its names are words that are no keywords, and its
numbers are not negative and have at most 4300 digits. Its own text gives the same tree again. And
so does the text of any such program: these are exactly the trees that are read. -/
theorem accepted_trees_well_formed (ids : Text.IdentClasses) :
    (∀ text o root, Table.standard.HaltsWith (Scanner.ofText ids text) o →
      o.verdict = .accepted root →
      root.IsProgram ids ∧ root.IsWritable ∧ root.ReadsBack ids) ∧
    ∀ a : Node, a.IsProgram ids → a.IsWritable → a.ReadsBack ids := by
  constructor
  · intro text o root ho hv
    obtain ⟨hprogram, hwritable⟩ := isProgram_of_accepted ho hv
    exact ⟨hprogram, hwritable, Node.readsBack_of_isProgram hprogram hwritable⟩
  · intro a hprogram hwritable
    exact Node.readsBack_of_isProgram hprogram hwritable

/-- The distance that is left out, the zero and the line end are not in the text of the tree. -/
theorem accepted_trees_well_formed_stepProgram :
    ∃ o root,
      Table.standard.HaltsWith (Scanner.ofText .unicode14 "size 02 2\nbegin move tom;halt") o ∧
      o.verdict = .accepted root ∧ root.sourceText = "size 2 2 begin move tom 1 ; halt" ∧
      (root.IsProgram .unicode14 ∧ root.IsWritable ∧ root.ReadsBack .unicode14) ∧
      stepProgram.IsProgram .unicode14 ∧ stepProgram.IsWritable ∧
      stepProgram.ReadsBack .unicode14 := by
  have hrun : (Table.standard.derive?
      (Scanner.ofText .unicode14 "size 02 2\nbegin move tom;halt")).map Outcome.verdict =
        some (.accepted (.program (.number 2 1) (.number 2 1)
          (.move (.name "tom" 2) (.number 1 2)))) := by rfl
  obtain ⟨o, ho, hv⟩ := Option.map_eq_some_iff.1 hrun
  have hhalts := Table.haltsWith_of_derive? ho
  have hroot := (accepted_trees_well_formed .unicode14).1 _ o _ hhalts hv
  have htom : (Node.name "tom" 0).IsProgramName .unicode14 :=
    .mk 0 ⟨'t', ['o', 'm'], rfl, by decide, List.all_eq_true.1 (by decide)⟩ (by decide)
  have hprogram : stepProgram.IsProgram .unicode14 :=
    .mk (.mk 2 0) (.mk 2 0) (.single (.move htom (.mk 1 0)))
  -- the same numbers stand in both trees
  have hwritable : stepProgram.IsWritable := hroot.2.1
  exact ⟨o, _, hhalts, hv, by decide, hroot, hprogram, hwritable,
    (accepted_trees_well_formed .unicode14).2 stepProgram hprogram hwritable⟩

end CatAndMouse
