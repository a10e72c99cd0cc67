import CatAndMouse.Proofs.Language
import CatAndMouse.Proofs.Token.Layout
import CatAndMouse.Tree.Printer

/-!
# Programs written down

`Writes` says how a tree is written as a phrase: keywords, names and numerals in
the order of the grammar. A number may have leading zeros, and a distance of one
may be left out. Only well-formed programs can be written, and all of them can be
if their numbers are not too large (`exists_writes_iff`). What has been written
and laid out in any way is read back as the same tree (`derive?_of_writes`).
-/

namespace CatAndMouse

variable {ids : Text.IdentClasses}

/-- A keyword, or a semicolon, as a lexeme. -/
def Kind.written (k : Kind) : Kind × List Char := (k, k.spelling.toList)

/-- The number is written as the digits; there may be zeros in front of it. -/
inductive WritesNumber : Node → List Char → Prop where
  | mk {ds : List Char} (line : Int) (h : IsNumeral (String.ofList ds)) :
      WritesNumber (.number (numeralValue (String.ofList ds)) line) ds

/-- The name is written as the word. -/
inductive WritesName (ids : Text.IdentClasses) : Node → List Char → Prop where
  | mk {w : List Char} (line : Int) (hword : IsWord ids w)
      (hname : Kind.ofWord (String.ofList w) = .name) :
      WritesName ids (.name (String.ofList w) line) w

/-- `Writes ids p n ls`: the tree `n` is written, as a phrase `p`, as the lexemes `ls`. -/
inductive Writes (ids : Text.IdentClasses) : Phrase → Node → List (Kind × List Char) → Prop where
  | facing (h : Heading) (line : Int) :
      Writes ids .direction (.facing h line) [Kind.written (.heading h)]
  | cat {n x y f : Node} {w ds es : List Char} {ls : List (Kind × List Char)}
      (hn : WritesName ids n w) (hx : WritesNumber x ds) (hy : WritesNumber y es)
      (hf : Writes ids .direction f ls) :
      Writes ids .statement (.cat n x y f)
        (Kind.written .cat :: (.name, w) :: (.integer, ds) :: (.integer, es) :: ls)
  | mouse {n x y f : Node} {w ds es : List Char} {ls : List (Kind × List Char)}
      (hn : WritesName ids n w) (hx : WritesNumber x ds) (hy : WritesNumber y es)
      (hf : Writes ids .direction f ls) :
      Writes ids .statement (.mouse n x y f)
        (Kind.written .mouse :: (.name, w) :: (.integer, ds) :: (.integer, es) :: ls)
  | hole {x y : Node} {ds es : List Char} (hx : WritesNumber x ds) (hy : WritesNumber y es) :
      Writes ids .statement (.hole x y) [Kind.written .hole, (.integer, ds), (.integer, es)]
  /-- A distance of one is left out. -/
  | step {n : Node} {w : List Char} (hn : WritesName ids n w) (line : Int) :
      Writes ids .statement (.move n (.number 1 line)) [Kind.written .move, (.name, w)]
  | move {n d : Node} {w ds : List Char} (hn : WritesName ids n w) (hd : WritesNumber d ds) :
      Writes ids .statement (.move n d) [Kind.written .move, (.name, w), (.integer, ds)]
  | turn {n : Node} {w : List Char} (hn : WritesName ids n w) :
      Writes ids .statement (.turn n) [Kind.written .clockwise, (.name, w)]
  | loop {c b : Node} {ds : List Char} {ls : List (Kind × List Char)} (hc : WritesNumber c ds)
      (hb : Writes ids .list b ls) :
      Writes ids .statement (.loop c b)
        (Kind.written .loop :: (.integer, ds) :: (ls ++ [Kind.written .done]))
  | single {n : Node} {ls : List (Kind × List Char)} (hn : Writes ids .statement n ls) :
      Writes ids .list n (ls ++ [Kind.written .semicolon])
  | chain {l r : Node} {ls rs : List (Kind × List Char)} (hl : Writes ids .list l ls)
      (hr : Writes ids .statement r rs) :
      Writes ids .list (.chain l r) (ls ++ (rs ++ [Kind.written .semicolon]))
  | program {w h b : Node} {ds es : List Char} {ls : List (Kind × List Char)}
      (hw : WritesNumber w ds) (hh : WritesNumber h es) (hb : Writes ids .list b ls) :
      Writes ids .program (.program w h b)
        (Kind.written .size :: (.integer, ds) :: (.integer, es) :: Kind.written .start ::
          (ls ++ [Kind.written .halt]))

/-! ### What can be written -/

/-- The numbers in a tree. -/
def Node.numbers : Node → List Int
  | .number v _ => [v]
  | .name .. | .facing .. => []
  | .chain l r => l.numbers ++ r.numbers
  | .cat n x y f | .mouse n x y f => n.numbers ++ x.numbers ++ y.numbers ++ f.numbers
  | .hole x y => x.numbers ++ y.numbers
  | .move n d => n.numbers ++ d.numbers
  | .turn n => n.numbers
  | .loop c b => c.numbers ++ b.numbers
  | .program w h b => w.numbers ++ h.numbers ++ b.numbers

/-- No number in the tree is too large to be written. -/
def Node.IsWritable (n : Node) : Prop := ∀ v ∈ n.numbers, Text.isWritable v = true

/-- The texts of lexemes. -/
def wordsOf (ls : List (Kind × List Char)) : List String := ls.map fun kl => String.ofList kl.2

/-- A number is written without zeros in front of it. -/
theorem exists_writesNumber {x : Node} (h : x.IsNumber) (hv : x.IsWritable) :
    ∃ ds, WritesNumber x ds ∧ x.sourceWords = [String.ofList ds] := by
  obtain ⟨n, line⟩ := h
  have hlt : n < Text.writeBound :=
    Text.isWritable_natCast.1 (hv n (List.mem_singleton_self _))
  have hnum := isNumeral_toString hlt
  rw [← String.ofList_toList (s := toString n)] at hnum
  have hwrites := WritesNumber.mk line hnum
  rw [String.ofList_toList, numeralValue_toString] at hwrites
  refine ⟨_, hwrites, ?_⟩
  rw [String.ofList_toList]
  rfl

theorem exists_writesName {n : Node} (h : n.IsProgramName ids) :
    ∃ w, WritesName ids n w ∧ n.sourceWords = [String.ofList w] := by
  obtain ⟨line, hword, hname⟩ := h
  have hwrites := WritesName.mk line hword (by rwa [String.ofList_toList])
  rw [String.ofList_toList] at hwrites
  refine ⟨_, hwrites, ?_⟩
  rw [String.ofList_toList]
  rfl

theorem exists_writesNumber_iff {x : Node} :
    (∃ ds, WritesNumber x ds) ↔ x.IsNumber ∧ x.IsWritable := by
  constructor
  · rintro ⟨ds, line, hnum⟩
    refine ⟨.mk .., fun v hv => ?_⟩
    obtain rfl := List.mem_singleton.1 hv
    exact Text.isWritable_natCast.2 (exists_isNumeral_iff.1 ⟨ds, hnum, rfl⟩)
  · rintro ⟨hx, hv⟩
    obtain ⟨ds, hds, -⟩ := exists_writesNumber hx hv
    exact ⟨ds, hds⟩

theorem exists_writesName_iff {n : Node} :
    (∃ w, WritesName ids n w) ↔ n.IsProgramName ids ∧ n.IsWritable := by
  constructor
  · rintro ⟨w, line, hword, hname⟩
    refine ⟨.mk line (by rwa [String.toList_ofList]) hname, ?_⟩
    simp [Node.IsWritable, Node.numbers]
  · rintro ⟨hn, -⟩
    obtain ⟨w, hw, -⟩ := exists_writesName hn
    exact ⟨w, hw⟩

/-- The well-formed trees of a phrase. -/
def Phrase.WellFormed (ids : Text.IdentClasses) : Phrase → Node → Prop
  | .program, n => n.IsProgram ids
  | .list, n => n.IsBody ids
  | .statement, n => n.IsStatement ids
  | .direction, n => n.IsFacing

theorem Writes.wellFormed {p : Phrase} {n : Node} {ls : List (Kind × List Char)}
    (h : Writes ids p n ls) : p.WellFormed ids n ∧ n.IsWritable := by
  have number : ∀ {x ds}, WritesNumber x ds → x.IsNumber ∧ x.IsWritable := fun h =>
    exists_writesNumber_iff.1 ⟨_, h⟩
  have name : ∀ {n w}, WritesName ids n w → n.IsProgramName ids ∧ n.IsWritable := fun h =>
    exists_writesName_iff.1 ⟨_, h⟩
  simp only [Node.IsWritable] at number name ⊢
  induction h with
  | facing h line => exact ⟨.mk h line, by simp [Node.numbers]⟩
  | cat hn hx hy _ ih =>
    refine ⟨.cat (name hn).1 (number hx).1 (number hy).1 ih.1, ?_⟩
    simp only [Node.numbers, List.forall_mem_append]
    exact ⟨⟨⟨(name hn).2, (number hx).2⟩, (number hy).2⟩, ih.2⟩
  | mouse hn hx hy _ ih =>
    refine ⟨.mouse (name hn).1 (number hx).1 (number hy).1 ih.1, ?_⟩
    simp only [Node.numbers, List.forall_mem_append]
    exact ⟨⟨⟨(name hn).2, (number hx).2⟩, (number hy).2⟩, ih.2⟩
  | hole hx hy =>
    refine ⟨.hole (number hx).1 (number hy).1, ?_⟩
    simp only [Node.numbers, List.forall_mem_append]
    exact ⟨(number hx).2, (number hy).2⟩
  | step hn line =>
    have hone : WritesNumber (.number (numeralValue (String.ofList ['1'])) line) ['1'] :=
      .mk line (by decide)
    rw [show numeralValue (String.ofList ['1']) = 1 by decide] at hone
    refine ⟨.move (name hn).1 (number hone).1, ?_⟩
    simp only [Node.numbers, List.forall_mem_append]
    exact ⟨(name hn).2, (number hone).2⟩
  | move hn hd =>
    refine ⟨.move (name hn).1 (number hd).1, ?_⟩
    simp only [Node.numbers, List.forall_mem_append]
    exact ⟨(name hn).2, (number hd).2⟩
  | turn hn => exact ⟨.turn (name hn).1, (name hn).2⟩
  | loop hc _ ih =>
    refine ⟨.loop (number hc).1 ih.1, ?_⟩
    simp only [Node.numbers, List.forall_mem_append]
    exact ⟨(number hc).2, ih.2⟩
  | single _ ih => exact ⟨.single ih.1, ih.2⟩
  | chain _ _ ihl ihr =>
    refine ⟨.chain ihl.1 ihr.1, ?_⟩
    simp only [Node.numbers, List.forall_mem_append]
    exact ⟨ihl.2, ihr.2⟩
  | program hw hh _ ih =>
    refine ⟨.mk (number hw).1 (number hh).1 ih.1, ?_⟩
    simp only [Node.numbers, List.forall_mem_append]
    exact ⟨⟨(number hw).2, (number hh).2⟩, ih.2⟩

mutual

/-- A statement is written with its words, and so with its distance. -/
theorem exists_writes_of_isStatement {n : Node} (h : n.IsStatement ids) (hv : n.IsWritable) :
    ∃ ls, Writes ids .statement n ls ∧ n.sourceWords = wordsOf ls := by
  cases h with
  | cat hn hx hy hf =>
    simp only [Node.IsWritable, Node.numbers, List.forall_mem_append] at hv
    obtain ⟨w, hn, hword⟩ := exists_writesName hn
    obtain ⟨ds, hx, hds⟩ := exists_writesNumber hx hv.1.1.2
    obtain ⟨es, hy, hes⟩ := exists_writesNumber hy hv.1.2
    obtain ⟨h, line⟩ := hf
    refine ⟨_, .cat hn hx hy (.facing h line), ?_⟩
    rw [Node.sourceWords, hword, hds, hes]
    simp [Node.sourceWords, wordsOf, Kind.written, Kind.spelling]
  | mouse hn hx hy hf =>
    simp only [Node.IsWritable, Node.numbers, List.forall_mem_append] at hv
    obtain ⟨w, hn, hword⟩ := exists_writesName hn
    obtain ⟨ds, hx, hds⟩ := exists_writesNumber hx hv.1.1.2
    obtain ⟨es, hy, hes⟩ := exists_writesNumber hy hv.1.2
    obtain ⟨h, line⟩ := hf
    refine ⟨_, .mouse hn hx hy (.facing h line), ?_⟩
    rw [Node.sourceWords, hword, hds, hes]
    simp [Node.sourceWords, wordsOf, Kind.written, Kind.spelling]
  | hole hx hy =>
    simp only [Node.IsWritable, Node.numbers, List.forall_mem_append] at hv
    obtain ⟨ds, hx, hds⟩ := exists_writesNumber hx hv.1
    obtain ⟨es, hy, hes⟩ := exists_writesNumber hy hv.2
    refine ⟨_, .hole hx hy, ?_⟩
    rw [Node.sourceWords, hds, hes]
    simp [wordsOf, Kind.written, Kind.spelling]
  | move hn hd =>
    simp only [Node.IsWritable, Node.numbers, List.forall_mem_append] at hv
    obtain ⟨w, hn, hword⟩ := exists_writesName hn
    obtain ⟨ds, hd, hds⟩ := exists_writesNumber hd hv.2
    refine ⟨_, .move hn hd, ?_⟩
    rw [Node.sourceWords, hword, hds]
    simp [wordsOf, Kind.written, Kind.spelling]
  | turn hn =>
    obtain ⟨w, hn, hword⟩ := exists_writesName hn
    refine ⟨_, .turn hn, ?_⟩
    rw [Node.sourceWords, hword]
    simp [wordsOf, Kind.written, Kind.spelling]
  | loop hc hb =>
    simp only [Node.IsWritable, Node.numbers, List.forall_mem_append] at hv
    obtain ⟨ds, hc, hds⟩ := exists_writesNumber hc hv.1
    obtain ⟨ls, hb, hwords⟩ := exists_writes_of_isBody hb hv.2
    refine ⟨_, .loop hc hb, ?_⟩
    rw [Node.sourceWords, hds, List.append_cons _ ";" ["end"], List.append_assoc _ _ [";"], hwords]
    simp [wordsOf, Kind.written, Kind.spelling]

/-- A semicolon ends a list of statements, and there is one between two of them. -/
theorem exists_writes_of_isBody {n : Node} (h : n.IsBody ids) (hv : n.IsWritable) :
    ∃ ls, Writes ids .list n ls ∧ n.sourceWords ++ [";"] = wordsOf ls := by
  cases h with
  | single h =>
    obtain ⟨ls, h, hwords⟩ := exists_writes_of_isStatement h hv
    refine ⟨_, .single h, ?_⟩
    rw [hwords]
    simp [wordsOf, Kind.written, Kind.spelling]
  | chain hl hr =>
    simp only [Node.IsWritable, Node.numbers, List.forall_mem_append] at hv
    obtain ⟨ls, hl, hwords⟩ := exists_writes_of_isBody hl hv.1
    obtain ⟨rs, hr, hwords'⟩ := exists_writes_of_isStatement hr hv.2
    refine ⟨_, .chain hl hr, ?_⟩
    rw [Node.sourceWords, hwords, hwords']
    simp [wordsOf, Kind.written, Kind.spelling]

end

theorem exists_writes_of_isProgram {a : Node} (h : a.IsProgram ids) (hv : a.IsWritable) :
    ∃ ls, Writes ids .program a ls ∧ a.sourceWords = wordsOf ls := by
  obtain ⟨hw, hh, hb⟩ := h
  simp only [Node.IsWritable, Node.numbers, List.forall_mem_append] at hv
  obtain ⟨ds, hw, hds⟩ := exists_writesNumber hw hv.1.1
  obtain ⟨es, hh, hes⟩ := exists_writesNumber hh hv.1.2
  obtain ⟨ls, hb, hwords⟩ := exists_writes_of_isBody hb hv.2
  refine ⟨_, .program hw hh hb, ?_⟩
  rw [Node.sourceWords, hds, hes, List.append_cons _ ";" ["halt"], List.append_assoc _ _ [";"],
    List.cons_append (a := "begin"), hwords]
  simp [wordsOf, Kind.written, Kind.spelling]

/-- **What can be written**: the well-formed programs whose numbers are not too large. -/
theorem exists_writes_iff {a : Node} :
    (∃ ls, Writes ids .program a ls) ↔ a.IsProgram ids ∧ a.IsWritable := by
  constructor
  · rintro ⟨ls, h⟩
    exact h.wellFormed
  · rintro ⟨ha, hv⟩
    obtain ⟨ls, hls, -⟩ := exists_writes_of_isProgram ha hv
    exact ⟨ls, hls⟩

theorem Kind.lexeme_written {k : Kind} (hk : k.isKeyword = true) :
    Lexeme ids k.written.1 k.written.2 := by
  have hall : ∀ k ∈ Kind.all, k.isKeyword = true → k.spelling.toList.isEmpty = false ∧
      k.spelling.toList.all Text.isAsciiLetter = true ∧ Kind.ofWord k.spelling = k := by
    decide +kernel
  obtain ⟨hne, hletters, hword⟩ := hall k k.mem_all hk
  change Lexeme ids k k.spelling.toList
  cases hcs : k.spelling.toList with
  | nil =>
    rw [hcs] at hne
    cases hne
  | cons c rest =>
    have htext : String.ofList (c :: rest) = k.spelling := by rw [← hcs, String.ofList_toList]
    rw [hcs] at hletters
    obtain ⟨hc, hrest⟩ := List.forall_mem_cons.1 (List.all_eq_true.1 hletters)
    have hstart : ids.isWordStart c = true := by
      rw [Text.IdentClasses.isWordStart, ids.letter_start c hc, Bool.true_or]
    have hlexeme := Lexeme.word ⟨c, rest, rfl, hstart, fun d hd =>
      ids.start_continue d (ids.letter_start d (hrest d hd))⟩
    rwa [htext, hword] at hlexeme

theorem WritesNumber.lexeme {x : Node} {ds : List Char} (h : WritesNumber x ds) :
    Lexeme ids .integer ds := by
  obtain ⟨-, hpos, -, hds⟩ := h
  rw [String.toList_ofList] at hpos hds
  exact .integer (List.ne_nil_of_length_pos hpos) hds

theorem WritesName.lexeme {n : Node} {w : List Char} (h : WritesName ids n w) :
    Lexeme ids .name w := by
  obtain ⟨-, hword, hname⟩ := h
  rw [← hname]
  exact .word hword

/-- What is written can be laid out. -/
theorem Writes.lexeme {p : Phrase} {n : Node} {ls : List (Kind × List Char)}
    (h : Writes ids p n ls) : ∀ kl ∈ ls, Lexeme ids kl.1 kl.2 := by
  induction h with
  | facing h _ =>
    rw [List.forall_mem_singleton]
    exact Kind.lexeme_written rfl
  | cat hn hx hy _ ih =>
    simp only [List.forall_mem_cons]
    exact ⟨Kind.lexeme_written rfl, hn.lexeme, hx.lexeme, hy.lexeme, ih⟩
  | mouse hn hx hy _ ih =>
    simp only [List.forall_mem_cons]
    exact ⟨Kind.lexeme_written rfl, hn.lexeme, hx.lexeme, hy.lexeme, ih⟩
  | hole hx hy =>
    simp only [List.forall_mem_cons]
    exact ⟨Kind.lexeme_written rfl, hx.lexeme, hy.lexeme, List.forall_mem_nil _⟩
  | step hn _ =>
    simp only [List.forall_mem_cons]
    exact ⟨Kind.lexeme_written rfl, hn.lexeme, List.forall_mem_nil _⟩
  | move hn hd =>
    simp only [List.forall_mem_cons]
    exact ⟨Kind.lexeme_written rfl, hn.lexeme, hd.lexeme, List.forall_mem_nil _⟩
  | turn hn =>
    simp only [List.forall_mem_cons]
    exact ⟨Kind.lexeme_written rfl, hn.lexeme, List.forall_mem_nil _⟩
  | loop hc _ ih =>
    simp only [List.forall_mem_cons, List.forall_mem_append]
    exact ⟨Kind.lexeme_written rfl, hc.lexeme, ih, Kind.lexeme_written rfl, List.forall_mem_nil _⟩
  | single _ ih =>
    simp only [List.forall_mem_append, List.forall_mem_singleton]
    exact ⟨ih, .semicolon⟩
  | chain _ _ ihl ihr =>
    simp only [List.forall_mem_append, List.forall_mem_singleton]
    exact ⟨ihl, ihr, .semicolon⟩
  | program hw hh _ ih =>
    simp only [List.forall_mem_cons, List.forall_mem_append]
    exact ⟨Kind.lexeme_written rfl, hw.lexeme, hh.lexeme, Kind.lexeme_written rfl, ih,
      Kind.lexeme_written rfl, List.forall_mem_nil _⟩

/-! ### Reading what is written -/

section Tokens

variable {t : Token} {xs : List Part} {rs : List Nat} {ts : List Token} {vs : List Node}

theorem Parses.keyword {k : Kind} (ht : t.lexeme = k.written) (hk : k.isLeaf = false)
    (rest : Parses xs rs ts vs) : Parses (.token k :: xs) rs (t :: ts) vs := by
  obtain rfl : t.kind = k := congrArg Prod.fst ht
  change Parses (.token t.kind :: xs) rs (t :: ts) ([] ++ vs)
  exact .token (Token.leaves_of_not_isLeaf hk) rest

/-- A number is read with its value; its line is that of the token. -/
theorem WritesNumber.parses {x : Node} {ds : List Char} (hx : WritesNumber x ds)
    (ht : t.lexeme = (.integer, ds)) :
    ∃ (m : Nat) (line : Int), x.eraseLines = .number m 0 ∧
      ∀ {xs rs ts vs}, Parses xs rs ts vs →
        Parses (.token .integer :: xs) rs (t :: ts) (.number m line :: vs) := by
  obtain ⟨line, hnum⟩ := hx
  have hk : t.kind = .integer := congrArg Prod.fst ht
  have htext : t.text = String.ofList ds := String.toList_injective (by
    rw [String.toList_ofList]
    exact congrArg Prod.snd ht)
  rw [← htext] at hnum ⊢
  have hleaves : t.leaves = .ok [.number (numeralValue t.text) t.line] :=
    Token.leaves_of_ofToken (by rw [hk]; rfl) (Node.ofToken_of_isNumeral hk hnum)
  refine ⟨_, t.line, rfl, fun rest => ?_⟩
  rw [← hk]
  exact .token hleaves rest

/-- A name is read with its text. -/
theorem WritesName.parses {n : Node} {w : List Char} (hn : WritesName ids n w)
    (ht : t.lexeme = (.name, w)) :
    ∃ (text : String) (line : Int), n.eraseLines = .name text 0 ∧
      ∀ {xs rs ts vs}, Parses xs rs ts vs →
        Parses (.token .name :: xs) rs (t :: ts) (.name text line :: vs) := by
  obtain ⟨line, -, -⟩ := hn
  have hk : t.kind = .name := congrArg Prod.fst ht
  have htext : t.text = String.ofList w := String.toList_injective (by
    rw [String.toList_ofList]
    exact congrArg Prod.snd ht)
  have hleaves : t.leaves = .ok [.name t.text t.line] :=
    Token.leaves_of_ofToken (by rw [hk]; rfl) (Node.ofToken_name hk)
  refine ⟨t.text, t.line, by rw [htext]; rfl, fun rest => ?_⟩
  rw [← hk]
  exact .token hleaves rest

/-- The parts of a rule are read as its phrase. -/
theorem Parses.of_rule {r : PhraseRule} (hr : r ∈ phraseRules) {us : List Node} {v : Node}
    (parts : Parses r.parts rs ts us) (hv : Builds r.number us v) :
    Parses [.phrase r.phrase] (rs ++ [r.number]) ts [v] := by
  simpa using Parses.phrase hr parts hv .nil

end Tokens

/-- **Reading back**: tokens that are written as a tree are read as this tree, but for lines. -/
theorem Writes.parses {p : Phrase} {n : Node} {ls : List (Kind × List Char)}
    (h : Writes ids p n ls) {ts : List Token} (hts : ts.map Token.lexeme = ls) :
    ∃ rs v, Parses [.phrase p] rs ts [v] ∧ v.eraseLines = n.eraseLines := by
  induction h generalizing ts with
  | facing h line =>
    obtain ⟨t, rfl, ht⟩ := List.map_eq_singleton_iff.1 hts
    have hk : t.kind = .heading h := congrArg Prod.fst ht
    have hleaves : t.leaves = .ok [.facing h t.line] :=
      Token.leaves_of_ofToken (by rw [hk]; rfl) (Node.ofToken_heading hk)
    have hparse := Parses.singleton hleaves
    rw [hk] at hparse
    cases h with
    | north =>
      exact ⟨_, _, .of_rule (r := phraseRules[10]) (by decide) hparse fun _ => rfl, rfl⟩
    | south =>
      exact ⟨_, _, .of_rule (r := phraseRules[11]) (by decide) hparse fun _ => rfl, rfl⟩
    | east =>
      exact ⟨_, _, .of_rule (r := phraseRules[12]) (by decide) hparse fun _ => rfl, rfl⟩
    | west =>
      exact ⟨_, _, .of_rule (r := phraseRules[13]) (by decide) hparse fun _ => rfl, rfl⟩
  | cat hn hx hy hf ih =>
    obtain ⟨t, ts, rfl, ht, hts⟩ := List.map_eq_cons_iff.1 hts
    obtain ⟨u, ts, rfl, hu, hts⟩ := List.map_eq_cons_iff.1 hts
    obtain ⟨v, ts, rfl, hv, hts⟩ := List.map_eq_cons_iff.1 hts
    obtain ⟨w, ts, rfl, hw, hts⟩ := List.map_eq_cons_iff.1 hts
    obtain ⟨text, line, hname, readName⟩ := hn.parses hu
    obtain ⟨m, line₁, hm, readX⟩ := hx.parses hv
    obtain ⟨m', line₂, hm', readY⟩ := hy.parses hw
    obtain ⟨rs, f', hf', hsame⟩ := ih hts
    obtain _ | ⟨⟨h, line₃⟩, -⟩ := hf'.fits
    have hparts := Parses.keyword ht rfl (readName (readX (readY hf')))
    refine ⟨_, _, .of_rule (r := phraseRules[3]) (by decide) hparts fun _ => rfl, ?_⟩
    simp only [Node.eraseLines, hname, hm, hm', ← hsame]
  | mouse hn hx hy hf ih =>
    obtain ⟨t, ts, rfl, ht, hts⟩ := List.map_eq_cons_iff.1 hts
    obtain ⟨u, ts, rfl, hu, hts⟩ := List.map_eq_cons_iff.1 hts
    obtain ⟨v, ts, rfl, hv, hts⟩ := List.map_eq_cons_iff.1 hts
    obtain ⟨w, ts, rfl, hw, hts⟩ := List.map_eq_cons_iff.1 hts
    obtain ⟨text, line, hname, readName⟩ := hn.parses hu
    obtain ⟨m, line₁, hm, readX⟩ := hx.parses hv
    obtain ⟨m', line₂, hm', readY⟩ := hy.parses hw
    obtain ⟨rs, f', hf', hsame⟩ := ih hts
    obtain _ | ⟨⟨h, line₃⟩, -⟩ := hf'.fits
    have hparts := Parses.keyword ht rfl (readName (readX (readY hf')))
    refine ⟨_, _, .of_rule (r := phraseRules[4]) (by decide) hparts fun _ => rfl, ?_⟩
    simp only [Node.eraseLines, hname, hm, hm', ← hsame]
  | hole hx hy =>
    obtain ⟨t, ts, rfl, ht, hts⟩ := List.map_eq_cons_iff.1 hts
    obtain ⟨u, ts, rfl, hu, hts⟩ := List.map_eq_cons_iff.1 hts
    obtain ⟨v, rfl, hv⟩ := List.map_eq_singleton_iff.1 hts
    obtain ⟨m, line, hm, readX⟩ := hx.parses hu
    obtain ⟨m', line', hm', readY⟩ := hy.parses hv
    have hparts := Parses.keyword ht rfl (readX (readY .nil))
    refine ⟨_, _, .of_rule (r := phraseRules[5]) (by decide) hparts fun _ => rfl, ?_⟩
    simp only [Node.eraseLines, hm, hm']
  | step hn line =>
    obtain ⟨t, ts, rfl, ht, hts⟩ := List.map_eq_cons_iff.1 hts
    obtain ⟨u, rfl, hu⟩ := List.map_eq_singleton_iff.1 hts
    obtain ⟨text, line, hname, readName⟩ := hn.parses hu
    have hparts := Parses.keyword ht rfl (readName .nil)
    refine ⟨_, _, .of_rule (r := phraseRules[6]) (by decide) hparts fun _ => rfl, ?_⟩
    simp only [Node.eraseLines, Build.oneStep, Build.defaultDistance, hname]
  | move hn hd =>
    obtain ⟨t, ts, rfl, ht, hts⟩ := List.map_eq_cons_iff.1 hts
    obtain ⟨u, ts, rfl, hu, hts⟩ := List.map_eq_cons_iff.1 hts
    obtain ⟨v, rfl, hv⟩ := List.map_eq_singleton_iff.1 hts
    obtain ⟨text, line, hname, readName⟩ := hn.parses hu
    obtain ⟨m, line', hm, readDistance⟩ := hd.parses hv
    have hparts := Parses.keyword ht rfl (readName (readDistance .nil))
    refine ⟨_, _, .of_rule (r := phraseRules[7]) (by decide) hparts fun _ => rfl, ?_⟩
    simp only [Node.eraseLines, hname, hm]
  | turn hn =>
    obtain ⟨t, ts, rfl, ht, hts⟩ := List.map_eq_cons_iff.1 hts
    obtain ⟨u, rfl, hu⟩ := List.map_eq_singleton_iff.1 hts
    obtain ⟨text, line, hname, readName⟩ := hn.parses hu
    have hparts := Parses.keyword ht rfl (readName .nil)
    refine ⟨_, _, .of_rule (r := phraseRules[8]) (by decide) hparts fun _ => rfl, ?_⟩
    simp only [Node.eraseLines, hname]
  | loop hc hb ih =>
    obtain ⟨t, ts, rfl, ht, hts⟩ := List.map_eq_cons_iff.1 hts
    obtain ⟨u, ts, rfl, hu, hts⟩ := List.map_eq_cons_iff.1 hts
    obtain ⟨front, back, rfl, hfront, hback⟩ := List.map_eq_append_iff.1 hts
    obtain ⟨v, rfl, hv⟩ := List.map_eq_singleton_iff.1 hback
    obtain ⟨m, line, hm, readCount⟩ := hc.parses hu
    obtain ⟨rs, b', hb', hsame⟩ := ih hfront
    have hparts := Parses.keyword ht rfl (readCount (hb'.append (.keyword hv rfl .nil)))
    refine ⟨_, _, .of_rule (r := phraseRules[9]) (by decide) hparts fun _ => rfl, ?_⟩
    simp only [Node.eraseLines, hm, hsame]
  | single hn ih =>
    obtain ⟨front, back, rfl, hfront, hback⟩ := List.map_eq_append_iff.1 hts
    obtain ⟨v, rfl, hv⟩ := List.map_eq_singleton_iff.1 hback
    obtain ⟨rs, n', hn', hsame⟩ := ih hfront
    have hparts := hn'.append (.keyword hv rfl .nil)
    exact ⟨_, _, .of_rule (r := phraseRules[1]) (by decide) hparts fun _ => rfl, hsame⟩
  | chain hl hr ihl ihr =>
    obtain ⟨front, rest, rfl, hfront, hrest⟩ := List.map_eq_append_iff.1 hts
    obtain ⟨mid, back, rfl, hmid, hback⟩ := List.map_eq_append_iff.1 hrest
    obtain ⟨v, rfl, hv⟩ := List.map_eq_singleton_iff.1 hback
    obtain ⟨rs, l', hl', hsamel⟩ := ihl hfront
    obtain ⟨rs', r', hr', hsamer⟩ := ihr hmid
    have hparts := hl'.append (hr'.append (.keyword hv rfl .nil))
    refine ⟨_, _, .of_rule (r := phraseRules[2]) (by decide) hparts fun _ => rfl, ?_⟩
    simp only [Node.eraseLines, hsamel, hsamer]
  | program hw hh hb ih =>
    obtain ⟨t, ts, rfl, ht, hts⟩ := List.map_eq_cons_iff.1 hts
    obtain ⟨u, ts, rfl, hu, hts⟩ := List.map_eq_cons_iff.1 hts
    obtain ⟨v, ts, rfl, hv, hts⟩ := List.map_eq_cons_iff.1 hts
    obtain ⟨w, ts, rfl, hw', hts⟩ := List.map_eq_cons_iff.1 hts
    obtain ⟨front, back, rfl, hfront, hback⟩ := List.map_eq_append_iff.1 hts
    obtain ⟨z, rfl, hz⟩ := List.map_eq_singleton_iff.1 hback
    obtain ⟨m, line, hm, readWidth⟩ := hw.parses hu
    obtain ⟨m', line', hm', readHeight⟩ := hh.parses hv
    obtain ⟨rs, b', hb', hsame⟩ := ih hfront
    have hparts := Parses.keyword ht rfl (readWidth (readHeight (.keyword hw' rfl
      (hb'.append (.keyword hz rfl .nil)))))
    refine ⟨_, _, .of_rule (r := phraseRules[0]) (by decide) hparts fun _ => rfl, ?_⟩
    simp only [Node.eraseLines, hm, hm', hsame]

/-- What is written, and laid out with gaps of any sort, is read back. -/
theorem derive?_of_writes {a : Node} {ls : List (Kind × List Char)} {text : String}
    (ha : Writes ids .program a ls) (htext : Lexical ids ls text.toList) :
    ∃ o root, Table.standard.derive? (Scanner.ofText ids text) = some o ∧
      o.verdict = .accepted root ∧ root.same a = true := by
  obtain ⟨ts, hyields, hts⟩ := exists_yields_of_lexical htext
  obtain ⟨ps, back, rfl, hps, hback⟩ := List.map_eq_append_iff.1 hts
  obtain ⟨t, rfl, ht⟩ := List.map_eq_singleton_iff.1 hback
  obtain ⟨rs, root, hparse, hsame⟩ := ha.parses hps
  have hend : ∀ t' ∈ [t].head?, t'.kind = .endOfInput := by
    rintro t' ⟨⟩
    exact congrArg Prod.fst ht
  obtain ⟨o, ho, hv, -⟩ := accepts_of_parses hparse hend
  -- over the tokens, and so over the text
  obtain ⟨o', s', ho', hs'⟩ :=
    exists_derive?_of_yields hyields (Scanner.length_le_bound hyields)
  obtain rfl := ho.unique (Table.haltsWith_of_derive? ho')
  exact ⟨_, root, hs', hv, decide_eq_true hsame⟩

/-- **Round trip**: a well-formed program whose numbers are not too large can be written and
laid out. However this is done, the text is read back as the same tree, but for lines. -/
theorem round_trip {a : Node} (ha : a.IsProgram ids) (hnumbers : a.IsWritable) :
    (∃ (ls : List (Kind × List Char)) (text : String),
        Writes ids .program a ls ∧ Lexical ids ls text.toList) ∧
      ∀ (ls : List (Kind × List Char)) (text : String), Writes ids .program a ls →
        Lexical ids ls text.toList →
          ∃ o root, Table.standard.derive? (Scanner.ofText ids text) = some o ∧
            o.verdict = .accepted root ∧ root.same a = true := by
  constructor
  · obtain ⟨ls, hls⟩ := exists_writes_iff.2 ⟨ha, hnumbers⟩
    obtain ⟨cs, hcs⟩ := exists_lexical hls.lexeme
    exact ⟨ls, String.ofList cs, hls, by rwa [String.toList_ofList]⟩
  · intro ls text hls htext
    exact derive?_of_writes hls htext

/-- A program in which Tom makes a step. -/
def stepProgram : Node :=
  .program (.number 2 0) (.number 2 0) (.move (.name "tom" 0) (.number 1 0))

theorem round_trip_stepProgram :
    ∃ o root,
      Table.standard.derive? (Scanner.ofText .unicode14 "size 02 2\nbegin move tom;halt") =
        some o ∧
      o.verdict = .accepted root ∧ root.same stepProgram = true := by
  have htwo : WritesNumber (.number 2 0) ['2'] := @WritesNumber.mk ['2'] 0 (by decide)
  have hpadded : WritesNumber (.number 2 0) ['0', '2'] :=
    @WritesNumber.mk ['0', '2'] 0 (by decide)
  have htom : WritesName .unicode14 (.name "tom" 0) ['t', 'o', 'm'] :=
    WritesName.mk 0 ⟨'t', ['o', 'm'], rfl, by decide, List.all_eq_true.1 (by decide)⟩ (by decide)
  have hwrites : Writes .unicode14 .program stepProgram _ :=
    .program hpadded htwo (.single (.step htom 0))
  have hlexeme := hwrites.lexeme
  simp only [List.cons_append, List.nil_append, List.forall_mem_cons] at hlexeme
  obtain ⟨h₁, h₂, h₃, h₄, h₅, h₆, h₇, h₈, -⟩ := hlexeme
  have hblank : ∀ c, isGapChar c = true → Gap [c] := fun c hc => .blank hc .nil
  have hbody := LexicalBody.cons h₁ (hblank ' ' rfl) (by simp) <|
    .cons h₂ (hblank ' ' rfl) (by simp) <| .cons h₃ (hblank '\n' rfl) (by simp) <|
    .cons h₄ (hblank ' ' rfl) (by simp) <| .cons h₅ (hblank ' ' rfl) (by simp) <|
    .cons h₆ .nil (fun _ => .inr rfl) <| .cons h₇ .nil (fun _ => .inl rfl) <|
    .last h₈ (.closed .nil)
  exact (round_trip hwrites.wellFormed.1 hwrites.wellFormed.2).2 _ _ hwrites (.cons .nil hbody)

end CatAndMouse
