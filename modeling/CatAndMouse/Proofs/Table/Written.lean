import CatAndMouse.Proofs.Table.Lookup
import CatAndMouse.Proofs.Text.Pieces
import CatAndMouse.Table.Standard

/-!
# Tables written down

A table is written line by line, and the lines are joined with LF or with CR LF. What
makes this readable again is that no field holds what parts fields or lines, and that
none has white space at its ends (`IsField`): so the fields joined to a line can be told
apart (`pieces_joinFields`), and so can the lines joined to a text (`textLines_joinLines`).
A table whose fields are like that, and whose cells fit, is what its own lines show
(`Table.Sound.shownBy_lines`), so it is read back as it was. The standard table is such a
table (`Table.read_standard`).

The main result is `table_round_trip`: it begins with maps of actions and targets rather than with
a table, and ends with what the table that is read does.
-/

namespace CatAndMouse

/-! ### Fields -/

/-- The text can be a field: it does not hold what parts fields or lines, and has no white space
at either end. -/
structure IsField (x : String) : Prop where
  separator : '&' ∉ x.toList
  lineFeed : '\n' ∉ x.toList
  head : ∀ c ∈ x.toList.head?, Text.isBlank c = false
  last : ∀ c ∈ x.toList.getLast?, Text.isBlank c = false

/-- The character neither parts fields nor is it white space. -/
def isPlain (c : Char) : Bool := c != '&' && !Text.isBlank c

namespace IsField

variable {x : String}

theorem strip_eq (h : IsField x) : Text.strip x.toList = x.toList :=
  Text.strip_eq_self h.head h.last

theorem stripped_eq (h : IsField x) : Text.stripped x = x := by
  rw [Text.stripped, h.strip_eq, String.ofList_toList]

/-- A text of plain characters is a field. -/
theorem of_all (h : x.toList.all isPlain = true) : IsField x := by
  have hplain : ∀ c ∈ x.toList, c ≠ '&' ∧ Text.isBlank c = false := by
    intro c hc
    simpa [isPlain] using List.all_eq_true.1 h c hc
  exact {
    separator := fun hc => (hplain _ hc).1 rfl
    lineFeed := fun hc => absurd (hplain _ hc).2 (by decide)
    head := fun c hc => (hplain c (List.mem_of_mem_head? hc)).2
    last := fun c hc => (hplain c (List.mem_of_mem_getLast? hc)).2 }

end IsField

theorem all_isPlain_toString (n : Nat) : (toString n).toList.all isPlain = true := by
  rw [List.all_eq_true]
  intro c hc
  have hdigit := isAsciiDigit_of_mem_toString hc
  have hne : c ≠ '&' := by
    rintro rfl
    exact absurd hdigit (by decide)
  simp [isPlain, hne, Text.isBlank_of_isAsciiDigit hdigit]

theorem isField_toString (n : Nat) : IsField (toString n) := IsField.of_all (all_isPlain_toString n)

theorem isField_actionCell (a : Action) : IsField (Table.actionCell a) := by
  refine IsField.of_all ?_
  rw [Table.toList_actionCell]
  cases a with
  | shift number => exact all_isPlain_toString number
  | reduce number => exact all_isPlain_toString number
  | accept => decide
  | error => decide

theorem isField_targetCell (target : Option Nat) : IsField (Table.targetCell target) := by
  cases target with
  | none => exact IsField.of_all (by decide)
  | some state => exact isField_toString state

/-! ### Lines -/

/-- **Fields joined to a line** are its pieces. -/
theorem pieces_joinFields {fields : List String} (h : ∀ x ∈ fields, '&' ∉ x.toList)
    (hne : fields ≠ []) : Text.pieces '&' (Table.joinFields fields) = fields :=
  Text.pieces_intercalate h hne

/-- What is joined to a first list has a separator before each of its parts. -/
theorem intercalate_cons (sep : Char) (l : List Char) (ls : List (List Char)) :
    [sep].intercalate (l :: ls) = l ++ ls.flatMap (sep :: ·) := by
  induction ls generalizing l with
  | nil => rw [List.intercalate_singleton, List.flatMap_nil, List.append_nil]
  | cons l' ls ih =>
    rw [List.intercalate_cons_cons, ih, List.flatMap_cons, List.append_assoc]
    rfl

/-- The two ways to end a line. -/
inductive LineEnd where
  | lf
  | crlf

/-- What stands at the end of a line. -/
def LineEnd.text : LineEnd → String
  | .lf => "\n"
  | .crlf => "\r\n"

/-- The characters can be a line that is ended in some way: they are one line, to which the end
belongs whole, and not an empty one. -/
structure IsLine (e : LineEnd) (cs : List Char) : Prop where
  lineFeed : '\n' ∉ cs
  last : e = .lf → '\r' ∉ cs.getLast?
  visible : cs.all Text.isBlank = false

/-- Fields joined to a line are a line, if the first of them is not empty. -/
theorem isLine_joinFields {label : String} {fields : List String} (hlabel : IsField label)
    (hne : label.toList ≠ []) (h : ∀ x ∈ fields, IsField x) (e : LineEnd) :
    IsLine e (Table.joinFields (label :: fields)).toList := by
  rw [Table.joinFields, String.toList_intercalate, show "&".toList = ['&'] from rfl,
    List.map_cons, intercalate_cons, List.flatMap_map]
  refine ⟨fun hc => ?_, fun _ hc => ?_, ?_⟩
  · rcases List.mem_append.1 hc with hc | hc
    · exact hlabel.lineFeed hc
    · obtain ⟨x, hx, hc⟩ := List.mem_flatMap.1 hc
      exact (h x hx).lineFeed (List.mem_of_ne_of_mem (by decide) hc)
  · rcases List.eq_nil_or_concat fields with rfl | ⟨fields, x, rfl⟩
    · rw [List.flatMap_nil, List.append_nil] at hc
      exact absurd (hlabel.last _ hc) (by decide)
    · rw [List.concat_eq_append, List.flatMap_append, List.flatMap_singleton, ← List.append_assoc,
        List.getLast?_append_cons, List.getLast?_cons] at hc
      cases hlast : x.toList.getLast? with
      | none =>
        rw [hlast] at hc
        exact absurd (Option.some.inj hc) (by decide)
      | some c =>
        rw [hlast] at hc
        have hc : c = '\r' := Option.some.inj hc
        exact absurd ((h x (by simp)).last c hlast) (by rw [hc]; decide)
  · obtain ⟨c, cs, hcs⟩ := List.exists_cons_of_ne_nil hne
    have hc : Text.isBlank c = false := hlabel.head c (by rw [hcs]; rfl)
    rw [hcs, List.cons_append, List.all_cons, hc, Bool.false_and]

/-! ### Texts -/

/-- Lines joined to a text. The last one has no end, or one of its own. -/
def joinLines (sep : LineEnd) (final : Option LineEnd) (lines : List String) : String :=
  String.intercalate sep.text lines ++ final.elim "" LineEnd.text

namespace Text

/-- A character is kept, unless it is the first one of CR LF. -/
theorem joinReturns_cons {c : Char} {cs : List Char} (h : c = '\r' → '\n' ∉ cs.head?) :
    joinReturns (c :: cs) = c :: joinReturns cs := by
  rw [joinReturns.eq_3]
  rintro cs' rfl rfl
  exact h rfl rfl

theorem joinReturns_eq_self {cs : List Char} (h : '\n' ∉ cs) : joinReturns cs = cs := by
  induction cs with
  | nil => rfl
  | cons c cs ih =>
    have hcs : '\n' ∉ cs := fun hc => h (List.mem_cons_of_mem c hc)
    rw [joinReturns_cons fun _ hc => hcs (List.mem_of_mem_head? hc), ih hcs]

/-- The end of a line becomes LF, and the line is kept. -/
theorem joinReturns_line {cs : List Char} {e : LineEnd} (h : IsLine e cs) (rest : List Char) :
    joinReturns (cs ++ (e.text.toList ++ rest)) = cs ++ '\n' :: joinReturns rest := by
  obtain ⟨hbreak, hlast, -⟩ := h
  induction cs with
  | nil =>
    cases e with
    | lf => exact joinReturns_cons (fun hc => absurd hc (by decide))
    | crlf => exact joinReturns.eq_2 rest
  | cons c cs ih =>
    have hcs : '\n' ∉ cs := fun hc => hbreak (List.mem_cons_of_mem c hc)
    cases cs with
    | nil =>
      -- the end of the line comes next, and if it is LF then CR is not before it
      have hend : c = '\r' → '\n' ∉ ([] ++ (e.text.toList ++ rest)).head? := by
        intro hc
        cases e with
        | lf => exact absurd (congrArg some hc) (hlast rfl)
        | crlf => exact fun hd => absurd (Option.some.inj hd) (by decide)
      rw [List.cons_append, joinReturns_cons hend, ih hcs (by simp)]
      rfl
    | cons d ds =>
      have hd : '\n' ∉ (d :: ds ++ (e.text.toList ++ rest)).head? := fun hd =>
        hcs (Option.some.inj hd ▸ List.mem_cons_self)
      rw [List.getLast?_cons_cons] at hlast
      rw [List.cons_append, joinReturns_cons fun _ => hd, ih hcs hlast]
      rfl

end Text

/-- Whatever ends the lines of a text, it has become LF. -/
theorem joinReturns_joinLines {sep : LineEnd} {final : Option LineEnd} {lines : List String}
    (h : ∀ l ∈ lines, IsLine sep l.toList) (hfinal : ∀ e ∈ final, ∀ l ∈ lines, IsLine e l.toList)
    (hne : lines ≠ []) :
    Text.joinReturns (joinLines sep final lines).toList =
      ['\n'].intercalate (lines.map String.toList ++ final.elim [] fun _ => [[]]) := by
  rw [joinLines, String.toList_append, String.toList_intercalate]
  induction lines with
  | nil => exact absurd rfl hne
  | cons l lines ih =>
    have hl := h l List.mem_cons_self
    cases lines with
    | nil =>
      rw [List.map_singleton, List.intercalate_singleton]
      cases final with
      | none =>
        rw [Option.elim_none, Option.elim_none, List.append_nil, List.intercalate_singleton,
          String.toList_empty, List.append_nil, Text.joinReturns_eq_self hl.lineFeed]
      | some e =>
        have hline := Text.joinReturns_line (hfinal e rfl l List.mem_cons_self) []
        rw [List.append_nil] at hline
        exact hline
    | cons l' lines =>
      rw [List.map_cons, List.map_cons, List.intercalate_cons_cons, List.append_assoc,
        List.append_assoc, Text.joinReturns_line hl, ← List.map_cons,
        ih (fun x hx => h x (List.mem_cons_of_mem l hx))
          (fun e he x hx => hfinal e he x (List.mem_cons_of_mem l hx)) (List.cons_ne_nil _ _)]
      rfl

/-- **Lines joined to a text** are its lines. -/
theorem textLines_joinLines {sep : LineEnd} {final : Option LineEnd} {lines : List String}
    (h : ∀ l ∈ lines, IsLine sep l.toList) (hfinal : ∀ e ∈ final, ∀ l ∈ lines, IsLine e l.toList)
    (hne : lines ≠ []) :
    Table.textLines (joinLines sep final lines) = lines := by
  have hkept : (lines.map String.toList).filter (fun l => !l.all Text.isBlank) =
      lines.map String.toList := by
    rw [List.filter_eq_self]
    intro l hl
    obtain ⟨x, hx, rfl⟩ := List.mem_map.1 hl
    rw [(h x hx).visible]
    rfl
  have hlast : (final.elim [] fun _ => [[]]).filter (fun l => !l.all Text.isBlank) = [] := by
    cases final <;> rfl
  have hbreak : ∀ l ∈ lines.map String.toList ++ final.elim [] fun _ => [[]], '\n' ∉ l := by
    intro l hl
    rcases List.mem_append.1 hl with hl | hl
    · obtain ⟨x, hx, rfl⟩ := List.mem_map.1 hl
      exact (h x hx).lineFeed
    · cases final with
      | none => cases hl
      | some e =>
        obtain rfl := List.mem_singleton.1 hl
        exact List.not_mem_nil
  rw [Table.textLines, joinReturns_joinLines h hfinal hne, Text.splitAt_eq_splitOn,
    List.splitOn_intercalate '\n' hbreak (by simp [hne]), List.filter_append, hkept, hlast]
  simp [Function.comp_def]

/-! ### Tables -/

namespace Table

/-- What a text must provide to be read as the table, the end of the input given. -/
def spec (t : Table) (eof : String) : TableSpec :=
  ⟨t.rules, t.symbols.terminals, t.symbols.nonterminals, t.states, eof⟩

/-- The table is one that can be written and read: its names are fields and distinct, its rows are
full, and its actions, targets and rules fit. -/
structure Sound (eof : String) (t : Table) : Prop where
  fields : ∀ x ∈ t.symbols.names, IsField x
  distinct : t.symbols.names.Nodup
  eof : eof ∈ t.symbols.terminals
  lengthActions : t.actions.length = t.states
  lengthGotos : t.gotos.length = t.states
  widthActions : ∀ row ∈ t.actions, row.length = t.symbols.terminals.length
  widthGotos : ∀ row ∈ t.gotos, row.length = t.symbols.nonterminals.length
  actions : ∀ row ∈ t.actions, ∀ a ∈ row,
    a.Fits t.states t.rules ∧ ∀ k ∈ a.number?, k < Text.writeBound
  gotos : ∀ row ∈ t.gotos, ∀ target ∈ row, ∀ k ∈ target, k < t.states ∧ k < Text.writeBound
  lhs : ∀ r ∈ t.rules, r.2.lhs ∈ t.symbols.nonterminals

section Block

variable {α : Type} {cell : α → String} {block : List (List α)}

theorem length_blockLines : (blockLines cell block).length = block.length := by
  simp [blockLines]

/-- The fields of a row are the number of its state and its cells. -/
theorem fieldsAt_blockLines (hcell : ∀ a, IsField (cell a)) {s : Nat} {row : List α}
    (hrow : block[s]? = some row) :
    fieldsAt (blockLines cell block) s = toString s :: row.map cell := by
  have hfields : ∀ x ∈ toString s :: row.map cell, IsField x := by
    refine List.forall_mem_cons.2 ⟨isField_toString s, fun x hx => ?_⟩
    obtain ⟨a, -, rfl⟩ := List.mem_map.1 hx
    exact hcell a
  rw [fieldsAt, blockLines, List.getElem?_map, List.getElem?_zipIdx, hrow, Nat.zero_add]
  exact pieces_joinFields (fun x hx => (hfields x hx).separator) (List.cons_ne_nil _ _)

/-- A row is written as what its cells show. -/
theorem rowShows_blockLines (hcell : ∀ a, IsField (cell a)) {Shows : List Char → α → Prop}
    {width s : Nat} {row : List α} (hrow : block[s]? = some row) (hwidth : row.length = width)
    (hshows : ∀ a ∈ row, Shows (cell a).toList a) :
    RowShows Shows width s (fieldsAt (blockLines cell block) s) row := by
  rw [fieldsAt_blockLines hcell hrow]
  refine ⟨by simp [hwidth], congrArg some (isField_toString s).stripped_eq, ?_⟩
  rw [List.tail_cons, List.forall₂_map_left_iff, List.forall₂_same]
  intro a ha
  rw [(hcell a).strip_eq]
  exact hshows a ha

theorem isLine_blockLines (hcell : ∀ a, IsField (cell a)) {l : String}
    (hl : l ∈ blockLines cell block) (e : LineEnd) : IsLine e l.toList := by
  obtain ⟨⟨row, s⟩, -, rfl⟩ := List.mem_map.1 hl
  refine isLine_joinFields (isField_toString s) (toString_ne_nil s) (fun x hx => ?_) e
  obtain ⟨a, -, rfl⟩ := List.mem_map.1 hx
  exact hcell a

end Block

/-- The word that labels the headers. -/
theorem isField_state : IsField "STATE" := IsField.of_all (by decide)

/-- The names in a header are those that were written there. -/
theorem names_of_header {names : List String} (h : ∀ x ∈ names, IsField x) :
    (Text.pieces '&' (joinFields ("STATE" :: names))).tail.map Text.stripped = names := by
  have hsep : ∀ x ∈ "STATE" :: names, '&' ∉ x.toList :=
    List.forall_mem_cons.2 ⟨isField_state.separator, fun x hx => (h x hx).separator⟩
  rw [pieces_joinFields hsep (List.cons_ne_nil _ _), List.tail_cons]
  exact (List.map_congr_left fun x hx => (h x hx).stripped_eq).trans (List.map_id names)

namespace Sound

variable {eof : String} {t : Table} (h : t.Sound eof)

include h

theorem terminal {x : String} (hx : x ∈ t.symbols.terminals) : IsField x :=
  h.fields x (List.mem_append_left _ hx)

theorem nonterminal {x : String} (hx : x ∈ t.symbols.nonterminals) : IsField x :=
  h.fields x (List.mem_append_right _ hx)

/-- **A sound table** is what its lines show. -/
theorem shownBy_lines : t.ShownBy (t.spec eof) t.states t.lines := by
  have hlen : (blockLines actionCell t.actions).length = t.states :=
    length_blockLines.trans h.lengthActions
  have hlines : t.lines = joinFields ("STATE" :: t.symbols.terminals) ::
      (blockLines actionCell t.actions ++
        joinFields ("STATE" :: t.symbols.nonterminals) :: blockLines targetCell t.gotos) := rfl
  constructor
  case states => rfl
  case rules => rfl
  case count =>
    rw [hlines, List.length_cons, List.length_append, List.length_cons, hlen,
      length_blockLines, h.lengthGotos]
    omega
  case terminals => exact (names_of_header fun x hx => h.terminal hx).symm
  case nonterminals =>
    rw [namesAt, hlines, ← hlen, fieldsAt_second, names_of_header fun x hx => h.nonterminal hx]
  case permTerminals => exact List.Perm.refl _
  case permNonterminals => exact List.Perm.refl _
  case distinct => exact h.distinct
  case eof => exact h.eof
  case lengthActions => exact h.lengthActions
  case lengthGotos => exact h.lengthGotos
  case actions =>
    intro s row hrow
    have hs : s < (blockLines actionCell t.actions).length :=
      length_blockLines.symm ▸ (List.getElem?_eq_some_iff.1 hrow).1
    have hmem := List.mem_of_getElem? hrow
    rw [hlines, fieldsAt_actions _ _ hs]
    refine rowShows_blockLines isField_actionCell hrow (h.widthActions row hmem) fun a ha => ?_
    obtain ⟨hfits, hnumber⟩ := h.actions row hmem a ha
    exact ⟨Action.shows_cell hnumber, hfits⟩
  case gotos =>
    intro s row hrow
    have hmem := List.mem_of_getElem? hrow
    rw [hlines, ← hlen, fieldsAt_gotos]
    refine rowShows_blockLines isField_targetCell hrow (h.widthGotos row hmem) fun a ha => ?_
    have htarget := h.gotos row hmem a ha
    rw [hlen]
    exact ⟨shows_targetCell fun k hk => (htarget k hk).2, fun k hk => (htarget k hk).1⟩
  case lhs => exact h.lhs

theorem isLine {l : String} (hl : l ∈ t.lines) (e : LineEnd) : IsLine e l.toList := by
  have hne : "STATE".toList ≠ [] := by decide
  rcases List.mem_append.1 hl with hl | hl
  · rcases List.mem_cons.1 hl with rfl | hl
    · exact isLine_joinFields isField_state hne (fun x hx => h.terminal hx) e
    · exact isLine_blockLines isField_actionCell hl e
  · rcases List.mem_cons.1 hl with rfl | hl
    · exact isLine_joinFields isField_state hne (fun x hx => h.nonterminal hx) e
    · exact isLine_blockLines isField_targetCell hl e

/-- **A sound table is read back** from its lines, whichever way they are ended. -/
theorem read_joinLines (sep : LineEnd) (final : Option LineEnd) :
    read (t.spec eof) (joinLines sep final t.lines) = .ok t := by
  rw [read_eq_ok_iff rfl, textLines_joinLines (fun l hl => h.isLine hl sep)
    (fun e _ l hl => h.isLine hl e) (by simp [lines])]
  exact h.shownBy_lines

end Sound

theorem standard_sound : standard.Sound endSymbol where
  fields := by
    have hall : ∀ x ∈ standard.symbols.names, x.toList.all isPlain = true := by decide
    exact fun x hx => IsField.of_all (hall x hx)
  distinct := by decide
  eof := by decide
  lengthActions := rfl
  lengthGotos := rfl
  widthActions := by decide
  widthGotos := by decide
  actions := fun row hrow a ha => by
    have hall : ∀ row ∈ standard.actions, ∀ a ∈ row,
        a.Fits standard.states standard.rules ∧ ∀ k ∈ a.number?, k < 10 ^ 2 := by decide
    obtain ⟨hfits, hnumber⟩ := hall row hrow a ha
    exact ⟨hfits, fun k hk => Text.lt_writeBound (hnumber k hk)⟩
  gotos := fun row hrow target htarget k hk => by
    have hall : ∀ row ∈ standard.gotos, ∀ target ∈ row, ∀ k ∈ target, k < standard.states := by
      decide
    have hlt : k < 38 := hall row hrow target htarget k hk
    exact ⟨hlt, Text.lt_writeBound (by omega)⟩
  lhs := by decide

/-- **The standard table** is read from its lines. -/
theorem read_standard (sep : LineEnd) (final : Option LineEnd) :
    read TableSpec.standard (joinLines sep final standard.lines) = .ok standard :=
  standard_sound.read_joinLines sep final

/-! ### Maps -/

/-- The table with the actions and targets of two maps. -/
def ofMaps (symbols : Symbols) (rules : RuleBook) (states : Nat)
    (action : Int → String → Option Action) (goto : Int → String → Option Nat) : Table where
  symbols := symbols
  actions := (List.range states).map fun (s : Nat) =>
    symbols.terminals.map fun x => (action s x).getD .error
  gotos := (List.range states).map fun (s : Nat) => symbols.nonterminals.map (goto s)
  rules := rules
  states := states

/-- The map has values for states and for these names only, and they are of the right kind. -/
def FitsIn {α : Type} (names : List String) (states : Nat) (IsRight : α → Prop)
    (m : Int → String → Option α) : Prop :=
  ∀ s x a, m s x = some a → (0 ≤ s ∧ s < states) ∧ x ∈ names ∧ IsRight a

namespace FitsIn

variable {α : Type} {names : List String} {states : Nat} {IsRight : α → Prop}
  {m : Int → String → Option α} {s : Int} {x : String}

theorem eq_none_of_state (h : FitsIn names states IsRight m) (hs : s < 0 ∨ states ≤ s) :
    m s x = none := by
  refine Option.eq_none_iff_forall_not_mem.2 fun a ha => ?_
  have hstate := (h s x a ha).1
  omega

theorem eq_none_of_name (h : FitsIn names states IsRight m) (hx : x ∉ names) : m s x = none :=
  Option.eq_none_iff_forall_not_mem.2 fun a ha => hx (h s x a ha).2.1

end FitsIn

/-- The map has actions for states and terminals, and they can be those of a table. -/
def ActionsFit (terminals : List String) (rules : RuleBook) (states : Nat)
    (action : Int → String → Option Action) : Prop :=
  FitsIn terminals states
    (fun a => a.Fits states rules ∧ ∀ k ∈ a.number?, k < Text.writeBound) action

/-- The map has states for states and nonterminals. -/
def GotosFit (nonterminals : List String) (states : Nat) (goto : Int → String → Option Nat) :
    Prop :=
  FitsIn nonterminals states (fun k => k < states ∧ k < Text.writeBound) goto

section Maps

variable {symbols : Symbols} {rules : RuleBook} {states : Nat}
  {action : Int → String → Option Action} {goto : Int → String → Option Nat}

theorem sound_ofMaps {eof : String} (hfields : ∀ x ∈ symbols.names, IsField x)
    (hdistinct : symbols.names.Nodup) (heof : eof ∈ symbols.terminals)
    (hlhs : ∀ r ∈ rules, r.2.lhs ∈ symbols.nonterminals)
    (haction : ActionsFit symbols.terminals rules states action)
    (hgoto : GotosFit symbols.nonterminals states goto) :
    (ofMaps symbols rules states action goto).Sound eof where
  fields := hfields
  distinct := hdistinct
  eof := heof
  lengthActions := by simp [ofMaps]
  lengthGotos := by simp [ofMaps]
  widthActions := by simp [ofMaps]
  widthGotos := by simp [ofMaps]
  actions := by
    intro row hrow a ha
    obtain ⟨s, -, rfl⟩ := List.mem_map.1 hrow
    obtain ⟨x, -, rfl⟩ := List.mem_map.1 ha
    cases hx : action s x with
    | none => exact ⟨trivial, nofun⟩
    | some a => exact (haction s x a hx).2.2
  gotos := by
    intro row hrow target htarget k hk
    obtain ⟨s, -, rfl⟩ := List.mem_map.1 hrow
    obtain ⟨x, -, rfl⟩ := List.mem_map.1 htarget
    exact (hgoto s x k hk).2.2
  lhs := hlhs

/-- The table has the actions of the map. -/
theorem actionOf_ofMaps (hdistinct : symbols.names.Nodup)
    (haction : ActionsFit symbols.terminals rules states action) {x : String}
    (hx : x ∈ symbols.terminals) (s : Int) :
    (ofMaps symbols rules states action goto).actionOf s x = .ok ((action s x).getD .error) := by
  obtain ⟨j, hj⟩ := List.mem_iff_getElem?.1 hx
  rw [actionOf_terminal (t := ofMaps symbols rules states action goto) hdistinct hj]
  by_cases hs : s < 0 ∨ (states : Int) ≤ s
  · rw [cellAt?_eq_none (by simpa [ofMaps] using hs), haction.eq_none_of_state hs, Option.getD_none]
  · obtain ⟨s, rfl⟩ := Int.eq_ofNat_of_zero_le (Int.not_lt.1 (not_or.1 hs).1)
    have hs : s < states := by omega
    simp [ofMaps, hs, hj]

/-- The table has the targets of the map. -/
theorem gotoOf_ofMaps (hdistinct : symbols.names.Nodup)
    (hgoto : GotosFit symbols.nonterminals states goto) {x : String}
    (hx : x ∈ symbols.nonterminals) (s : Int) :
    (ofMaps symbols rules states action goto).gotoOf s x = .ok (goto s x) := by
  obtain ⟨j, hj⟩ := List.mem_iff_getElem?.1 hx
  rw [gotoOf_nonterminal (t := ofMaps symbols rules states action goto) hdistinct hj]
  by_cases hs : s < 0 ∨ (states : Int) ≤ s
  · rw [cellAt?_eq_none (by simpa [ofMaps] using hs), hgoto.eq_none_of_state hs, Option.join_none]
  · obtain ⟨s, rfl⟩ := Int.eq_ofNat_of_zero_le (Int.not_lt.1 (not_or.1 hs).1)
    have hs : s < states := by omega
    simp [ofMaps, hs, hj]

end Maps

end Table

/-- **Round trip.** What is written down for any actions and targets is read back as a table that
has these actions and targets and no others, and the symbols, rules and states as they were. -/
theorem table_round_trip {rules : RuleBook} {terminals nonterminals : List String} {eof : String}
    {n : Nat} {action : Int → String → Option Action} {goto : Int → String → Option Nat}
    (hfields : ∀ x ∈ terminals ++ nonterminals, IsField x)
    (hdistinct : (terminals ++ nonterminals).Nodup) (heof : eof ∈ terminals)
    (hlhs : ∀ r ∈ rules, r.2.lhs ∈ nonterminals)
    (haction : Table.ActionsFit terminals rules n action)
    (hgoto : Table.GotosFit nonterminals n goto) (sep : LineEnd) (final : Option LineEnd) :
    ∃ t, Table.read ⟨rules, terminals, nonterminals, n, eof⟩
        (joinLines sep final (Table.ofMaps ⟨terminals, nonterminals⟩ rules n action goto).lines) =
          .ok t ∧
      t.symbols = ⟨terminals, nonterminals⟩ ∧ t.rules = rules ∧ t.states = n ∧
      ∀ s, ∀ x ∈ terminals ++ nonterminals,
        t.actionOf s x = .ok ((action s x).getD .error) ∧ t.gotoOf s x = .ok (goto s x) := by
  have hdisjoint : ∀ x ∈ terminals, x ∉ nonterminals :=
    fun x hx hx' => List.disjoint_of_nodup_append hdistinct hx hx'
  have hnames : (Symbols.mk terminals nonterminals).names.Nodup := hdistinct
  have hsound : (Table.ofMaps ⟨terminals, nonterminals⟩ rules n action goto).Sound eof :=
    Table.sound_ofMaps hfields hdistinct heof hlhs haction hgoto
  refine ⟨_, hsound.read_joinLines sep final, rfl, rfl, rfl, fun s x hx => ?_⟩
  rcases List.mem_append.1 hx with hx | hx
  · rw [hgoto.eq_none_of_name (hdisjoint x hx)]
    exact ⟨Table.actionOf_ofMaps hnames haction hx s, Table.gotoOf_terminal hsound.distinct hx s⟩
  · rw [haction.eq_none_of_name fun hx' => hdisjoint x hx' hx]
    exact ⟨hsound.shownBy_lines.actionOf_nonterminal hx s,
      Table.gotoOf_ofMaps hnames hgoto hx s⟩

/-- A table of three states: a word of one letter is shifted and reduced, and then accepted. -/
theorem table_round_trip_oneLetter :
    ∃ t, Table.read ⟨[(1, ⟨1, "S", "S -> a"⟩)], ["a", "EOF"], ["S"], 3, "EOF"⟩
        (joinLines .crlf (some .lf) ["STATE&a&EOF", "0&s1&", "1&&r1", "2&&acc", "STATE&S", "0&2",
          "1&", "2&"]) = .ok t ∧
      t.actionOf 0 "a" = .ok (.shift 1) ∧ t.actionOf 0 "EOF" = .ok .error ∧
      t.gotoOf 0 "S" = .ok (some 2) := by
  let action : Int → String → Option Action
    | 0, "a" => some (.shift 1)
    | 1, "EOF" => some (.reduce 1)
    | 2, "EOF" => some .accept
    | _, _ => none
  let goto : Int → String → Option Nat
    | 0, "S" => some 2
    | _, _ => none
  have haction : Table.ActionsFit ["a", "EOF"] [(1, ⟨1, "S", "S -> a"⟩)] 3 action := by
    intro s x a h
    unfold action at h
    split at h
    · cases h
      exact ⟨by decide, by decide, (by decide : 1 < 3),
        fun k hk => Option.some.inj hk ▸ Text.lt_writeBound (by decide)⟩
    · cases h
      exact ⟨by decide, by decide, List.mem_singleton_self (1 : Int),
        fun k hk => Option.some.inj hk ▸ Text.lt_writeBound (by decide)⟩
    · cases h
      exact ⟨by decide, by decide, trivial, nofun⟩
    · cases h
  have hgoto : Table.GotosFit ["S"] 3 goto := by
    intro s x k h
    unfold goto at h
    split at h
    · cases h
      exact ⟨by decide, by decide, by decide, Text.lt_writeBound (by decide)⟩
    · cases h
  have hplain : ∀ x ∈ ["a", "EOF"] ++ ["S"], x.toList.all isPlain = true := by decide
  obtain ⟨t, hread, -, -, -, ht⟩ := table_round_trip (fun x hx => IsField.of_all (hplain x hx))
    (by decide) (by decide : "EOF" ∈ _) (by decide) haction hgoto .crlf (some .lf)
  exact ⟨t, hread, (ht 0 "a" (by decide)).1, (ht 0 "EOF" (by decide)).1, (ht 0 "S" (by decide)).2⟩

end CatAndMouse
