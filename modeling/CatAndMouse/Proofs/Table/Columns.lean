import CatAndMouse.Proofs.Automaton.Tables
import CatAndMouse.Proofs.Table.Written

/-!
# Columns in another order

The header of a block names its columns, in whatever order. If the columns of a table are moved, the
header with the rows, then what is read is another table, with other numbers for its symbols, but
every state has the same action facing the same terminal and the same target over the same
nonterminal (`Table.ShownBy.agrees`): a name leads to its column, and the column has moved with its
name. So runs cannot tell the tables apart, but for the order in which an error lists the
terminals (`columns_may_move`).
-/

namespace CatAndMouse

/-! ### Reordering lists -/

section Reorder

variable {α β : Type} {places : List Nat} {xs : List α}

/-- The members of a list in these places, in the order of the places. -/
def reorder (places : List Nat) (xs : List α) : List α := places.filterMap (xs[·]?)

theorem reorder_nil (places : List Nat) : reorder places ([] : List α) = [] := by
  simp [reorder]

theorem reorder_map (f : α → β) (places : List Nat) (xs : List α) :
    reorder places (xs.map f) = (reorder places xs).map f := by
  simp [reorder, List.map_filterMap]

/-- Reordered by all its places, a list keeps its members. -/
theorem reorder_perm (h : places.Perm (List.range xs.length)) : (reorder places xs).Perm xs := by
  have hall : ∀ xs : List α, reorder (List.range xs.length) xs = xs := by
    intro xs
    induction xs with
    | nil => rfl
    | cons x xs ih =>
      rw [reorder, List.length_cons, List.range_succ_eq_map, List.filterMap_cons,
        List.filterMap_map]
      exact congrArg (x :: ·) ih
  exact (h.filterMap _).trans (.of_eq (hall xs))

/-- In a place is the member that was called there. -/
theorem getElem?_reorder (h : ∀ i ∈ places, i < xs.length) {i j : Nat}
    (hj : places[j]? = some i) : (reorder places xs)[j]? = xs[i]? := by
  induction places generalizing j with
  | nil => cases hj
  | cons k places ih =>
    obtain ⟨hk, hplaces⟩ := List.forall_mem_cons.1 h
    rw [reorder, List.filterMap_cons, List.getElem?_eq_getElem hk]
    cases j with
    | zero =>
      obtain rfl : k = i := Option.some.inj hj
      exact (List.getElem?_eq_getElem hk).symm
    | succ j => exact ih hplaces hj

/-- Every member has a place after reordering. -/
theorem exists_place (h : places.Perm (List.range xs.length)) {i : Nat} {x : α}
    (hx : xs[i]? = some x) : ∃ j : Nat, places[j]? = some i ∧ (reorder places xs)[j]? = some x := by
  have hi : i ∈ places := h.mem_iff.2 (List.mem_range.2 (List.getElem?_eq_some_iff.1 hx).1)
  obtain ⟨j, hj⟩ := List.mem_iff_getElem?.1 hi
  exact ⟨j, hj, (getElem?_reorder (fun k hk => List.mem_range.1 (h.mem_iff.1 hk)) hj).trans hx⟩

end Reorder

/-! ### Moving columns -/

/-- The fields of a line with its cells in another order. The label stays first. -/
def reorderCells (places : List Nat) : List String → List String
  | [] => []
  | label :: cells => label :: reorder places cells

/-- What belongs to the line of a number: the first thing up to the last row of actions, the second
thing from the header of the targets on. -/
def atLine {α : Type} (n i : Nat) (first second : α) : α := if i ≤ n then first else second

theorem atLine_of_le {α : Type} {n i : Nat} (h : i ≤ n) (first second : α) :
    atLine n i first second = first := if_pos h

theorem atLine_of_lt {α : Type} {n i : Nat} (h : n < i) (first second : α) :
    atLine n i first second = second := if_neg (Nat.not_le.2 h)

/-- The fields of the line of a number, without white space around them. -/
def strippedAt (lines : List String) (i : Nat) : List String :=
  (fieldsAt lines i).map Text.stripped

/-- `ColumnsMoved n p q lines lines'`: the lines `lines'` are the lines `lines` of a table of `n`
states, with the columns of the actions in the order `p` and those of the targets in the order `q`.
White space around fields does not count. -/
structure ColumnsMoved (n : Nat) (p q : List Nat) (lines lines' : List String) : Prop where
  length : lines'.length = lines.length
  fields : ∀ i, strippedAt lines' i = reorderCells (atLine n i p q) (strippedAt lines i)

theorem tail_reorderCells (places : List Nat) (fields : List String) :
    (reorderCells places fields).tail = reorder places fields.tail := by
  cases fields with
  | nil => exact (reorder_nil places).symm
  | cons => rfl

theorem head?_reorderCells (places : List Nat) (fields : List String) :
    (reorderCells places fields).head? = fields.head? := by
  cases fields <;> rfl

theorem namesAt_eq_tail (lines : List String) (i : Nat) :
    namesAt lines i = (strippedAt lines i).tail := by
  rw [namesAt, strippedAt, List.map_tail]

section Moved

variable {n : Nat} {p q : List Nat} {lines lines' : List String} {i : Nat}
  (h : ColumnsMoved n p q lines lines')

include h

/-- Names move with their columns. -/
theorem ColumnsMoved.namesAt_eq :
    namesAt lines' i = reorder (atLine n i p q) (namesAt lines i) := by
  rw [namesAt_eq_tail, namesAt_eq_tail, h.fields, tail_reorderCells]

/-- So do cells: each looks like the one in the place from which its column has come. -/
theorem ColumnsMoved.cell_eq {width j j' : Nat} {cell cell' : String}
    (hplaces : (atLine n i p q).Perm (List.range width))
    (hwidth : (fieldsAt lines i).length = width + 1) (hj : (atLine n i p q)[j']? = some j)
    (hcell : (fieldsAt lines i)[j + 1]? = some cell)
    (hcell' : (fieldsAt lines' i)[j' + 1]? = some cell') :
    Text.stripped cell' = Text.stripped cell := by
  have hlt : ∀ k ∈ atLine n i p q, k < (strippedAt lines i).tail.length := by
    intro k hk
    rw [strippedAt, List.length_tail, List.length_map, hwidth, Nat.add_sub_cancel]
    exact List.mem_range.1 (hplaces.mem_iff.1 hk)
  have hsame : (strippedAt lines' i)[j' + 1]? = (strippedAt lines i)[j + 1]? := by
    rw [← List.getElem?_tail, ← List.getElem?_tail, h.fields, tail_reorderCells,
      getElem?_reorder hlt hj]
  rw [strippedAt, strippedAt, List.getElem?_map, List.getElem?_map, hcell, hcell'] at hsame
  exact Option.some.inj hsame

/-- A row of the right form still has it when its cells are moved. -/
theorem ColumnsMoved.rowForm {width state : Nat} {IsCell : List Char → Prop}
    (hplaces : (atLine n i p q).Perm (List.range width))
    (hrow : RowForm width state IsCell (fieldsAt lines i)) :
    RowForm width state IsCell (fieldsAt lines' i) := by
  have hwidth : (strippedAt lines i).tail.length = width := by
    rw [strippedAt, List.length_tail, List.length_map, hrow.length, Nat.add_sub_cancel]
  have hperm : (strippedAt lines' i).tail.Perm (strippedAt lines i).tail := by
    rw [h.fields, tail_reorderCells]
    exact reorder_perm (hwidth ▸ hplaces)
  have hlabel : (fieldsAt lines' i).head?.map Text.stripped = some (toString state) := by
    rw [← hrow.label, ← List.head?_map, ← List.head?_map]
    exact (congrArg List.head? (h.fields i)).trans (head?_reorderCells ..)
  refine ⟨?_, hlabel, fun cell hcell => ?_⟩
  · have hne : fieldsAt lines' i ≠ [] := by
      intro hnil
      rw [hnil] at hlabel
      cases hlabel
    have hlength := hperm.length_eq
    rw [hwidth, strippedAt, List.length_tail, List.length_map] at hlength
    have hpos := List.length_pos_iff.2 hne
    omega
  · -- the same cell, up to white space around it, is in the other row
    have hmem : Text.stripped cell ∈ (strippedAt lines i).tail := by
      refine hperm.subset ?_
      rw [strippedAt, ← List.map_tail]
      exact List.mem_map_of_mem hcell
    rw [strippedAt, ← List.map_tail] at hmem
    obtain ⟨cell₀, hcell₀, heq⟩ := List.mem_map.1 hmem
    rw [← String.ofList_injective heq]
    exact hrow.cells cell₀ hcell₀

end Moved

/-! ### Reading what was moved -/

/-- The two lists are orders of all columns, of the terminals and of the nonterminals. -/
structure AreOrders (terminals nonterminals : List String) (p q : List Nat) : Prop where
  terminals : p.Perm (List.range terminals.length)
  nonterminals : q.Perm (List.range nonterminals.length)

namespace Table

variable {spec : TableSpec} {n : Nat} {p q : List Nat} {lines lines' : List String} {t t' : Table}

theorem Form.of_moved (h : Form spec n lines) (hmoved : ColumnsMoved n p q lines lines')
    (horders : AreOrders spec.terminals spec.nonterminals p q) : Form spec n lines' where
  count := hmoved.length.trans h.count
  terminals := by
    rw [hmoved.namesAt_eq]
    refine (reorder_perm ?_).trans h.terminals
    rw [h.terminals.length_eq]
    exact horders.terminals
  nonterminals := by
    rw [hmoved.namesAt_eq, atLine_of_lt (by omega)]
    refine (reorder_perm ?_).trans h.nonterminals
    rw [h.nonterminals.length_eq]
    exact horders.nonterminals
  distinct := h.distinct
  eof := h.eof
  actions := fun s hs => by
    refine hmoved.rowForm ?_ (h.actions s hs)
    rw [atLine_of_le (by omega)]
    exact horders.terminals
  gotos := fun s hs => by
    refine hmoved.rowForm ?_ (h.gotos s hs)
    rw [atLine_of_lt (by omega)]
    exact horders.nonterminals
  lhs := h.lhs

end Table

section Cells

variable {cell cell' : String} (hcells : Text.stripped cell' = Text.stripped cell)

include hcells

/-- Cells that are the same but for white space show one action. -/
theorem ShowsAction.unique {a a' : Action} (h : ShowsAction (Text.strip cell.toList) a)
    (h' : ShowsAction (Text.strip cell'.toList) a') : a' = a := by
  rw [String.ofList_injective hcells, ← Action.read_eq_ok_iff] at h'
  rw [← Action.read_eq_ok_iff, h'] at h
  exact Except.ok.inj h

theorem ShowsTarget.unique {target target' : Option Nat}
    (h : ShowsTarget (Text.strip cell.toList) target)
    (h' : ShowsTarget (Text.strip cell'.toList) target') : target' = target := by
  rw [String.ofList_injective hcells, ← readTarget_eq_ok_iff] at h'
  rw [← readTarget_eq_ok_iff, h'] at h
  exact Except.ok.inj h

end Cells

namespace Table.ShownBy

variable {spec : TableSpec} {n : Nat} {p q : List Nat} {lines lines' : List String} {t t' : Table}
  (h : t.ShownBy spec n lines) (h' : t'.ShownBy spec n lines')

include h h'

theorem mem_terminals_iff {x : String} :
    x ∈ t'.symbols.terminals ↔ x ∈ t.symbols.terminals :=
  (h'.permTerminals.trans h.permTerminals.symm).mem_iff

theorem mem_nonterminals_iff {x : String} :
    x ∈ t'.symbols.nonterminals ↔ x ∈ t.symbols.nonterminals :=
  (h'.permNonterminals.trans h.permNonterminals.symm).mem_iff

variable (hmoved : ColumnsMoved n p q lines lines')

include hmoved

theorem terminals_moved : t'.symbols.terminals = reorder p t.symbols.terminals := by
  rw [h'.terminals, hmoved.namesAt_eq, atLine_of_le (Nat.zero_le n), h.terminals]

theorem nonterminals_moved : t'.symbols.nonterminals = reorder q t.symbols.nonterminals := by
  rw [h'.nonterminals, hmoved.namesAt_eq, atLine_of_lt (Nat.lt_succ_self n), h.nonterminals]

variable (horders : AreOrders t.symbols.terminals t.symbols.nonterminals p q)

include horders

/-- A terminal has the same action in both tables: its column has moved with its name. -/
theorem actionOf_moved {x : String} (hx : x ∈ t.symbols.terminals) (s : Int) :
    t'.actionOf s x = t.actionOf s x := by
  by_cases hs : s < 0 ∨ (n : Int) ≤ s
  · rw [h.actionOf_outside hs hx, h'.actionOf_outside hs ((h.mem_terminals_iff h').2 hx)]
  obtain ⟨s, rfl⟩ := Int.eq_ofNat_of_zero_le (Int.not_lt.1 (not_or.1 hs).1)
  have hs : s < n := by omega
  have horder : atLine n (s + 1) p q = p := atLine_of_le hs p q
  obtain ⟨j, hj⟩ := List.mem_iff_getElem?.1 hx
  obtain ⟨j', hplace, hj'⟩ := exists_place horders.terminals hj
  rw [← h.terminals_moved h' hmoved] at hj'
  obtain ⟨cell, a, hcell, ha, haction⟩ := h.exists_action hs hj
  obtain ⟨cell', a', hcell', ha', haction'⟩ := h'.exists_action hs hj'
  obtain ⟨row, -, hshows⟩ := h.exists_actions hs
  have hcells := hmoved.cell_eq (horder.symm ▸ horders.terminals) hshows.length
    (horder.symm ▸ hplace) hcell hcell'
  rw [haction, haction', ShowsAction.unique hcells ha.1 ha'.1]

/-- A nonterminal has the same target in both tables. -/
theorem gotoOf_moved {x : String} (hx : x ∈ t.symbols.nonterminals) (s : Int) :
    t'.gotoOf s x = t.gotoOf s x := by
  by_cases hs : s < 0 ∨ (n : Int) ≤ s
  · rw [h.gotoOf_outside hs hx, h'.gotoOf_outside hs ((h.mem_nonterminals_iff h').2 hx)]
  obtain ⟨s, rfl⟩ := Int.eq_ofNat_of_zero_le (Int.not_lt.1 (not_or.1 hs).1)
  have hs : s < n := by omega
  have horder : atLine n (n + 2 + s) p q = q := atLine_of_lt (by omega) p q
  obtain ⟨j, hj⟩ := List.mem_iff_getElem?.1 hx
  obtain ⟨j', hplace, hj'⟩ := exists_place horders.nonterminals hj
  rw [← h.nonterminals_moved h' hmoved] at hj'
  obtain ⟨cell, target, hcell, htarget, hgoto⟩ := h.exists_goto hs hj
  obtain ⟨cell', target', hcell', htarget', hgoto'⟩ := h'.exists_goto hs hj'
  obtain ⟨row, -, hshows⟩ := h.exists_gotos hs
  have hcells := hmoved.cell_eq (horder.symm ▸ horders.nonterminals) hshows.length
    (horder.symm ▸ hplace) hcell hcell'
  rw [hgoto, hgoto', ShowsTarget.unique hcells htarget.1 htarget'.1]

/-- **Tables agree** if one shows what the other shows in moved columns. -/
theorem agrees : t'.Agrees t := by
  have hterminal : ∀ x, x ∈ t'.symbols.terminals ↔ x ∈ t.symbols.terminals := fun x =>
    h.mem_terminals_iff h'
  have hnonterminal : ∀ x, x ∈ t'.symbols.nonterminals ↔ x ∈ t.symbols.nonterminals := fun x =>
    h.mem_nonterminals_iff h'
  have hlookup : ∀ (s : Int) x,
      t'.actionOf s x = t.actionOf s x ∧ t'.gotoOf s x = t.gotoOf s x := by
    intro s x
    by_cases hx : x ∈ t.symbols.terminals
    · refine ⟨h.actionOf_moved h' hmoved horders hx s, ?_⟩
      rw [gotoOf_terminal h.distinct hx, gotoOf_terminal h'.distinct ((hterminal x).2 hx)]
    by_cases hx' : x ∈ t.symbols.nonterminals
    · refine ⟨?_, h.gotoOf_moved h' hmoved horders hx' s⟩
      rw [h.actionOf_nonterminal hx', h'.actionOf_nonterminal ((hnonterminal x).2 hx')]
    have hunknown : t.columnOf x = .error ⟨x⟩ :=
      columnOf_of_not_mem fun hmem => (List.mem_append.1 hmem).elim hx hx'
    have hunknown' : t'.columnOf x = .error ⟨x⟩ := columnOf_of_not_mem fun hmem =>
      (List.mem_append.1 hmem).elim (mt (hterminal x).1 hx) (mt (hnonterminal x).1 hx')
    rw [actionOf, actionOf, gotoOf, gotoOf, hunknown, hunknown']
    exact ⟨rfl, rfl⟩
  refine ⟨fun s x => (hlookup s x).1, fun s x => (hlookup s x).2, fun number => ?_, fun s => ?_⟩
  · rw [rule, rule, h.rules, h'.rules]
  · rw [h.expected_eq, h'.expected_eq]
    simp only [(hlookup s _).1]
    exact (h'.permTerminals.trans h.permTerminals.symm).filter _

end Table.ShownBy

/-! ### Texts with moved columns -/

/-- The lines with their columns in other orders. -/
def moveColumns (n : Nat) (p q : List Nat) (lines : List String) : List String :=
  lines.mapIdx fun i line =>
    Table.joinFields (reorderCells (atLine n i p q) (Text.pieces '&' line))

section MoveColumns

variable {n : Nat} {p q places : List Nat} {lines : List String}

theorem map_reorderCells (f : String → String) (places : List Nat) (fields : List String) :
    (reorderCells places fields).map f = reorderCells places (fields.map f) := by
  cases fields with
  | nil => rfl
  | cons label cells => simp [reorderCells, reorder_map]

theorem mem_of_mem_reorderCells {fields : List String} {x : String}
    (h : x ∈ reorderCells places fields) : x ∈ fields := by
  cases fields with
  | nil => cases h
  | cons label cells =>
    rcases List.mem_cons.1 h with rfl | h
    · exact List.mem_cons_self
    · obtain ⟨i, -, hi⟩ := List.mem_filterMap.1 h
      exact List.mem_cons_of_mem _ (List.mem_of_getElem? hi)

/-- The pieces of a line hold no separator. -/
theorem separator_of_mem_pieces {line x : String} (h : x ∈ Text.pieces '&' line) :
    '&' ∉ x.toList := by
  obtain ⟨l, hl, rfl⟩ := List.mem_map.1 h
  rw [String.toList_ofList]
  exact Text.not_mem_splitAt hl

theorem joinFields_pieces (line : String) : Table.joinFields (Text.pieces '&' line) = line := by
  have hpieces : (Text.pieces '&' line).map String.toList = Text.splitAt '&' line.toList := by
    simp [Text.pieces, Function.comp_def]
  rw [← String.toList_inj, Table.joinFields, String.toList_intercalate, hpieces]
  exact Text.intercalate_splitAt '&' line.toList

theorem pieces_ne_nil (line : String) : Text.pieces '&' line ≠ [] := by
  simp [Text.pieces, Text.splitAt_ne_nil]

theorem fieldsAt_moveColumns (n : Nat) (p q : List Nat) (lines : List String) (i : Nat) :
    fieldsAt (moveColumns n p q lines) i = reorderCells (atLine n i p q) (fieldsAt lines i) := by
  rw [fieldsAt, fieldsAt, moveColumns, List.getElem?_mapIdx]
  cases lines[i]? with
  | none => rfl
  | some line =>
    have hne : reorderCells (atLine n i p q) (Text.pieces '&' line) ≠ [] := by
      obtain ⟨label, cells, heq⟩ := List.exists_cons_of_ne_nil (pieces_ne_nil line)
      rw [heq]
      exact List.cons_ne_nil _ _
    exact pieces_joinFields
      (fun x hx => separator_of_mem_pieces (mem_of_mem_reorderCells hx)) hne

theorem columnsMoved_moveColumns (n : Nat) (p q : List Nat) (lines : List String) :
    ColumnsMoved n p q lines (moveColumns n p q lines) where
  length := by simp [moveColumns]
  fields i := by rw [strippedAt, fieldsAt_moveColumns, map_reorderCells, strippedAt]

/-- A line with its cells in another order has the same characters. -/
theorem perm_joinFields {fields : List String}
    (h : places.Perm (List.range fields.tail.length)) :
    (Table.joinFields (reorderCells places fields)).toList.Perm
      (Table.joinFields fields).toList := by
  cases fields with
  | nil => exact .refl _
  | cons label cells =>
    rw [reorderCells, Table.joinFields, Table.joinFields, String.toList_intercalate,
      String.toList_intercalate, show "&".toList = ['&'] from rfl, List.map_cons, List.map_cons,
      intercalate_cons, intercalate_cons]
    exact (((reorder_perm h).map _).flatMap_right _).append_left _

theorem isLine_of_mem_textLines {text line : String} (h : line ∈ Table.textLines text) :
    IsLine .crlf line.toList := by
  obtain ⟨l, hl, rfl⟩ := List.mem_map.1 h
  obtain ⟨hmem, hvisible⟩ := List.mem_filter.1 hl
  rw [String.toList_ofList]
  exact ⟨Text.not_mem_splitAt hmem, nofun, by simpa using hvisible⟩

theorem IsLine.of_perm {l l' : List Char} (h : IsLine .crlf l) (hperm : l'.Perm l) :
    IsLine .crlf l' :=
  ⟨mt hperm.mem_iff.1 h.lineFeed, nofun, hperm.all_eq.trans h.visible⟩

variable {spec : TableSpec} {t : Table}

/-- Every line of a table has as many cells as there are columns. -/
theorem AreOrders.atLine_perm (h : AreOrders t.symbols.terminals t.symbols.nonterminals p q)
    (ht : t.ShownBy spec n lines) {i : Nat} (hi : i < lines.length) :
    (atLine n i p q).Perm (List.range (fieldsAt lines i).tail.length) := by
  rw [ht.count] at hi
  rcases Nat.lt_trichotomy i (n + 1) with hlt | rfl | hlt
  · rw [atLine_of_le (Nat.le_of_lt_succ hlt)]
    have hwidth : (fieldsAt lines i).tail.length = t.symbols.terminals.length := by
      cases i with
      | zero => rw [ht.terminals, namesAt, List.length_map]
      | succ s =>
        obtain ⟨row, -, hshows⟩ := ht.exists_actions (s := s) (by omega)
        rw [List.length_tail, hshows.length, Nat.add_sub_cancel]
    rw [hwidth]
    exact h.terminals
  · have hwidth : (fieldsAt lines (n + 1)).tail.length = t.symbols.nonterminals.length := by
      rw [ht.nonterminals, namesAt, List.length_map]
    rw [atLine_of_lt (Nat.lt_succ_self n), hwidth]
    exact h.nonterminals
  · obtain ⟨s, rfl⟩ := Nat.exists_eq_add_of_le (show n + 2 ≤ i from hlt)
    obtain ⟨row, -, hshows⟩ := ht.exists_gotos (s := s) (by omega)
    rw [atLine_of_lt (by omega), List.length_tail, hshows.length, Nat.add_sub_cancel]
    exact h.nonterminals

/-- **Columns can be moved**: the lines with the columns in other orders are the lines of a text. -/
theorem exists_columnsMoved {text : String} (ht : t.ShownBy spec n (Table.textLines text))
    (h : AreOrders t.symbols.terminals t.symbols.nonterminals p q) :
    ∃ text', ColumnsMoved n p q (Table.textLines text) (Table.textLines text') := by
  have hline : ∀ l ∈ moveColumns n p q (Table.textLines text), IsLine .crlf l.toList := by
    intro l hl
    obtain ⟨i, hi, rfl⟩ := List.mem_mapIdx.1 hl
    refine (isLine_of_mem_textLines (List.getElem_mem hi)).of_perm ?_
    have hfields : fieldsAt (Table.textLines text) i =
        Text.pieces '&' (Table.textLines text)[i] := by
      rw [fieldsAt, List.getElem?_eq_getElem hi]
      rfl
    have hperm := perm_joinFields (h.atLine_perm ht hi)
    rwa [hfields, joinFields_pieces] at hperm
  have hne : moveColumns n p q (Table.textLines text) ≠ [] := by
    have hlength := (columnsMoved_moveColumns n p q (Table.textLines text)).length
    rw [ht.count] at hlength
    exact List.ne_nil_of_length_eq_add_one (n := 2 * n + 1) (by omega)
  refine ⟨joinLines .crlf none (moveColumns n p q (Table.textLines text)), ?_⟩
  have hfinal : ∀ e ∈ (none : Option LineEnd), ∀ l ∈ moveColumns n p q (Table.textLines text),
      IsLine e l.toList := by simp
  rw [textLines_joinLines hline hfinal hne]
  exact columnsMoved_moveColumns n p q _

end MoveColumns

/-- A table that has been read has the number of states that was asked for. -/
theorem Table.states_of_read {spec : TableSpec} {text : String} {t : Table}
    (h : Table.read spec text = .ok t) : spec.states = t.states := by
  have hstates : ∃ n : Nat, spec.states = n := by
    have hread := h
    unfold Table.read at hread
    dsimp only at hread
    split at hread
    · next hcount =>
      cases hlines : Table.textLines text with
      | nil =>
        rw [hlines] at hread
        cases hread
      | cons line lines =>
        rw [hlines, List.length_cons] at hcount
        exact ⟨spec.states.toNat, by omega⟩
    · split at hread <;> cases hread
  obtain ⟨n, hn⟩ := hstates
  rw [hn, ((Table.read_eq_ok_iff hn).1 h).states]

/-- **The order of columns does not matter.** A text from which a table is read still is the text of
a table when its columns are moved, those of the terminals and those of the nonterminals each in
some order. Under every name the two tables have the same. A run over any source comes to an end
under both or under neither, and to the same one: where a token is refused, the same terminals are
expected, in the order in which their columns now are. -/
theorem columns_may_move {spec : TableSpec} {text : String} {t : Table}
    (ht : Table.read spec text = .ok t) {p q : List Nat}
    (horders : AreOrders t.symbols.terminals t.symbols.nonterminals p q) :
    (∃ text', ColumnsMoved t.states p q (Table.textLines text) (Table.textLines text')) ∧
    ∀ text', ColumnsMoved t.states p q (Table.textLines text) (Table.textLines text') →
      ∃ t', Table.read spec text' = .ok t' ∧
        t'.symbols = ⟨reorder p t.symbols.terminals, reorder q t.symbols.nonterminals⟩ ∧
        (∀ (s : Int) x, t'.actionOf s x = t.actionOf s x ∧ t'.gotoOf s x = t.gotoOf s x) ∧
        ∀ {σ : Type} [TokenSource σ] (source : σ),
          (∀ o, t.HaltsWith source o →
            ∃ o', t'.HaltsWith source o' ∧ o.Reordered t'.symbols.terminals o') ∧
          (∀ o', t'.HaltsWith source o' →
            ∃ o, t.HaltsWith source o ∧ o.Reordered t'.symbols.terminals o') ∧
          Option.Rel (Outcome.Reordered t'.symbols.terminals) (t.derive? source)
            (t'.derive? source) := by
  have hstates := Table.states_of_read ht
  have hshown := (Table.read_eq_ok_iff hstates).1 ht
  refine ⟨exists_columnsMoved hshown horders, fun text' hmoved => ?_⟩
  have hform : Table.Form spec t.states (Table.textLines text') := by
    refine (Table.exists_shownBy_iff.1 ⟨t, hshown⟩).of_moved hmoved ⟨?_, ?_⟩
    · rw [← hshown.permTerminals.length_eq]
      exact horders.terminals
    · rw [← hshown.permNonterminals.length_eq]
      exact horders.nonterminals
  obtain ⟨t', hshown'⟩ := Table.exists_shownBy_iff.2 hform
  have hagrees := hshown.agrees hshown' hmoved horders
  refine ⟨t', (Table.read_eq_ok_iff hstates).2 hshown', ?_,
    fun s x => ⟨hagrees.action s x, hagrees.goto s x⟩, fun source =>
      ⟨fun o ho => hagrees.haltsWith ho, fun o' ho' => hagrees.haltsWith' ho',
        hagrees.derive?_rel source⟩⟩
  rw [← hshown.terminals_moved hshown' hmoved, ← hshown.nonterminals_moved hshown' hmoved]

/-- A program that comes to its end where its first statement should begin. -/
def emptyProgram : List Token := [.size, .integer, .integer, .start, .semicolon].map Token.sample

theorem columns_may_move_reverse :
    ∃ text t' o ys, Table.read .standard text = .ok t' ∧
      t'.symbols.terminals = standardTerminals.reverse ∧ t'.derive? emptyProgram = some o ∧
      o.verdict = .failed (.unexpected (.sample .semicolon) 5 ys) ∧
      ys.Perm ["CAT", "MOUSE", "HOLE", "MOVE", "CLOCKWISE", "REPEAT"] ∧
      ys.Sublist standardTerminals.reverse := by
  have horders : AreOrders Table.standard.symbols.terminals Table.standard.symbols.nonterminals
      (List.range 18).reverse (List.range 4).reverse :=
    ⟨List.reverse_perm _, List.reverse_perm _⟩
  obtain ⟨⟨text, hmoved⟩, hread⟩ := columns_may_move (Table.read_standard .lf none) horders
  obtain ⟨t', ht', hsymbols, -, hruns⟩ := hread text hmoved
  have hrun : (Table.standard.derive? emptyProgram).map Outcome.verdict =
      some (.failed (.unexpected (.sample .semicolon) 5
        ["CAT", "MOUSE", "HOLE", "MOVE", "CLOCKWISE", "REPEAT"])) := by rfl
  obtain ⟨o, ho, hv⟩ := Option.map_eq_some_iff.1 hrun
  obtain ⟨-, -, hrel⟩ := hruns emptyProgram
  have hterminals : t'.symbols.terminals = standardTerminals.reverse := by
    rw [hsymbols]
    decide
  rw [ho] at hrel
  generalize ho' : t'.derive? emptyProgram = r at hrel
  cases hrel with
  | @some _ o' hR =>
    have hverdict := hR.verdict
    rw [hv, hterminals] at hverdict
    generalize hv' : o'.verdict = v at hverdict
    cases hverdict with
    | unexpected hperm horder =>
      exact ⟨text, t', o', _, ht', hterminals, ho', hv', hperm, horder⟩
    | other hother => exact absurd rfl (hother _ _ _)

end CatAndMouse
