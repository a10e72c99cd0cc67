import CatAndMouse.Proofs.Table.Form
import CatAndMouse.Proofs.Table.Numbering

/-!
# Looking things up in a table

No two columns of a table have one name, so a name leads to its column, in the block of
the terminals or in that of the nonterminals (`Table.actionOf_terminal`,
`Table.gotoOf_nonterminal`). The main result is `table_read_iff_form`: a text is read as a
table exactly if it has the form of one, and in every state the table does what the
cells of the row of that state say.
-/

namespace CatAndMouse

namespace Table

/-! ### Columns -/

variable {t : Table} {x : String} {j : Nat}

theorem columnOf_terminal (hdistinct : t.symbols.names.Nodup)
    (hx : t.symbols.terminals[j]? = some x) : t.columnOf x = .ok j := by
  rw [columnOf, (Symbols.numbers hdistinct).terminal j x hx]

theorem columnOf_nonterminal (hdistinct : t.symbols.names.Nodup)
    (hx : t.symbols.nonterminals[j]? = some x) :
    t.columnOf x = .ok (t.symbols.terminals.length + j) := by
  rw [columnOf, (Symbols.numbers hdistinct).nonterminal j x hx]

theorem columnOf_of_not_mem (hx : x ∉ t.symbols.names) : t.columnOf x = .error ⟨x⟩ := by
  rw [columnOf, Symbols.idOf?, List.idxOf?_eq_none_iff.2 hx]

/-- Outside the rows there is nothing to find. -/
theorem cellAt?_eq_none {α : Type} {block : List (List α)} {s : Int}
    (hs : s < 0 ∨ (block.length : Int) ≤ s) (j : Nat) : cellAt? block s j = none := by
  cases s with
  | ofNat s =>
    have hs : block.length ≤ s := by
      simp only [Int.ofNat_eq_natCast] at hs
      omega
    rw [Int.ofNat_eq_natCast, cellAt?_natCast, List.getElem?_eq_none hs]
    rfl
  | negSucc s => rfl

/-- **The action** facing a terminal is in the column of the terminal. -/
theorem actionOf_terminal (hdistinct : t.symbols.names.Nodup)
    (hx : t.symbols.terminals[j]? = some x) (s : Int) :
    t.actionOf s x = .ok ((cellAt? t.actions s j).getD .error) := by
  rw [actionOf, columnOf_terminal hdistinct hx]
  rfl

/-- **The target** over a nonterminal is in the column of the nonterminal. -/
theorem gotoOf_nonterminal (hdistinct : t.symbols.names.Nodup)
    (hx : t.symbols.nonterminals[j]? = some x) (s : Int) :
    t.gotoOf s x = .ok (cellAt? t.gotos s j).join := by
  rw [gotoOf, columnOf_nonterminal hdistinct hx, Except.map,
    if_neg (Nat.not_lt.2 (Nat.le_add_right ..)), Nat.add_sub_cancel_left]

/-- Over a terminal there is no target. -/
theorem gotoOf_terminal (hdistinct : t.symbols.names.Nodup) (hx : x ∈ t.symbols.terminals)
    (s : Int) : t.gotoOf s x = .ok none := by
  obtain ⟨j, hj⟩ := List.mem_iff_getElem?.1 hx
  rw [gotoOf, columnOf_terminal hdistinct hj, Except.map,
    if_pos (List.getElem?_eq_some_iff.1 hj).1]

/-- The terminals are the heads of their columns, in every state with a row of full length. -/
theorem actionRow_eq (hdistinct : t.symbols.names.Nodup) {s : Nat} {row : List Action}
    (hrow : t.actions[s]? = some row) (hlen : row.length = t.symbols.terminals.length) :
    t.actionRow s = t.symbols.terminals.map fun x =>
      (x, (t.actionOf s x).toOption.getD .error) := by
  have hact : row = t.symbols.terminals.map fun x => (t.actionOf s x).toOption.getD .error := by
    refine List.ext_getElem (by rw [hlen, List.length_map]) fun j hj _ => ?_
    have hjt : j < t.symbols.terminals.length := hlen ▸ hj
    rw [List.getElem_map, actionOf_terminal hdistinct (List.getElem?_eq_getElem hjt),
      cellAt?_natCast, hrow, Option.bind_some, List.getElem?_eq_getElem hj]
    rfl
  show t.symbols.terminals.zip (t.actions[s]?.getD []) = _
  rw [hrow, Option.getD_some]
  conv_lhs => rw [hact]
  rw [← List.map_prod_left_eq_zip]

end Table

/-! ### Rows -/

namespace RowShows

variable {α : Type} {Shows : List Char → α → Prop} {width state : Nat} {fields : List String}
  {row : List α}

theorem length_eq (h : RowShows Shows width state fields row) : row.length = width := by
  rw [← h.cells.length_eq, List.length_tail, h.length, Nat.add_sub_cancel]

/-- A member of the row is shown by the field in its place, after the label. -/
theorem exists_field (h : RowShows Shows width state fields row) {j : Nat} {a : α}
    (ha : row[j]? = some a) :
    ∃ cell, fields[j + 1]? = some cell ∧ Shows (Text.strip cell.toList) a := by
  obtain ⟨hj, rfl⟩ := List.getElem?_eq_some_iff.1 ha
  have hcell : j < fields.tail.length := h.cells.length_eq ▸ hj
  refine ⟨fields.tail[j], ?_, h.cells.get hcell hj⟩
  rw [← List.getElem?_tail, List.getElem?_eq_getElem hcell]

end RowShows

namespace Table.ShownBy

variable {spec : TableSpec} {n : Nat} {lines : List String} {t : Table}
  (h : t.ShownBy spec n lines)

include h

theorem exists_actions {s : Nat} (hs : s < n) :
    ∃ row, t.actions[s]? = some row ∧ RowShows (ActionCell n spec.rules)
      t.symbols.terminals.length s (fieldsAt lines (s + 1)) row := by
  have hrow := List.getElem?_eq_getElem (h.lengthActions.symm ▸ hs)
  exact ⟨_, hrow, h.permTerminals.length_eq ▸ h.actions s _ hrow⟩

theorem exists_gotos {s : Nat} (hs : s < n) :
    ∃ row, t.gotos[s]? = some row ∧ RowShows (TargetCell n)
      t.symbols.nonterminals.length s (fieldsAt lines (n + 2 + s)) row := by
  have hrow := List.getElem?_eq_getElem (h.lengthGotos.symm ▸ hs)
  exact ⟨_, hrow, h.permNonterminals.length_eq ▸ h.gotos s _ hrow⟩

/-- Facing a terminal, the table does what the cell of the terminal says. -/
theorem exists_action {s j : Nat} {x : String} (hs : s < n)
    (hx : t.symbols.terminals[j]? = some x) :
    ∃ cell a, (fieldsAt lines (s + 1))[j + 1]? = some cell ∧
      ActionCell n spec.rules (Text.strip cell.toList) a ∧ t.actionOf s x = .ok a := by
  obtain ⟨row, hrow, hshows⟩ := h.exists_actions hs
  have hj : j < row.length := hshows.length_eq.symm ▸ (List.getElem?_eq_some_iff.1 hx).1
  obtain ⟨cell, hcell, ha⟩ := hshows.exists_field (List.getElem?_eq_getElem hj)
  refine ⟨cell, row[j], hcell, ha, ?_⟩
  rw [actionOf_terminal h.distinct hx, cellAt?_natCast, hrow, Option.bind_some,
    List.getElem?_eq_getElem hj, Option.getD_some]

/-- Over a nonterminal, the table goes where the cell of the nonterminal says. -/
theorem exists_goto {s j : Nat} {x : String} (hs : s < n)
    (hx : t.symbols.nonterminals[j]? = some x) :
    ∃ cell target, (fieldsAt lines (n + 2 + s))[j + 1]? = some cell ∧
      TargetCell n (Text.strip cell.toList) target ∧ t.gotoOf s x = .ok target := by
  obtain ⟨row, hrow, hshows⟩ := h.exists_gotos hs
  have hj : j < row.length := hshows.length_eq.symm ▸ (List.getElem?_eq_some_iff.1 hx).1
  obtain ⟨cell, hcell, ha⟩ := hshows.exists_field (List.getElem?_eq_getElem hj)
  refine ⟨cell, row[j], hcell, ha, ?_⟩
  rw [gotoOf_nonterminal h.distinct hx, cellAt?_natCast, hrow, Option.bind_some,
    List.getElem?_eq_getElem hj, Option.join_some]

/-- Facing a symbol that is no terminal, every state has an error. -/
theorem actionOf_nonterminal {x : String} (hx : x ∈ t.symbols.nonterminals) (s : Int) :
    t.actionOf s x = .ok .error := by
  obtain ⟨j, hj⟩ := List.mem_iff_getElem?.1 hx
  rw [actionOf, columnOf_nonterminal h.distinct hj, Except.map]
  by_cases hs : s < 0 ∨ (n : Int) ≤ s
  · rw [cellAt?_eq_none (h.lengthActions.symm ▸ hs)]
    rfl
  · obtain ⟨s, rfl⟩ := Int.eq_ofNat_of_zero_le (Int.not_lt.1 (not_or.1 hs).1)
    obtain ⟨row, hrow, hshows⟩ := h.exists_actions (s := s) (by omega)
    rw [cellAt?_natCast, hrow, Option.bind_some,
      List.getElem?_eq_none (hshows.length_eq ▸ Nat.le_add_right ..)]
    rfl

/-- A state that is none of the table has errors only. -/
theorem actionOf_outside {s : Int} (hs : s < 0 ∨ n ≤ s) {x : String}
    (hx : x ∈ t.symbols.terminals) : t.actionOf s x = .ok .error := by
  obtain ⟨j, hj⟩ := List.mem_iff_getElem?.1 hx
  rw [actionOf_terminal h.distinct hj, cellAt?_eq_none (h.lengthActions.symm ▸ hs),
    Option.getD_none]

/-- A state that is none of the table has no targets. -/
theorem gotoOf_outside {s : Int} (hs : s < 0 ∨ n ≤ s) {x : String}
    (hx : x ∈ t.symbols.nonterminals) : t.gotoOf s x = .ok none := by
  obtain ⟨j, hj⟩ := List.mem_iff_getElem?.1 hx
  rw [gotoOf_nonterminal h.distinct hj, cellAt?_eq_none (h.lengthGotos.symm ▸ hs),
    Option.join_none]

/-- **Expected** are the terminals that are no error, in the order of their columns. -/
theorem expected_eq (s : Int) :
    t.expected s = t.symbols.terminals.filter fun x => t.actionOf s x ≠ .ok .error := by
  by_cases hs : s < 0 ∨ (n : Int) ≤ s
  · rw [List.filter_eq_nil_iff.2 fun x hx => by simp [h.actionOf_outside hs hx]]
    cases s with
    | ofNat s =>
      have hrow : t.actions[s]? = none := by
        rw [List.getElem?_eq_none_iff, h.lengthActions]
        simp only [Int.ofNat_eq_natCast] at hs
        omega
      simp [expected, actionRow, hrow]
    | negSucc s => rfl
  · obtain ⟨s, rfl⟩ := Int.eq_ofNat_of_zero_le (Int.not_lt.1 (not_or.1 hs).1)
    obtain ⟨row, hrow, hshows⟩ := h.exists_actions (s := s) (by omega)
    rw [expected, actionRow_eq h.distinct hrow hshows.length_eq, List.filter_map, List.map_map]
    refine (List.map_id _).trans (List.filter_congr fun x hx => ?_)
    obtain ⟨j, hj⟩ := List.mem_iff_getElem?.1 hx
    simp [actionOf_terminal h.distinct hj, Except.toOption]

end Table.ShownBy

/-! ### Exactness -/

/-- The table does what the cells on the lines say: in each of the `n` states it has, facing a
terminal and over a nonterminal, what the cell in the row of the state and the column of the
symbol shows, and nowhere else does it have anything. -/
structure Table.Obeys (rules : RuleBook) (n : Nat) (lines : List String) (t : Table) : Prop where
  states : t.states = n
  rules : t.rules = rules
  terminals : t.symbols.terminals = namesAt lines 0
  nonterminals : t.symbols.nonterminals = namesAt lines (n + 1)
  action : ∀ s < n, ∀ j x, t.symbols.terminals[j]? = some x →
    ∃ cell a, (fieldsAt lines (s + 1))[j + 1]? = some cell ∧
      ShowsAction (Text.strip cell.toList) a ∧ t.actionOf s x = .ok a
  goto : ∀ s < n, ∀ j x, t.symbols.nonterminals[j]? = some x →
    ∃ cell target, (fieldsAt lines (n + 2 + s))[j + 1]? = some cell ∧
      ShowsTarget (Text.strip cell.toList) target ∧ t.gotoOf s x = .ok target
  action_outside : ∀ s : Int, s < 0 ∨ n ≤ s → ∀ x ∈ t.symbols.terminals,
    t.actionOf s x = .ok .error
  goto_outside : ∀ s : Int, s < 0 ∨ n ≤ s → ∀ x ∈ t.symbols.nonterminals,
    t.gotoOf s x = .ok none
  action_nonterminal : ∀ s, ∀ x ∈ t.symbols.nonterminals, t.actionOf s x = .ok .error
  goto_terminal : ∀ s, ∀ x ∈ t.symbols.terminals, t.gotoOf s x = .ok none
  unknown : ∀ s, ∀ x ∉ t.symbols.names,
    t.actionOf s x = .error ⟨x⟩ ∧ t.gotoOf s x = .error ⟨x⟩
  expected : ∀ s, t.expected s = t.symbols.terminals.filter fun x => t.actionOf s x ≠ .ok .error

theorem Table.ShownBy.obeys {spec : TableSpec} {n : Nat} {lines : List String} {t : Table}
    (h : t.ShownBy spec n lines) : t.Obeys spec.rules n lines where
  states := h.states
  rules := h.rules
  terminals := h.terminals
  nonterminals := h.nonterminals
  action := fun s hs j x hx => by
    obtain ⟨cell, a, hcell, ha, hact⟩ := h.exists_action hs hx
    exact ⟨cell, a, hcell, ha.1, hact⟩
  goto := fun s hs j x hx => by
    obtain ⟨cell, target, hcell, ht, hgoto⟩ := h.exists_goto hs hx
    exact ⟨cell, target, hcell, ht.1, hgoto⟩
  action_outside := fun s hs x hx => h.actionOf_outside hs hx
  goto_outside := fun s hs x hx => h.gotoOf_outside hs hx
  action_nonterminal := fun s x hx => h.actionOf_nonterminal hx s
  goto_terminal := fun s x hx => Table.gotoOf_terminal h.distinct hx s
  unknown := fun s x hx => by
    rw [actionOf, gotoOf, columnOf_of_not_mem hx]
    exact ⟨rfl, rfl⟩
  expected := h.expected_eq

/-- **A text is read as a table** of `n` states exactly if its lines have the form of one, and
what is read does what the lines say. -/
theorem table_read_iff_form (rules : RuleBook) (terminals nonterminals : List String)
    (eof : String) (n : Nat) (text : String) :
    ((∃ t, Table.read ⟨rules, terminals, nonterminals, n, eof⟩ text = .ok t) ↔
        Table.Form ⟨rules, terminals, nonterminals, n, eof⟩ n (Table.textLines text)) ∧
      ∀ t, Table.read ⟨rules, terminals, nonterminals, n, eof⟩ text = .ok t →
        t.Obeys rules n (Table.textLines text) := by
  refine ⟨?_, fun t ht => ((Table.read_eq_ok_iff rfl).1 ht).obeys⟩
  rw [← Table.exists_shownBy_iff]
  exact exists_congr fun t => Table.read_eq_ok_iff rfl

end CatAndMouse
