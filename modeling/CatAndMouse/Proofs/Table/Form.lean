import CatAndMouse.Proofs.Table.Cells

/-!
# The form of a table

`Table.Form` says which lines are a table of `n` states: two headers, and below each of
them a row for each state. `Table.ShownBy` says which table the lines show. A text is read
as a table exactly if its lines show it (`Table.read_eq_ok_iff`), and lines show a table
exactly if they have the form (`Table.exists_shownBy_iff`).
-/

namespace CatAndMouse

/-- The fields of the line of a number; none if there is no such line. -/
def fieldsAt (lines : List String) (i : Nat) : List String :=
  (lines[i]?.map (Text.pieces '&')).getD []

/-- The names in the header on the line of a number. -/
def namesAt (lines : List String) (i : Nat) : List String :=
  (fieldsAt lines i).tail.map Text.stripped

/-- The fields of a row: the number of its state, and as many cells as there are columns, each of
the right kind once the white space around it is gone. -/
structure RowForm (width state : Nat) (IsCell : List Char → Prop) (fields : List String) :
    Prop where
  length : fields.length = width + 1
  label : fields.head?.map Text.stripped = some (toString state)
  cells : ∀ cell ∈ fields.tail, IsCell (Text.strip cell.toList)

/-- A cell of an action: empty, `err`, `acc`, `s` with the number of a state, or `r` with the
number of a rule. -/
def IsActionCell (n : Nat) (rules : RuleBook) (cs : List Char) : Prop :=
  cs = [] ∨ cs = "err".toList ∨ cs = "acc".toList ∨
    (∃ digits state, cs = 's' :: digits ∧ ShowsNumber digits state ∧ state < n) ∨
    ∃ digits rule, cs = 'r' :: digits ∧ ShowsNumber digits rule ∧
      (rule : Int) ∈ rules.map Prod.fst

/-- A cell of a target: empty, or the number of a state. -/
def IsTargetCell (n : Nat) (cs : List Char) : Prop :=
  cs = [] ∨ ∃ state, ShowsNumber cs state ∧ state < n

/-- The lines are a table of `n` states with the symbols and rules that are asked for. -/
structure Table.Form (spec : TableSpec) (n : Nat) (lines : List String) : Prop where
  count : lines.length = 2 * (n + 1)
  terminals : (namesAt lines 0).Perm spec.terminals
  nonterminals : (namesAt lines (n + 1)).Perm spec.nonterminals
  distinct : (spec.terminals ++ spec.nonterminals).Nodup
  eof : spec.eof ∈ spec.terminals
  actions : ∀ s < n,
    RowForm spec.terminals.length s (IsActionCell n spec.rules) (fieldsAt lines (s + 1))
  gotos : ∀ s < n,
    RowForm spec.nonterminals.length s (IsTargetCell n) (fieldsAt lines (n + 2 + s))
  lhs : ∀ r ∈ spec.rules, r.2.lhs ∈ spec.nonterminals

/-- The fields of a row and what its cells show. -/
structure RowShows {α : Type} (Shows : List Char → α → Prop) (width state : Nat)
    (fields : List String) (row : List α) : Prop where
  length : fields.length = width + 1
  label : fields.head?.map Text.stripped = some (toString state)
  cells : List.Forall₂ (fun cell a => Shows (Text.strip cell.toList) a) fields.tail row

/-- The table is the one that the lines show. -/
structure Table.ShownBy (spec : TableSpec) (n : Nat) (lines : List String) (t : Table) :
    Prop where
  states : t.states = n
  rules : t.rules = spec.rules
  count : lines.length = 2 * (n + 1)
  terminals : t.symbols.terminals = namesAt lines 0
  nonterminals : t.symbols.nonterminals = namesAt lines (n + 1)
  permTerminals : t.symbols.terminals.Perm spec.terminals
  permNonterminals : t.symbols.nonterminals.Perm spec.nonterminals
  distinct : t.symbols.names.Nodup
  eof : spec.eof ∈ t.symbols.terminals
  lengthActions : t.actions.length = n
  lengthGotos : t.gotos.length = n
  actions : ∀ s row, t.actions[s]? = some row →
    RowShows (ActionCell n spec.rules) spec.terminals.length s (fieldsAt lines (s + 1)) row
  gotos : ∀ s row, t.gotos[s]? = some row →
    RowShows (TargetCell n) spec.nonterminals.length s (fieldsAt lines (n + 2 + s)) row
  lhs : ∀ r ∈ spec.rules, r.2.lhs ∈ t.symbols.nonterminals

/-! ### Reading rows -/

namespace Table

variable {line : Nat} {text : String}

theorem readHeader_eq_ok_iff {expected names : List String} :
    readHeader expected line text = .ok names ↔
      names = ((Text.pieces '&' text).tail.map Text.stripped) ∧ names.Perm expected := by
  unfold readHeader
  rw [List.drop_one]
  dsimp only
  split
  · next h =>
    rw [List.isPerm_iff] at h
    constructor
    · rintro ⟨⟩
      exact ⟨rfl, h⟩
    · rintro ⟨rfl, -⟩
      rfl
  · next h =>
    rw [List.isPerm_iff] at h
    constructor
    · rintro ⟨⟩
    · rintro ⟨rfl, hperm⟩
      exact absurd hperm h

theorem readCells_eq_ok_iff {width state : Nat} {cells : List String} :
    readCells width state line text = .ok cells ↔
      (Text.pieces '&' text).length = width + 1 ∧
        (Text.pieces '&' text).head?.map Text.stripped = some (toString state) ∧
        cells = (Text.pieces '&' text).tail := by
  unfold readCells
  cases Text.pieces '&' text with
  | nil => simp
  | cons label cells' =>
    dsimp only
    split
    · next h => simp [h]
    · next h =>
      split
      · next hlabel =>
        constructor
        · rintro ⟨⟩
        · rintro ⟨-, hlabel', -⟩
          exact absurd (Option.some.inj hlabel') hlabel
      · next hlabel =>
        have hlabel : Text.stripped label = toString state := Classical.not_not.1 hlabel
        simp [Classical.not_not.1 h, hlabel, eq_comm]

variable {α : Type} {names : List String} {readCell : Nat → String → String → Except ReadError α}
  {Shows : List Char → α → Prop}

/-- A row is read exactly if it has the right fields and each of its cells shows something. -/
theorem readRow_eq_ok_iff
    (hcell : ∀ line column cell a, readCell line column cell = .ok a ↔
      Shows (Text.strip cell.toList) a) {state : Nat} {row : List α} :
    (∃ cells, readCells names.length state line text = .ok cells ∧
      (names.zip cells).mapM (fun (column, cell) => readCell line column cell) = .ok row) ↔
    RowShows Shows names.length state (Text.pieces '&' text) row := by
  have hcells : ∀ cells : List String, cells.length = names.length →
      ((names.zip cells).mapM (fun (column, cell) => readCell line column cell) = .ok row ↔
        List.Forall₂ (fun cell a => Shows (Text.strip cell.toList) a) cells row) := by
    intro cells hlen
    have hsnd : (names.zip cells).map Prod.snd = cells := List.map_snd_zip (Nat.le_of_eq hlen)
    rw [mapM_eq_ok_iff]
    simp only [hcell]
    conv_rhs => rw [← hsnd]
    rw [List.forall₂_map_left_iff]
  constructor
  · rintro ⟨cells, hread, hrow⟩
    obtain ⟨hlen, hlabel, rfl⟩ := readCells_eq_ok_iff.1 hread
    exact ⟨hlen, hlabel, (hcells _ (by simp [hlen])).1 hrow⟩
  · rintro ⟨hlen, hlabel, hrow⟩
    exact ⟨_, readCells_eq_ok_iff.2 ⟨hlen, hlabel, rfl⟩, (hcells _ (by simp [hlen])).2 hrow⟩

/-- **Rows are read** one by one, the number of the state going up with them. -/
theorem readRows_eq_ok_iff
    (hcell : ∀ line column cell a, readCell line column cell = .ok a ↔
      Shows (Text.strip cell.toList) a) {state : Nat} {texts : List String}
    {rows : List (List α)} :
    readRows names readCell state line texts = .ok rows ↔
      rows.length = texts.length ∧ ∀ i row, rows[i]? = some row →
        RowShows Shows names.length (state + i) (fieldsAt texts i) row := by
  induction texts generalizing state line rows with
  | nil =>
    rw [readRows]
    cases rows <;> simp
  | cons text texts ih =>
    rw [readRows]
    simp only [Except.bind_eq_ok_iff, pure, Except.pure, Except.ok.injEq]
    constructor
    · rintro ⟨cells, hcells, row, hrow, rows', hrows, rfl⟩
      obtain ⟨hlen, hrest⟩ := ih.1 hrows
      refine ⟨by simp [hlen], fun i r hr => ?_⟩
      cases i with
      | zero =>
        obtain rfl : row = r := Option.some.inj hr
        exact (readRow_eq_ok_iff hcell).1 ⟨cells, hcells, hrow⟩
      | succ i =>
        have hrow := hrest i r hr
        rw [Nat.add_assoc, Nat.add_comm 1 i] at hrow
        exact hrow
    · rintro ⟨hlen, hrows⟩
      cases rows with
      | nil => cases hlen
      | cons row rows =>
        obtain ⟨cells, hcells, hrow⟩ := (readRow_eq_ok_iff hcell).2 (hrows 0 row rfl)
        refine ⟨cells, hcells, row, hrow, rows, ih.2 ⟨Nat.succ.inj hlen, fun i r hr => ?_⟩, rfl⟩
        rw [Nat.add_assoc, Nat.add_comm 1 i]
        exact hrows (i + 1) r hr

theorem readActions_eq_ok_iff {states state : Nat} {rules : RuleBook} {texts : List String}
    {rows : List (List Action)} :
    readRows names (readAction states rules) state line texts = .ok rows ↔
      rows.length = texts.length ∧ ∀ i row, rows[i]? = some row →
        RowShows (ActionCell states rules) names.length (state + i) (fieldsAt texts i) row :=
  readRows_eq_ok_iff fun _ _ _ _ => readAction_eq_ok_iff

theorem readGotos_eq_ok_iff {states state : Nat} {texts : List String}
    {rows : List (List (Option Nat))} :
    readRows names (readGoto states) state line texts = .ok rows ↔
      rows.length = texts.length ∧ ∀ i row, rows[i]? = some row →
        RowShows (TargetCell states) names.length (state + i) (fieldsAt texts i) row :=
  readRows_eq_ok_iff fun _ _ _ _ => readGoto_eq_ok_iff

/-! ### Reading tables -/

theorem checkRules_eq_ok_iff {nonterminals : List String} {rules : RuleBook} :
    checkRules nonterminals rules = .ok () ↔ ∀ r ∈ rules, r.2.lhs ∈ nonterminals := by
  unfold checkRules
  split
  · next h => simpa using h
  · next number rule h =>
    have hmem := List.mem_of_find?_eq_some h
    have hnot := List.find?_some h
    simp only [reduceCtorEq, false_iff, not_forall]
    exact ⟨_, hmem, by simpa using hnot⟩

/-- Two blocks of lines of `n` rows each. -/
theorem exists_blocks {n : Nat} {lines : List String} (h : lines.length = 2 * (n + 1)) :
    ∃ first actions second gotos, lines = first :: (actions ++ second :: gotos) ∧
      actions.length = n ∧ gotos.length = n := by
  obtain _ | ⟨first, rest⟩ := lines
  · simp at h
  · simp only [List.length_cons] at h
    have hdrop : (rest.drop n).length = n + 1 := by
      rw [List.length_drop]
      omega
    obtain ⟨second, gotos, hgotos⟩ := List.exists_cons_of_length_eq_add_one hdrop
    refine ⟨first, rest.take n, second, gotos, ?_, ?_, ?_⟩
    · rw [← hgotos, List.take_append_drop]
    · rw [List.length_take]
      omega
    · rw [hgotos, List.length_cons] at hdrop
      exact Nat.succ.inj hdrop

section Blocks

variable (first second : String) {actions gotos : List String}

theorem fieldsAt_actions {s : Nat} (hs : s < actions.length) :
    fieldsAt (first :: (actions ++ second :: gotos)) (s + 1) = fieldsAt actions s := by
  rw [fieldsAt, List.getElem?_cons_succ, List.getElem?_append_left hs, fieldsAt]

theorem fieldsAt_second :
    fieldsAt (first :: (actions ++ second :: gotos)) (actions.length + 1) =
      Text.pieces '&' second := by
  rw [fieldsAt, List.getElem?_cons_succ, List.getElem?_append_right (Nat.le_refl _),
    Nat.sub_self]
  rfl

theorem fieldsAt_gotos (s : Nat) :
    fieldsAt (first :: (actions ++ second :: gotos)) (actions.length + 2 + s) =
      fieldsAt gotos s := by
  rw [fieldsAt, show actions.length + 2 + s = actions.length + (s + 1) + 1 by omega,
    List.getElem?_cons_succ, List.getElem?_append_right (Nat.le_add_right ..),
    Nat.add_sub_cancel_left, List.getElem?_cons_succ, fieldsAt]

end Blocks

/-- **Lines are read** exactly as the table that they show. -/
theorem readLines_eq_ok_iff {spec : TableSpec} {n : Nat} (hn : spec.states = n)
    {lines : List String} (hcount : lines.length = 2 * (n + 1)) {t : Table} :
    readLines spec lines = .ok t ↔ t.ShownBy spec n lines := by
  obtain ⟨first, actions, second, gotos, rfl, rfl, hgotos⟩ := exists_blocks hcount
  simp only [readLines, hn, Int.toNat_natCast, List.drop_left, List.take_left,
    Except.bind_eq_ok_iff, readHeader_eq_ok_iff, mapError_eq_ok_iff, Symbols.ofNames_eq_ok_iff,
    readActions_eq_ok_iff, readGotos_eq_ok_iff, pure, Except.pure, Except.ok.injEq,
    Nat.zero_add]
  constructor
  · rintro ⟨terminals, ⟨hterminals, hpermT⟩, nonterminals, ⟨hnonterminals, hpermN⟩, _,
      ⟨hdistinct, heof, rfl⟩, rowsA, ⟨hlenA, hrowsA⟩, rowsG, ⟨hlenG, hrowsG⟩, _, hlhs, rfl⟩
    exact {
      states := rfl
      rules := rfl
      count := hcount
      terminals := hterminals
      nonterminals := by rw [namesAt, fieldsAt_second]; exact hnonterminals
      permTerminals := hpermT
      permNonterminals := hpermN
      distinct := hdistinct
      eof := heof
      lengthActions := hlenA
      lengthGotos := hlenG.trans hgotos
      actions := fun s row hrow => by
        have hs : s < actions.length := hlenA ▸ (List.getElem?_eq_some_iff.1 hrow).1
        rw [fieldsAt_actions _ _ hs, ← hpermT.length_eq]
        exact hrowsA s row hrow
      gotos := fun s row hrow => by
        rw [fieldsAt_gotos, ← hpermN.length_eq]
        exact hrowsG s row hrow
      lhs := checkRules_eq_ok_iff.1 hlhs }
  · obtain ⟨⟨terminals, nonterminals⟩, rowsA, rowsG, rules, states⟩ := t
    intro h
    obtain rfl : states = actions.length := h.states
    obtain rfl : rules = spec.rules := h.rules
    have hnonterminals : nonterminals = namesAt _ _ := h.nonterminals
    rw [namesAt, fieldsAt_second] at hnonterminals
    refine ⟨terminals, ⟨h.terminals, h.permTerminals⟩, nonterminals,
      ⟨hnonterminals, h.permNonterminals⟩, _, ⟨h.distinct, h.eof, rfl⟩, rowsA,
      ⟨h.lengthActions, fun s row hrow => ?_⟩, rowsG,
      ⟨h.lengthGotos.trans hgotos.symm, fun s row hrow => ?_⟩, (),
      checkRules_eq_ok_iff.2 h.lhs, rfl⟩
    · have hs : s < actions.length := h.lengthActions ▸ (List.getElem?_eq_some_iff.1 hrow).1
      have hshows := h.actions s row hrow
      rwa [fieldsAt_actions _ _ hs, ← h.permTerminals.length_eq] at hshows
    · have hshows := h.gotos s row hrow
      rwa [fieldsAt_gotos, ← h.permNonterminals.length_eq] at hshows

/-! ### Lines of the right form -/

/-- Lists can be put together from a member for each number below their length. -/
theorem exists_rows {n : Nat} {P : Nat → α → Prop} (h : ∀ s < n, ∃ row, P s row) :
    ∃ rows : List α, rows.length = n ∧ ∀ s row, rows[s]? = some row → P s row := by
  induction n with
  | zero => exact ⟨[], rfl, by simp⟩
  | succ n ih =>
    obtain ⟨rows, hlen, hrows⟩ := ih fun s hs => h s (Nat.lt_succ_of_lt hs)
    obtain ⟨row, hrow⟩ := h n (Nat.lt_succ_self n)
    refine ⟨rows ++ [row], by simp [hlen], fun s row' hs => ?_⟩
    rcases Nat.lt_trichotomy s rows.length with hlt | heq | hgt
    · rw [List.getElem?_append_left hlt] at hs
      exact hrows s row' hs
    · rw [heq, List.getElem?_concat_length] at hs
      cases hs
      rw [heq, hlen]
      exact hrow
    · rw [List.getElem?_eq_none (by rw [List.length_append]; exact hgt)] at hs
      cases hs

/-- A row of the right form shows something, and what shows something has the right form. -/
theorem exists_rowShows_iff {width state : Nat} {IsCell : List Char → Prop}
    (hcell : ∀ cs, IsCell cs ↔ ∃ a, Shows cs a) {fields : List String} :
    (∃ row, RowShows Shows width state fields row) ↔ RowForm width state IsCell fields := by
  have hcells : (∃ row, List.Forall₂ (fun cell a => Shows (Text.strip cell.toList) a)
      fields.tail row) ↔ ∀ cell ∈ fields.tail, IsCell (Text.strip cell.toList) := by
    generalize fields.tail = cells
    induction cells with
    | nil => simp
    | cons cell cells ih =>
      rw [List.forall_mem_cons, ← ih, hcell]
      constructor
      · rintro ⟨_, _ | ⟨ha, hrow⟩⟩
        exact ⟨⟨_, ha⟩, _, hrow⟩
      · rintro ⟨⟨a, ha⟩, row, hrow⟩
        exact ⟨a :: row, .cons ha hrow⟩
  constructor
  · rintro ⟨row, hlen, hlabel, hrow⟩
    exact ⟨hlen, hlabel, hcells.1 ⟨row, hrow⟩⟩
  · rintro ⟨hlen, hlabel, hform⟩
    obtain ⟨row, hrow⟩ := hcells.2 hform
    exact ⟨row, hlen, hlabel, hrow⟩

theorem isActionCell_iff {n : Nat} {rules : RuleBook} {cs : List Char} :
    IsActionCell n rules cs ↔ ∃ a, ActionCell n rules cs a := by
  constructor
  · rintro (rfl | rfl | rfl | ⟨digits, state, rfl, h, hlt⟩ | ⟨digits, rule, rfl, h, hmem⟩)
    · exact ⟨_, .empty, trivial⟩
    · exact ⟨_, .err, trivial⟩
    · exact ⟨_, .acc, trivial⟩
    · exact ⟨_, .shift h, hlt⟩
    · exact ⟨_, .reduce h, hmem⟩
  · rintro ⟨a, h, hfits⟩
    cases h with
    | empty => exact .inl rfl
    | err => exact .inr (.inl rfl)
    | acc => exact .inr (.inr (.inl rfl))
    | shift h => exact .inr (.inr (.inr (.inl ⟨_, _, rfl, h, hfits⟩)))
    | reduce h => exact .inr (.inr (.inr (.inr ⟨_, _, rfl, h, hfits⟩)))

theorem isTargetCell_iff {n : Nat} {cs : List Char} :
    IsTargetCell n cs ↔ ∃ target, TargetCell n cs target := by
  constructor
  · rintro (rfl | ⟨state, h, hlt⟩)
    · exact ⟨_, .empty, nofun⟩
    · exact ⟨_, .state h, by rintro s ⟨⟩; exact hlt⟩
  · rintro ⟨target, h, hlt⟩
    cases h with
    | empty => exact .inl rfl
    | state h => exact .inr ⟨_, h, hlt _ rfl⟩

/-- **Lines of the right form** are those that show a table. -/
theorem exists_shownBy_iff {spec : TableSpec} {n : Nat} {lines : List String} :
    (∃ t : Table, t.ShownBy spec n lines) ↔ Form spec n lines := by
  have hactions : ∀ s, (∃ row, RowShows (ActionCell n spec.rules) spec.terminals.length s
      (fieldsAt lines (s + 1)) row) ↔ _ :=
    fun _ => exists_rowShows_iff fun _ => isActionCell_iff
  have hgotos : ∀ s, (∃ row, RowShows (TargetCell n) spec.nonterminals.length s
      (fieldsAt lines (n + 2 + s)) row) ↔ _ :=
    fun _ => exists_rowShows_iff fun _ => isTargetCell_iff
  constructor
  · rintro ⟨t, h⟩
    exact {
      count := h.count
      terminals := h.terminals ▸ h.permTerminals
      nonterminals := h.nonterminals ▸ h.permNonterminals
      distinct := (h.permTerminals.append h.permNonterminals).nodup_iff.1 h.distinct
      eof := h.permTerminals.mem_iff.1 h.eof
      actions := fun s hs => (hactions s).1
        ⟨_, h.actions s _ (List.getElem?_eq_getElem (h.lengthActions.symm ▸ hs))⟩
      gotos := fun s hs => (hgotos s).1
        ⟨_, h.gotos s _ (List.getElem?_eq_getElem (h.lengthGotos.symm ▸ hs))⟩
      lhs := fun r hr => h.permNonterminals.mem_iff.1 (h.lhs r hr) }
  · intro h
    obtain ⟨actions, hlenA, hrowsA⟩ := exists_rows fun s hs => (hactions s).2 (h.actions s hs)
    obtain ⟨gotos, hlenG, hrowsG⟩ := exists_rows fun s hs => (hgotos s).2 (h.gotos s hs)
    exact ⟨⟨⟨namesAt lines 0, namesAt lines (n + 1)⟩, actions, gotos, spec.rules, n⟩, {
      states := rfl
      rules := rfl
      count := h.count
      terminals := rfl
      nonterminals := rfl
      permTerminals := h.terminals
      permNonterminals := h.nonterminals
      distinct := (h.terminals.append h.nonterminals).nodup_iff.2 h.distinct
      eof := h.terminals.mem_iff.2 h.eof
      lengthActions := hlenA
      lengthGotos := hlenG
      actions := hrowsA
      gotos := hrowsG
      lhs := fun r hr => h.nonterminals.mem_iff.2 (h.lhs r hr) }⟩

/-- **Texts are read** exactly as the table that their lines show. -/
theorem read_eq_ok_iff {spec : TableSpec} {n : Nat} (hn : spec.states = n) {text : String}
    {t : Table} : read spec text = .ok t ↔ t.ShownBy spec n (textLines text) := by
  unfold read
  by_cases hcount : (textLines text).length = 2 * (n + 1)
  · rw [← readLines_eq_ok_iff hn hcount, if_pos (by rw [hn]; omega)]
  · rw [if_neg (by rw [hn]; omega)]
    have hnot : ¬ t.ShownBy spec n (textLines text) := fun h => hcount h.count
    split <;> simp [hnot]

end Table

end CatAndMouse
