import CatAndMouse.Proofs.Table.Form
import CatAndMouse.Table.Load
import CatAndMouse.Table.Standard

/-!
# What is reported as a fault of a table

A text that shows no table, and a file that cannot be opened, are reported as faults of the table,
each with its place. There are exceptions, and `Table.Escapes` and `LoadEscapes` list them: a number
of more than 4300 digits, in a cell or in a message, a path with a NUL character and a file that is
no UTF-8 come out as errors of the part of the program that met them. The main statement is
`table_faults`: nothing else escapes.
-/

namespace CatAndMouse

/-! ### Cells -/

/-- The cell holds a run of `n` decimal digits, on its own or after an `s` or an `r`, and these are
more than are read. -/
def LongNumber (cell : String) (n : Nat) : Prop :=
  ∃ digits ds, (Text.strip cell.toList = digits ∨ Text.strip cell.toList = 's' :: digits ∨
      Text.strip cell.toList = 'r' :: digits) ∧
    Text.digitRun? digits = some ds ∧ ds.length = n ∧ 4300 < n

/-- The error of a cell is a fault, or the number in the cell is too long. -/
def CellFault (cell : String) (e : ReadError) : Prop :=
  e.isFormat = true ∨ ∃ n, LongNumber cell n ∧ e = .number ⟨n⟩

/-- **Digits of a cell** fail as the cell that they stand in, or they are too many. -/
theorem readNumber_failsIn {cell : String} {digits : List Char} (bad : CellError)
    (hcell : Text.strip cell.toList = digits ∨ Text.strip cell.toList = 's' :: digits ∨
      Text.strip cell.toList = 'r' :: digits) :
    FailsIn (fun e => e = bad ∨ ∃ n, LongNumber cell n ∧ e = .tooLong ⟨n⟩)
      (readNumber bad digits) := by
  unfold readNumber
  split
  · exact failsIn_error (.inl rfl)
  · next ds hds =>
    refine .mapError ?_
    unfold Text.readDigits
    split
    · exact failsIn_ok _
    · next hlen =>
      have hlong : LongNumber cell ds.length :=
        ⟨digits, ds, hcell, hds, rfl, Nat.lt_of_not_le hlen⟩
      exact failsIn_error (.inr ⟨ds.length, hlong, rfl⟩)

theorem actionRead_failsIn (cell : String) :
    FailsIn (fun e => e = .badAction cell ∨ ∃ n, LongNumber cell n ∧ e = .tooLong ⟨n⟩)
      (Action.read cell) := by
  unfold Action.read
  split
  · exact failsIn_ok _
  · exact failsIn_ok _
  · exact failsIn_ok _
  · next digits hdigits => exact (readNumber_failsIn _ (.inr (.inl hdigits))).map
  · next digits hdigits => exact (readNumber_failsIn _ (.inr (.inr hdigits))).map
  · exact failsIn_error (.inl rfl)

theorem readTarget_failsIn (cell : String) :
    FailsIn (fun e => e = .badTarget cell ∨ ∃ n, LongNumber cell n ∧ e = .tooLong ⟨n⟩)
      (readTarget cell) := by
  unfold readTarget
  split
  · exact failsIn_ok _
  · exact (readNumber_failsIn _ (.inl rfl)).map

namespace Table

variable {spec : TableSpec} {text : String} {states line : Nat} {rules : RuleBook}

theorem readAction_failsIn (column cell : String) :
    FailsIn (CellFault cell) (readAction states rules line column cell) := by
  unfold readAction
  split
  · next e he =>
    rcases actionRead_failsIn cell e he with rfl | ⟨n, hn, rfl⟩
    · exact failsIn_error (.inl rfl)
    · exact failsIn_error (.inr ⟨n, hn, rfl⟩)
  · split
    · exact failsIn_ok _
    · exact failsIn_error (.inl rfl)
  · split
    · exact failsIn_ok _
    · exact failsIn_error (.inl rfl)
  · exact failsIn_ok _

theorem readGoto_failsIn (column cell : String) :
    FailsIn (CellFault cell) (readGoto states line column cell) := by
  unfold readGoto
  split
  · next e he =>
    rcases readTarget_failsIn cell e he with rfl | ⟨n, hn, rfl⟩
    · exact failsIn_error (.inl rfl)
    · exact failsIn_error (.inr ⟨n, hn, rfl⟩)
  · exact failsIn_ok _
  · split
    · exact failsIn_ok _
    · exact failsIn_error (.inl rfl)

/-! ### Lines -/

/-- `Escapes spec text e`: the error is no fault of the table. Each time a number of more than 4300
digits was met: in a cell, or where the right number of lines or the number of a rule had to be
written. -/
inductive Escapes (spec : TableSpec) (text : String) : ReadError → Prop where
  | lineCount (h : Text.isWritable (2 * (spec.states + 1)) = false) :
      Escapes spec text .hugeLineCount
  | cell {l cell : String} {n : Nat} (hl : l ∈ textLines text) (hcell : cell ∈ Text.pieces '&' l)
      (hn : LongNumber cell n) : Escapes spec text (.number ⟨n⟩)
  | rule {number : Int} {rule : Rule} (hrule : (number, rule) ∈ spec.rules)
      (hlhs : rule.lhs ∉ spec.nonterminals) (h : Text.isWritable number = false) :
      Escapes spec text .hugeRule

/-- The error is a fault of the table, or one that escapes. -/
def Fault (spec : TableSpec) (text : String) (e : ReadError) : Prop :=
  e.isFormat = true ∨ Escapes spec text e

theorem readHeader_failsIn (expected : List String) (line : Nat) (header : String) :
    FailsIn (Fault spec text) (readHeader expected line header) := by
  unfold readHeader
  dsimp only
  split
  · exact failsIn_ok _
  · exact failsIn_error (.inl rfl)

theorem readCells_failsIn (width state line : Nat) (l : String) :
    FailsIn (Fault spec text) (readCells width state line l) := by
  unfold readCells
  split
  · exact failsIn_error (.inl rfl)
  · split
    · exact failsIn_error (.inl rfl)
    · split
      · exact failsIn_error (.inl rfl)
      · exact failsIn_ok _

/-- **Rows**: an error is a fault of the form, or it comes from a cell. -/
theorem readRows_failsIn {α : Type} {names : List String}
    {readCell : Nat → String → String → Except ReadError α}
    (hcell : ∀ line column cell, FailsIn (CellFault cell) (readCell line column cell))
    {ls : List String} (hls : ls ⊆ textLines text) (state line : Nat) :
    FailsIn (Fault spec text) (readRows names readCell state line ls) := by
  induction ls generalizing state line with
  | nil => exact failsIn_ok _
  | cons l ls ih =>
    rw [List.cons_subset] at hls
    unfold readRows
    refine .bind (readCells_failsIn _ _ _ _) fun cells hcells => ?_
    refine .bind (failsIn_mapM fun p hp => ?_) fun row _ => ?_
    · obtain ⟨column, cell⟩ := p
      intro e he
      rcases hcell line column cell e he with hformat | ⟨n, hn, rfl⟩
      · exact .inl hformat
      · obtain ⟨-, -, rfl⟩ := readCells_eq_ok_iff.1 hcells
        have hmem := List.mem_of_mem_tail (List.of_mem_zip hp).2
        exact .inr (.cell hls.1 hmem hn)
    · exact .bind (ih hls.2 _ _) fun rows _ => failsIn_ok _

theorem checkRules_failsIn {nonterminals : List String} (h : nonterminals.Perm spec.nonterminals) :
    FailsIn (Fault spec text) (checkRules nonterminals spec.rules) := by
  unfold checkRules
  split
  · exact failsIn_ok _
  · next number rule hfind =>
    refine failsIn_error ?_
    cases hw : Text.isWritable number with
    | true => exact .inl rfl
    | false =>
      have hlhs := List.find?_some hfind
      refine .inr (.rule (List.mem_of_find?_eq_some hfind) (fun hmem => ?_) hw)
      simp [h.mem_iff.2 hmem] at hlhs

/-- Two blocks of lines are read, or the error is a fault or escapes. -/
theorem readLines_failsIn (hstates : 0 ≤ spec.states)
    (hlen : ((textLines text).length : Int) = 2 * (spec.states + 1)) :
    FailsIn (Fault spec text) (readLines spec (textLines text)) := by
  obtain ⟨first, actions, second, gotos, hlines, hactions, hgotos⟩ :=
    exists_blocks (show (textLines text).length = 2 * (spec.states.toNat + 1) by omega)
  have hsub : actions ⊆ textLines text ∧ gotos ⊆ textLines text := by
    rw [hlines]
    constructor
    · exact fun l hl => List.mem_cons_of_mem _ (List.mem_append_left _ hl)
    · exact fun l hl =>
        List.mem_cons_of_mem _ (List.mem_append_right _ (List.mem_cons_of_mem _ hl))
  obtain ⟨hactions', hgotos'⟩ := hsub
  rw [hlines]
  simp only [readLines, ← hactions, List.drop_left, List.take_left]
  refine .bind (readHeader_failsIn _ _ _) fun terminals _ => ?_
  refine .bind (readHeader_failsIn _ _ _) fun nonterminals hnonterminals => ?_
  refine .bind (.mapError fun e _ => .inl rfl) fun symbols _ => ?_
  refine .bind (readRows_failsIn (fun _ _ _ => readAction_failsIn _ _) hactions' _ _)
    fun rows _ => ?_
  refine .bind (readRows_failsIn (fun _ _ _ => readGoto_failsIn _ _) hgotos' _ _) fun rows' _ => ?_
  refine .bind (checkRules_failsIn (readHeader_eq_ok_iff.1 hnonterminals).2) fun _ _ => ?_
  exact failsIn_ok _

/-- **Reading a table**: an error is a fault of the table, or a number of more than 4300 digits was
met. -/
theorem read_failsIn (hstates : 0 ≤ spec.states) :
    FailsIn (Fault spec text) (read spec text) := by
  unfold read
  dsimp only
  split
  · next hlen => exact readLines_failsIn hstates hlen
  · split
    · exact failsIn_error (.inl rfl)
    · next hw => exact failsIn_error (.inr (.lineCount (by simpa using hw)))

end Table

/-! ### Files -/

/-- `LoadEscapes files spec path e`: the error is no fault of the table. The path has a NUL
character, or the bytes of the file are no UTF-8, or the error escapes from reading its text. -/
inductive LoadEscapes (files : Files) (spec : TableSpec) (path : String) : LoadError → Prop where
  | nulInPath (h : '\x00' ∈ path.toList) : LoadEscapes files spec path (.file .nulInPath)
  | encoding {bytes : List UInt8} {f : Text.Utf8.Fault}
      (hbytes : files.bytes (plainPath path) = .ok bytes)
      (hf : Text.Utf8.decode bytes = .error f) : LoadEscapes files spec path (.file (.encoding f))
  | read {text : String} {e : ReadError} (htext : files.readText path = .ok text)
      (he : Table.Escapes spec text e) : LoadEscapes files spec path (.read e)

theorem readText_failsIn (files : Files) (spec : TableSpec) (path : String) :
    FailsIn (fun e => (∃ path' e', e = .unopened path' e') ∨ LoadEscapes files spec path (.file e))
      (files.readText path) := by
  unfold Files.readText
  split
  · next hnul =>
    exact failsIn_error (.inr (.nulInPath (by simpa using hnul)))
  · split
    · exact failsIn_error (.inl ⟨_, _, rfl⟩)
    · next bytes hbytes =>
      split
      · exact failsIn_ok _
      · next f hf => exact failsIn_error (.inr (.encoding hbytes hf))

/-- **Faults of tables**: a text that gives no table is reported as a fault of the table, unless a
number of more than 4300 digits was met. A file that gives no table is reported so too, unless such
a number was met in its text, or its path has a NUL character, or its bytes are no UTF-8. -/
theorem table_faults (spec : TableSpec) (hstates : 0 ≤ spec.states) :
    (∀ text e, Table.read spec text = .error e → e.isFormat = true ∨ Table.Escapes spec text e) ∧
    ∀ files path e, Table.load files spec path = .error e →
      e.isFormat = true ∨ LoadEscapes files spec path e := by
  have hread : ∀ text e, Table.read spec text = .error e →
      e.isFormat = true ∨ Table.Escapes spec text e := fun text => Table.read_failsIn hstates
  refine ⟨hread, fun files path e he => ?_⟩
  unfold Table.load at he
  split at he
  · next e' he' =>
    cases he
    rcases readText_failsIn files spec path e' he' with ⟨path', cause, rfl⟩ | hescapes
    · exact .inl rfl
    · exact .inr hescapes
  · next text htext =>
    cases hr : Table.read spec text with
    | ok t =>
      rw [hr] at he
      cases he
    | error e' =>
      rw [hr] at he
      cases he
      exact (hread text e' hr).imp_right (.read htext)

/-- A folder with a file of one byte, which begins no character. -/
def invalidByte : Files := .ofList [("t.txt", [0xff])]

theorem load_invalidByte :
    Table.load invalidByte .standard "t.txt" =
      .error (.file (.encoding ⟨0, 0, 0xff, .start⟩)) := by rfl

/-- The byte escapes: it is no fault of the table. -/
theorem table_faults_invalidByte :
    ∃ e, Table.load invalidByte .standard "t.txt" = .error e ∧ e.isFormat = false ∧
      LoadEscapes invalidByte .standard "t.txt" e := by
  refine ⟨_, load_invalidByte, rfl, ?_⟩
  rcases (table_faults .standard (by decide)).2 invalidByte "t.txt" _ load_invalidByte with
    hformat | hescapes
  · cases hformat
  · exact hescapes

/-- Not every file that gives no table is reported as a fault of the table. -/
theorem not_forall_load_isFormat :
    ¬ ∀ (files : Files) (spec : TableSpec) (path : String) (e : LoadError), 0 ≤ spec.states →
      Table.load files spec path = .error e → e.isFormat = true := by
  intro h
  have hformat := h invalidByte .standard "t.txt" _ (by decide) load_invalidByte
  cases hformat

end CatAndMouse
