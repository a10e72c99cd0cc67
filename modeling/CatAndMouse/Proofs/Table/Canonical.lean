import CatAndMouse.Proofs.Table.Written

/-!
# Cells and what is printed for them

There are many ways to write a cell: with white space around it, with zeros in front of its
number, and with the decimal digits of any script. What is printed for an action or a number is
one of them, and is read as what was printed (`Action.read_text`, `readTarget_toString`); white
space around a cell does not count (`Action.read_padded_iff`, `readTarget_padded_iff`); and no
number is read that is too long to be printed (`ShowsAction.lt_writeBound`). `IsActionForm` says
which cells show an action, if their digits are not too many (`exists_showsAction_iff`), and all
others are refused (`Action.read_eq_badAction`).

The main result is `cells_round_trip`.
-/

namespace CatAndMouse

namespace Text

/-- The text is white space, or empty. -/
def IsPadding (s : String) : Prop := ∀ c ∈ s.toList, isBlank c = true

instance (s : String) : Decidable (IsPadding s) :=
  decidable_of_iff (s.toList.all isBlank = true) List.all_eq_true

/-- The characters are one or more decimal digits, of any script. -/
def IsDigits (cs : List Char) : Prop := cs ≠ [] ∧ ∀ c ∈ cs, (digitValue? c).isSome = true

instance (cs : List Char) : Decidable (IsDigits cs) :=
  decidable_of_iff (cs ≠ [] ∧ cs.all (fun c => (digitValue? c).isSome) = true)
    (by rw [IsDigits, List.all_eq_true])

end Text

/-- The characters are `s` or `r`, followed by the digits. -/
def IsNumbered (cs digits : List Char) : Prop :=
  (cs = 's' :: digits ∨ cs = 'r' :: digits) ∧ Text.IsDigits digits

/-- The characters have the form of a cell with an action. -/
def IsActionForm (cs : List Char) : Prop :=
  cs = [] ∨ cs = "err".toList ∨ cs = "acc".toList ∨ ∃ digits, IsNumbered cs digits

/-! ### White space around a cell -/

namespace Text

/-- **White space around** characters is stripped with their own. -/
theorem strip_append {pad cs pad' : List Char} (h : ∀ c ∈ pad, isBlank c = true)
    (h' : ∀ c ∈ pad', isBlank c = true) : strip (pad ++ cs ++ pad') = strip cs := by
  rw [strip, List.append_assoc, List.dropWhile_append_of_pos h, List.dropWhile_append, strip]
  split
  · next hcs =>
    -- the characters are white space themselves, and nothing is left
    rw [List.isEmpty_iff.1 hcs, ← List.append_nil pad', List.dropWhile_append_of_pos h']
    rfl
  · have hreverse : ∀ c ∈ pad'.reverse, isBlank c = true := fun c hc => h' c (List.mem_reverse.1 hc)
    rw [List.reverse_append, List.dropWhile_append_of_pos hreverse]

theorem strip_padded {pad pad' : String} (h : IsPadding pad) (h' : IsPadding pad') (s : String) :
    strip (pad ++ s ++ pad').toList = strip s.toList := by
  rw [String.toList_append, String.toList_append, strip_append h h']

end Text

section Padding

variable {pad pad' : String} (h : Text.IsPadding pad) (h' : Text.IsPadding pad')

include h h'

/-- An action is read from a cell with white space around it exactly if it is read without. -/
theorem Action.read_padded_iff {cell : String} {a : Action} :
    Action.read (pad ++ cell ++ pad') = .ok a ↔ Action.read cell = .ok a := by
  rw [Action.read_eq_ok_iff, Text.strip_padded h h', Action.read_eq_ok_iff]

theorem readTarget_padded_iff {cell : String} {target : Option Nat} :
    readTarget (pad ++ cell ++ pad') = .ok target ↔ readTarget cell = .ok target := by
  rw [readTarget_eq_ok_iff, Text.strip_padded h h', readTarget_eq_ok_iff]

end Padding

/-! ### What is printed -/

namespace Action

/-- But for an error, which is left out of a table, the cell of an action is its text. -/
theorem actionCell_eq {a : Action} (h : a ≠ .error) : Table.actionCell a = a.text := if_neg h

theorem isField_text (a : Action) : IsField a.text := by
  by_cases h : a = .error
  · rw [h]
    exact IsField.of_all (by decide)
  · rw [← actionCell_eq h]
    exact isField_actionCell a

/-- **Printed actions** are shown, unless their number has too many digits. -/
theorem shows_text {a : Action} (h : ∀ n ∈ a.number?, n < Text.writeBound) :
    ShowsAction a.text.toList a := by
  by_cases herror : a = .error
  · rw [herror]
    exact .err
  · rw [← actionCell_eq herror]
    exact shows_cell h

theorem read_text {a : Action} (h : ∀ n ∈ a.number?, n < Text.writeBound) :
    Action.read a.text = .ok a := by
  rw [read_eq_ok_iff, a.isField_text.strip_eq]
  exact shows_text h

end Action

theorem readTarget_toString {n : Nat} (h : n < Text.writeBound) :
    readTarget (toString n) = .ok (some n) := by
  rw [readTarget_eq_ok_iff, (isField_toString n).strip_eq]
  exact .state (showsNumber_toString h)

/-! ### What can be read -/

theorem Text.digitValue?_lt {c : Char} {d : Nat} (h : digitValue? c = some d) : d < 10 := by
  obtain ⟨first, -, hfirst⟩ := List.exists_of_findSome?_eq_some h
  split at hfirst
  · next hc =>
    cases hfirst
    omega
  · cases hfirst

/-- **Numbers that are read** can be printed: they have no more digits than what shows them. -/
theorem ShowsNumber.lt_writeBound {cs : List Char} {n : Nat} (h : ShowsNumber cs n) :
    n < Text.writeBound := by
  obtain ⟨-, hlen, ds, hvalues, rfl⟩ := h
  obtain ⟨k, hk, hbound⟩ := Text.exists_writeBound_eq
  have hlt : ∀ d ∈ ds.reverse, d < 10 := by
    intro d hd
    obtain ⟨i, hi, rfl⟩ := List.getElem_of_mem (List.mem_reverse.1 hd)
    exact Text.digitValue?_lt (hvalues.get (hvalues.length_eq ▸ hi) hi)
  have hlength : ds.reverse.length ≤ k + 1 := by
    rw [List.length_reverse, ← hvalues.length_eq]
    exact hlen.trans_eq hk
  rw [hbound]
  exact (Nat.ofDigits_lt_base_pow_length (by decide) hlt).trans_le
    (Nat.pow_le_pow_right (by decide) hlength)

theorem ShowsAction.lt_writeBound {cs : List Char} {a : Action} (h : ShowsAction cs a) :
    ∀ n ∈ a.number?, n < Text.writeBound := by
  cases h with
  | empty | err | acc => exact nofun
  | shift h | reduce h =>
    rintro n ⟨⟩
    exact h.lt_writeBound

theorem ShowsTarget.lt_writeBound {cs : List Char} {target : Option Nat}
    (h : ShowsTarget cs target) : ∀ n ∈ target, n < Text.writeBound := by
  cases h with
  | empty => exact nofun
  | state h =>
    rintro n ⟨⟩
    exact h.lt_writeBound

theorem Text.isDigits_iff {cs : List Char} : IsDigits cs ↔ ∃ ds, digitRun? cs = some ds := by
  cases cs with
  | nil => simp [IsDigits, digitRun?]
  | cons c cs =>
    have hrun : digitRun? (c :: cs) = (c :: cs).mapM digitValue? := rfl
    rw [hrun, exists_mapM_eq_some_iff, IsDigits]
    simp only [Option.isSome_iff_exists, and_iff_right (List.cons_ne_nil c cs)]

/-- Digits show a number exactly if there are not too many. -/
theorem exists_showsNumber_iff {cs : List Char} :
    (∃ n, ShowsNumber cs n) ↔ Text.IsDigits cs ∧ cs.length ≤ 4300 := by
  rw [Text.isDigits_iff]
  constructor
  · rintro ⟨n, hpos, hlen, ds, hvalues, -⟩
    exact ⟨⟨ds, Text.digitRun?_eq_some_iff.2 ⟨List.length_pos_iff.1 hpos, hvalues⟩⟩, hlen⟩
  · rintro ⟨⟨ds, hds⟩, hlen⟩
    obtain ⟨hne, hvalues⟩ := Text.digitRun?_eq_some_iff.1 hds
    exact ⟨_, List.length_pos_iff.2 hne, hlen, ds, hvalues, rfl⟩

/-- **The form of a cell** with an action is the one that shows an action, if its digits are not
too many. -/
theorem exists_showsAction_iff {cs : List Char}
    (hdigits : ∀ digits, IsNumbered cs digits → digits.length ≤ 4300) :
    (∃ a, ShowsAction cs a) ↔ IsActionForm cs := by
  constructor
  · rintro ⟨a, h⟩
    cases h with
    | empty => exact .inl rfl
    | err => exact .inr (.inl rfl)
    | acc => exact .inr (.inr (.inl rfl))
    | shift h =>
      exact .inr (.inr (.inr ⟨_, .inl rfl, (exists_showsNumber_iff.1 ⟨_, h⟩).1⟩))
    | reduce h =>
      exact .inr (.inr (.inr ⟨_, .inr rfl, (exists_showsNumber_iff.1 ⟨_, h⟩).1⟩))
  · rintro (rfl | rfl | rfl | ⟨digits, hnumbered⟩)
    · exact ⟨_, .empty⟩
    · exact ⟨_, .err⟩
    · exact ⟨_, .acc⟩
    · obtain ⟨n, hn⟩ := exists_showsNumber_iff.2 ⟨hnumbered.2, hdigits digits hnumbered⟩
      rcases hnumbered.1 with rfl | rfl
      · exact ⟨_, .shift hn⟩
      · exact ⟨_, .reduce hn⟩

theorem readNumber_of_not_isDigits {cs : List Char} (bad : CellError) (h : ¬ Text.IsDigits cs) :
    readNumber bad cs = .error bad := by
  have hnone : Text.digitRun? cs = none :=
    Option.eq_none_iff_forall_ne_some.2 fun ds hds => h (Text.isDigits_iff.2 ⟨ds, hds⟩)
  rw [readNumber, hnone]

/-- **Cells of another form** are refused, however many digits they have. -/
theorem Action.read_eq_badAction {cell : String}
    (h : ¬ IsActionForm (Text.strip cell.toList)) :
    Action.read cell = .error (.badAction cell) := by
  unfold Action.read
  generalize Text.strip cell.toList = cs at h
  have hdigits : ∀ digits, cs = 's' :: digits ∨ cs = 'r' :: digits → ¬ Text.IsDigits digits :=
    fun digits hcs hrun => h (.inr (.inr (.inr ⟨digits, hcs, hrun⟩)))
  split
  · exact absurd (.inl rfl) h
  · exact absurd (.inr (.inl rfl)) h
  · exact absurd (.inr (.inr (.inl rfl))) h
  · rw [readNumber_of_not_isDigits _ (hdigits _ (.inl rfl))]
    rfl
  · rw [readNumber_of_not_isDigits _ (hdigits _ (.inr rfl))]
    rfl
  · rfl

/-! ### The round trip -/

/-- **Cells round trip.** What is printed for an action or a number, with white space around it, is
read as the action or the number. A cell whose digits are not too many is read exactly if it has
the form of an action, namely as the action that it shows, and what is printed for this action is
read as the same; a cell of another form is refused. -/
theorem cells_round_trip :
    (∀ pad pad' : String, Text.IsPadding pad → Text.IsPadding pad' →
      (∀ a : Action, (∀ n ∈ a.number?, n < Text.writeBound) →
        Action.read (pad ++ a.text ++ pad') = .ok a) ∧
      ∀ n < Text.writeBound, readTarget (pad ++ toString n ++ pad') = .ok (some n)) ∧
    ∀ cell : String,
      (∀ digits, IsNumbered (Text.strip cell.toList) digits → digits.length ≤ 4300) →
      ((∃ a, Action.read cell = .ok a) ↔ IsActionForm (Text.strip cell.toList)) ∧
      (∀ a, Action.read cell = .ok a →
        ShowsAction (Text.strip cell.toList) a ∧ Action.read a.text = .ok a) ∧
      (¬ IsActionForm (Text.strip cell.toList) → Action.read cell = .error (.badAction cell)) := by
  refine ⟨fun pad pad' h h' => ⟨fun a ha => ?_, fun n hn => ?_⟩,
    fun cell hdigits => ⟨?_, fun a ha => ?_, Action.read_eq_badAction⟩⟩
  · exact (Action.read_padded_iff h h').2 (Action.read_text ha)
  · exact (readTarget_padded_iff h h').2 (readTarget_toString hn)
  · simp only [Action.read_eq_ok_iff]
    exact exists_showsAction_iff hdigits
  · have hshows := Action.read_eq_ok_iff.1 ha
    exact ⟨hshows, Action.read_text hshows.lt_writeBound⟩

/-- Digits of two scripts with zeros in front of them, a cell that white space surrounds, and one
whose last character is a digit but no decimal digit. -/
theorem cells_round_trip_mixedDigits :
    Action.read ("\t" ++ (Action.reduce 12).text ++ " \u3000") = .ok (.reduce 12) ∧
      readTarget ("\t" ++ toString 12 ++ " \u3000") = .ok (some 12) ∧
      (∃ a, Action.read " s0\u0660\u0667\n" = .ok a ∧ Action.read a.text = .ok a) ∧
      Action.read "s1\u00b2" = .error (.badAction "s1\u00b2") := by
  obtain ⟨hprinted, hcells⟩ := cells_round_trip
  obtain ⟨hactions, htargets⟩ := hprinted "\t" " \u3000" (by decide) (by decide)
  have hsmall : 12 < Text.writeBound := Text.lt_writeBound (by decide)
  have hstrip : Text.strip " s0\u0660\u0667\n".toList = ['s', '0', '\u0660', '\u0667'] := by decide
  have hstrip' : Text.strip "s1\u00b2".toList = ['s', '1', '\u00b2'] := by decide
  refine ⟨hactions _ ?_, htargets 12 hsmall, ?_, ?_⟩
  · rintro n ⟨⟩
    exact hsmall
  · obtain ⟨hread, hprint, -⟩ := hcells " s0\u0660\u0667\n" <| by
      rw [hstrip]
      rintro digits ⟨h | h, -⟩ <;> cases h
      decide
    obtain ⟨a, ha⟩ := hread.2 <| by
      rw [hstrip]
      exact .inr (.inr (.inr ⟨_, .inl rfl, by decide⟩))
    exact ⟨a, ha, (hprint a ha).2⟩
  · obtain ⟨-, -, hrefused⟩ := hcells "s1\u00b2" <| by
      rw [hstrip']
      rintro digits ⟨h | h, -⟩ <;> cases h
      decide
    refine hrefused ?_
    rw [hstrip']
    rintro (h | h | h | ⟨digits, h | h, hdigits⟩) <;> cases h
    exact absurd hdigits (by decide)

end CatAndMouse
