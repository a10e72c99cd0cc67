import CatAndMouse.Proofs.Computation
import CatAndMouse.Proofs.Tree.Leaf
import CatAndMouse.Table.Printer
import CatAndMouse.Table.Reader
import Mathlib.Data.Nat.Digits.Defs

/-!
# What cells show

`ShowsNumber`, `ShowsAction` and `ShowsTarget` say which characters show a number, an
action or a target, once the white space around them is gone. A cell is read exactly
if it shows something, and then as that (`Action.read_eq_ok_iff`,
`readTarget_eq_ok_iff`); the reader of a table also asks for a state or a rule that
exists (`Table.readAction_eq_ok_iff`, `Table.readGoto_eq_ok_iff`). The cell that is
written for an action or a target shows it (`Action.shows_cell`, `shows_targetCell`).
-/

namespace CatAndMouse

/-- The characters are 1 to 4300 decimal digits, of any script, and show the number. -/
def ShowsNumber (cs : List Char) (n : Nat) : Prop :=
  1 ≤ cs.length ∧ cs.length ≤ 4300 ∧
    ∃ ds, List.Forall₂ (fun c d => Text.digitValue? c = some d) cs ds ∧
      Nat.ofDigits 10 ds.reverse = n

/-- The characters show the action. -/
inductive ShowsAction : List Char → Action → Prop where
  | empty : ShowsAction [] .error
  | err : ShowsAction ['e', 'r', 'r'] .error
  | acc : ShowsAction ['a', 'c', 'c'] .accept
  | shift {cs : List Char} {state : Nat} (h : ShowsNumber cs state) :
      ShowsAction ('s' :: cs) (.shift state)
  | reduce {cs : List Char} {rule : Nat} (h : ShowsNumber cs rule) :
      ShowsAction ('r' :: cs) (.reduce rule)

/-- The characters show the target, or that there is none. -/
inductive ShowsTarget : List Char → Option Nat → Prop where
  | empty : ShowsTarget [] none
  | state {cs : List Char} {state : Nat} (h : ShowsNumber cs state) : ShowsTarget cs (some state)

/-- The state to which an action goes is one of the first `states`, and its rule has a number
in the book. -/
def Action.Fits (states : Nat) (rules : RuleBook) : Action → Prop
  | .shift state => state < states
  | .reduce rule => (rule : Int) ∈ rules.map Prod.fst
  | .accept | .error => True

instance (states : Nat) (rules : RuleBook) : (a : Action) → Decidable (a.Fits states rules)
  | .shift state => inferInstanceAs (Decidable (state < states))
  | .reduce rule => inferInstanceAs (Decidable ((rule : Int) ∈ rules.map Prod.fst))
  | .accept | .error => inferInstanceAs (Decidable True)

/-- The characters show an action of a table with so many states and these rules. -/
def ActionCell (states : Nat) (rules : RuleBook) (cs : List Char) (a : Action) : Prop :=
  ShowsAction cs a ∧ a.Fits states rules

/-- The characters show a target in a table with so many states. -/
def TargetCell (states : Nat) (cs : List Char) (target : Option Nat) : Prop :=
  ShowsTarget cs target ∧ ∀ s ∈ target, s < states

/-! ### Numbers -/

namespace Text

theorem digitRun?_eq_some_iff {cs : List Char} {ds : List Nat} :
    digitRun? cs = some ds ↔
      cs ≠ [] ∧ List.Forall₂ (fun c d => digitValue? c = some d) cs ds := by
  cases cs with
  | nil => simp [digitRun?]
  | cons c cs =>
    rw [digitRun?, mapM_eq_some_iff]
    · simp
    · simp

theorem readDigits_eq_ok_iff {ds : List Nat} {n : Nat} :
    readDigits ds = .ok n ↔ ds.length ≤ 4300 ∧ ofDigits ds = n := by
  unfold readDigits
  split
  · next h => simp [show ds.length ≤ 4300 from h]
  · next h => simp [show ¬ ds.length ≤ 4300 from h]

/-- Read place by place, digits show the number that they have as coefficients. -/
theorem ofDigits_eq (ds : List Nat) : ofDigits ds = Nat.ofDigits 10 ds.reverse := by
  rw [← List.reverse_reverse ds]
  generalize ds.reverse = ds
  induction ds with
  | nil => rfl
  | cons d ds ih =>
    rw [List.reverse_cons, ofDigits_append, ih, List.reverse_append, List.reverse_reverse]
    simp [Nat.ofDigits_cons, Nat.add_comm]

end Text

theorem readNumber_eq_ok_iff {bad : CellError} {cs : List Char} {n : Nat} :
    readNumber bad cs = .ok n ↔ ShowsNumber cs n := by
  have hrun : readNumber bad cs = .ok n ↔
      ∃ ds, Text.digitRun? cs = some ds ∧ Text.readDigits ds = .ok n := by
    unfold readNumber
    cases Text.digitRun? cs with
    | none => simp
    | some ds => cases hds : Text.readDigits ds <;> simp [hds, Except.mapError]
  rw [hrun, ShowsNumber]
  constructor
  · rintro ⟨ds, hds, hn⟩
    obtain ⟨hne, hvalues⟩ := Text.digitRun?_eq_some_iff.1 hds
    obtain ⟨hlen, hval⟩ := Text.readDigits_eq_ok_iff.1 hn
    rw [← hvalues.length_eq] at hlen
    exact ⟨List.length_pos_iff.2 hne, hlen, ds, hvalues, by rw [← Text.ofDigits_eq, hval]⟩
  · rintro ⟨hpos, hlen, ds, hvalues, hval⟩
    refine ⟨ds, Text.digitRun?_eq_some_iff.2 ⟨List.length_pos_iff.1 hpos, hvalues⟩, ?_⟩
    rw [hvalues.length_eq] at hlen
    exact Text.readDigits_eq_ok_iff.2 ⟨hlen, by rw [Text.ofDigits_eq, hval]⟩

theorem not_showsNumber_nil (n : Nat) : ¬ ShowsNumber [] n := fun h => absurd h.1 (by decide)

/-! ### Cells -/

/-- **Cells of actions** are read exactly if they show an action. -/
theorem Action.read_eq_ok_iff {cell : String} {a : Action} :
    Action.read cell = .ok a ↔ ShowsAction (Text.strip cell.toList) a := by
  unfold Action.read
  generalize Text.strip cell.toList = cs
  constructor
  · intro h
    split at h
    · cases h
      exact .empty
    · cases h
      exact .err
    · cases h
      exact .acc
    · obtain ⟨n, hn, rfl⟩ := Except.map_eq_ok_iff.1 h
      exact .shift (readNumber_eq_ok_iff.1 hn)
    · obtain ⟨n, hn, rfl⟩ := Except.map_eq_ok_iff.1 h
      exact .reduce (readNumber_eq_ok_iff.1 hn)
    · cases h
  · intro h
    cases h with
    | empty => rfl
    | err => rfl
    | acc => rfl
    | shift h => exact Except.map_eq_ok_iff.2 ⟨_, readNumber_eq_ok_iff.2 h, rfl⟩
    | reduce h => exact Except.map_eq_ok_iff.2 ⟨_, readNumber_eq_ok_iff.2 h, rfl⟩

/-- **Cells of targets** are read exactly if they show a target. -/
theorem readTarget_eq_ok_iff {cell : String} {target : Option Nat} :
    readTarget cell = .ok target ↔ ShowsTarget (Text.strip cell.toList) target := by
  unfold readTarget
  generalize Text.strip cell.toList = cs
  constructor
  · intro h
    split at h
    · cases h
      exact .empty
    · obtain ⟨n, hn, rfl⟩ := Except.map_eq_ok_iff.1 h
      exact .state (readNumber_eq_ok_iff.1 hn)
  · intro h
    cases h with
    | empty => rfl
    | state h =>
      cases cs with
      | nil => exact absurd h (not_showsNumber_nil _)
      | cons c cs => exact Except.map_eq_ok_iff.2 ⟨_, readNumber_eq_ok_iff.2 h, rfl⟩

/-- A number has a rule exactly if it is one of the numbers in the book. -/
theorem RuleBook.isSome_lookup_iff {book : RuleBook} {number : Int} :
    (book.lookup number).isSome = true ↔ number ∈ book.map Prod.fst := by
  rw [List.lookup_isSome_iff]
  simp

namespace Table

variable {states line : Nat} {rules : RuleBook} {column cell : String}

theorem readAction_eq_ok_iff {a : Action} :
    readAction states rules line column cell = .ok a ↔
      ActionCell states rules (Text.strip cell.toList) a := by
  rw [ActionCell, ← Action.read_eq_ok_iff]
  unfold readAction
  cases Action.read cell with
  | error e => simp
  | ok b =>
    cases b with
    | shift target =>
      by_cases h : target < states
      · simp +contextual [Action.Fits, h, eq_comm]
      · simp +contextual [Action.Fits, h, eq_comm]
    | reduce rule =>
      by_cases h : (rule : Int) ∈ rules.map Prod.fst
      · simp only [RuleBook.isSome_lookup_iff.2 h, if_true, Except.ok.injEq]
        exact ⟨by rintro rfl; exact ⟨rfl, h⟩, And.left⟩
      · simp only [mt RuleBook.isSome_lookup_iff.1 h, Except.ok.injEq]
        exact ⟨nofun, by rintro ⟨rfl, h'⟩; exact absurd h' h⟩
    | accept => simp +contextual [Action.Fits, eq_comm]
    | error => simp +contextual [Action.Fits, eq_comm]

theorem readGoto_eq_ok_iff {target : Option Nat} :
    readGoto states line column cell = .ok target ↔
      TargetCell states (Text.strip cell.toList) target := by
  rw [TargetCell, ← readTarget_eq_ok_iff]
  unfold readGoto
  rcases readTarget cell with e | _ | s
  · simp
  · simp +contextual [eq_comm]
  · dsimp only
    split
    · next h => simp +contextual [h, eq_comm]
    · next h => simp +contextual [h, eq_comm]

end Table

/-! ### Written cells -/

namespace Text

/-- A text with no white space at either end is stripped as it is. -/
theorem strip_eq_self {cs : List Char} (hhead : ∀ c ∈ cs.head?, isBlank c = false)
    (hlast : ∀ c ∈ cs.getLast?, isBlank c = false) : strip cs = cs := by
  have hdrop : ∀ {cs : List Char}, (∀ c ∈ cs.head?, isBlank c = false) →
      cs.dropWhile isBlank = cs := by
    intro cs h
    cases cs with
    | nil => rfl
    | cons c cs => rw [List.dropWhile_cons_of_neg (by simp [h c rfl])]
  rw [strip, hdrop hhead, hdrop (by simpa [List.head?_reverse] using hlast), List.reverse_reverse]

theorem isBlank_of_isAsciiDigit {c : Char} (h : isAsciiDigit c = true) : isBlank c = false := by
  obtain ⟨hlow, hhigh⟩ := isAsciiDigit_iff.1 h
  have hnot : ¬ isBlank c = true := by
    rw [isBlank, inRanges_iff]
    simp only [blankRanges, List.mem_cons, List.not_mem_nil, or_false]
    rintro ⟨r, hr, hle⟩
    rcases hr with rfl | rfl | rfl | rfl | rfl | rfl | rfl | rfl | rfl | rfl <;>
      dsimp only at hle <;> omega
  simpa using hnot

end Text

/-- **Written numbers** are shown, unless they have too many digits. -/
theorem showsNumber_toString {n : Nat} (h : n < Text.writeBound) :
    ShowsNumber (toString n).toList n := by
  obtain ⟨hpos, hlen, hdigits⟩ := isNumeral_toString h
  refine ⟨hpos, hlen, _, mapM_eq_some_iff.1 (Text.mapM_digitValue? hdigits), ?_⟩
  rw [← Text.ofDigits_eq]
  exact numeralValue_toString n

/-- Small numbers have few digits. -/
theorem Text.lt_writeBound {n : Nat} (h : n < 10 ^ 2) : n < writeBound := by
  obtain ⟨k, hk, hbound⟩ := exists_writeBound_eq
  have hk : 4300 = k + 1 := hk
  rw [hbound]
  exact Nat.lt_of_lt_of_le h (Nat.pow_le_pow_right (by decide) (by omega))

/-- The number in an action. -/
def Action.number? : Action → Option Nat
  | .shift number | .reduce number => some number
  | .accept | .error => none

/-- The cell of an action, character by character. -/
theorem Table.toList_actionCell (a : Action) : (actionCell a).toList =
    match a with
    | .shift number => 's' :: (toString number).toList
    | .reduce number => 'r' :: (toString number).toList
    | .accept => ['a', 'c', 'c']
    | .error => [] := by
  cases a with
  | shift number => exact String.toList_append
  | reduce number => exact String.toList_append
  | accept => rfl
  | error => rfl

/-- **Written actions** are shown, unless their number has too many digits. -/
theorem Action.shows_cell {a : Action} (h : ∀ n ∈ a.number?, n < Text.writeBound) :
    ShowsAction (Table.actionCell a).toList a := by
  rw [Table.toList_actionCell]
  cases a with
  | shift number => exact .shift (showsNumber_toString (h number rfl))
  | reduce number => exact .reduce (showsNumber_toString (h number rfl))
  | accept => exact .acc
  | error => exact .empty

/-- **Written targets** are shown, unless they have too many digits. -/
theorem shows_targetCell {target : Option Nat} (h : ∀ n ∈ target, n < Text.writeBound) :
    ShowsTarget (Table.targetCell target).toList target := by
  cases target with
  | none => exact .empty
  | some state => exact .state (showsNumber_toString (h state rfl))

end CatAndMouse
