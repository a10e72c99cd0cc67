import CatAndMouse.Text.Digit

/-!
# Reading and writing numbers

A run of decimal digits is read place by place. A run of more than
`digitLimit` digits is refused, whatever its value: leading zeros count. A
number whose digits are more than that is not written either; its sign does
not count.
-/

namespace CatAndMouse.Text

/-- The longest run of digits that is read or written. -/
def digitLimit : Nat := 4300

/-- A run of `count` digits, more than `digitLimit`. -/
structure TooManyDigits where
  count : Nat
deriving DecidableEq

/-- The wording of the refusal. -/
def TooManyDigits.message (e : TooManyDigits) : String :=
  s!"Exceeds the limit (4300 digits) for integer string conversion: value has {e.count} digits; "
    ++ "use sys.set_int_max_str_digits() to increase the limit"

/-- The number with the given digits, the first one counting most. -/
def ofDigits (digits : List Nat) : Nat := digits.foldl (fun n d => 10 * n + d) 0

/-- The number with the given digits, if there are not too many. -/
def readDigits (digits : List Nat) : Except TooManyDigits Nat :=
  if digits.length ≤ digitLimit then .ok (ofDigits digits) else .error ⟨digits.length⟩

/-- The values of a non-empty run of decimal digits of any script, and nothing
if another character is among them. -/
def digitRun? : List Char → Option (List Nat)
  | [] => none
  | cs => cs.mapM digitValue?

/-- The values of a non-empty run of ASCII digits. -/
def asciiRun? (cs : List Char) : Option (List Nat) :=
  if cs.all isAsciiDigit then digitRun? cs else none

/-! ### Writing -/

/-- The least number with too many digits to be written. -/
def writeBound : Nat := Nat.pow 10 digitLimit

/-- The number has not too many digits to be written. -/
def isWritable (n : Int) : Bool := decide (n.natAbs < writeBound)

/-- The wording of the refusal to write a number. -/
def unwritableMessage : String :=
  "Exceeds the limit (4300 digits) for integer string conversion; "
    ++ "use sys.set_int_max_str_digits() to increase the limit"

theorem isWritable_iff {n : Int} : isWritable n = true ↔ n.natAbs < writeBound :=
  decide_eq_true_iff

theorem isWritable_natCast {n : Nat} : isWritable n = true ↔ n < writeBound := by
  rw [isWritable_iff, Int.natAbs_natCast]

theorem not_isWritable_writeBound : ¬ isWritable writeBound = true := by
  rw [isWritable_natCast]
  exact Nat.lt_irrefl _

/-- The decimal digits of a number, after its sign, if it has not too many. -/
def write? (n : Int) : Option String := if isWritable n then some (toString n) else none

/-- A message that shows numbers, if these can be written. -/
def report? (numbers : List Int) (message : String) : Option String :=
  if numbers.all isWritable then some message else none

theorem write?_eq_some_iff {n : Int} {s : String} :
    write? n = some s ↔ isWritable n = true ∧ toString n = s := by
  simp [write?]

/-- **When a message can be written**: all the numbers that it shows can be. -/
@[simp]
theorem isSome_report?_iff {numbers : List Int} {message : String} :
    (report? numbers message).isSome = true ↔ ∀ n ∈ numbers, isWritable n = true := by
  simp [report?]

end CatAndMouse.Text
