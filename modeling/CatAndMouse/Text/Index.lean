/-!
# Indices

Places in a list and lengths of a text are words of 64 bits with a sign; a whole
number is an *index* if it is one of them. A number that is none is refused even
where any other number of its sign would do.

`checkRun` says whether a text can be repeated a number of times. A negative
number of times is as good as none; the others must leave a text whose length is
an index and for which there is room. How much room there is depends on where
the program runs.
-/

namespace CatAndMouse.Text

/-- The first number above all indices; its negative is the first index. -/
def indexBound : Int := 9223372036854775808

/-- The number is an index. -/
def isIndex (n : Int) : Bool := decide (-indexBound ≤ n ∧ n < indexBound)

theorem isIndex_iff {n : Int} : isIndex n ↔ -indexBound ≤ n ∧ n < indexBound := by
  simp [isIndex]

/-- The wording of the refusal of a number that is no index. -/
def notIndexMessage : String := "cannot fit 'int' into an index-sized integer"

/-- The wording of the refusal of an index with nothing at its place. -/
def outOfRangeMessage : String := "list index out of range"

/-- Why a text cannot be repeated a number of times. -/
inductive RunError where
  /-- The number of times is no index. -/
  | notIndex
  /-- The length of the whole is no index. -/
  | tooLong
  /-- There is no room for the whole. -/
  | noRoom
deriving DecidableEq

/-- The wording of the error; a lack of room has none. -/
def RunError.message : RunError → String
  | .notIndex => notIndexMessage
  | .tooLong => "repeated string is too long"
  | .noRoom => ""

/-- Whether a text of `unit` characters can be repeated `count` times, where there is room for
`room` characters. -/
def checkRun (room unit : Nat) (count : Int) : Except RunError Unit :=
  if !isIndex count then .error .notIndex
  else if indexBound ≤ unit * count then .error .tooLong
  else if room < unit * count then .error .noRoom
  else .ok ()

/-- A text can be repeated exactly if the number of times and the length of the whole are indices
and there is room. -/
theorem checkRun_eq_ok_iff {room unit : Nat} {count : Int} :
    checkRun room unit count = .ok () ↔
      isIndex count ∧ unit * count < indexBound ∧ unit * count ≤ room := by
  unfold checkRun
  cases isIndex count <;> grind

end CatAndMouse.Text
