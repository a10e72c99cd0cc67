import CatAndMouse.Text.Index

/-!
# Lines and the caret

Line ends of other systems folded into LF, and the two-line snippet of a
message: the line that holds an offset, and a caret under that offset.
-/

namespace CatAndMouse.Text

/-- CR LF becomes LF; a lone CR stays. -/
def joinReturns : List Char → List Char
  | [] => []
  | '\r' :: '\n' :: cs => '\n' :: joinReturns cs
  | c :: cs => c :: joinReturns cs

/-- CR LF and a lone CR become LF. -/
def foldReturns : List Char → List Char
  | [] => []
  | '\r' :: '\n' :: cs => '\n' :: foldReturns cs
  | c :: cs => (if c = '\r' then '\n' else c) :: foldReturns cs

/-- The end of `cs` after its last LF. -/
def lastLine (cs : List Char) : List Char :=
  (cs.reverse.takeWhile (· ≠ '\n')).reverse

/-- The start of `cs` before its first LF. -/
def firstLine (cs : List Char) : List Char := cs.takeWhile (· ≠ '\n')

/-- An offset as a cut of a text of `length` characters: a negative one counts from the
end, and what lies outside goes to the nearer end. -/
def cutAt (length : Nat) (pos : Int) : Nat :=
  if 0 ≤ pos then min pos.toNat length else (pos + length).toNat

/-- How far the offset is from the start of the line that holds it. An offset outside the
text is as far from there as it says itself. -/
def caretColumn (cs : List Char) (pos : Int) : Int :=
  let cut := cutAt cs.length pos
  pos - (cut - (lastLine (cs.take cut)).length : Nat)

/-- The line that holds the offset, and below it a caret. The caret stands as far
from the start of the line as the offset itself says. -/
def caretSnippet (cs : List Char) (pos : Int) : List Char :=
  let cut := cutAt cs.length pos
  lastLine (cs.take cut) ++ firstLine (cs.drop cut)
    ++ '\n' :: List.replicate (caretColumn cs pos).toNat ' ' ++ ['^']

/-- The line and the caret, if the caret can stand so far to the right. The scanner shows offsets
of its text only, and does without the check. -/
def checkedSnippet (room : Nat) (cs : List Char) (pos : Int) : Except RunError (List Char) :=
  (checkRun room 1 (caretColumn cs pos)).map fun _ => caretSnippet cs pos

end CatAndMouse.Text
