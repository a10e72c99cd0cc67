/-!
# Cutting a text at a separator

`splitAt sep` cuts at every occurrence of `sep`: `n` separators give `n + 1`
pieces, some of them empty, and the pieces joined by the separator are the text
again.
-/

namespace CatAndMouse.Text

/-- The pieces between the occurrences of `sep`; there is always at least one. -/
def splitAt (sep : Char) : List Char → List (List Char)
  | [] => [[]]
  | c :: cs =>
    if c = sep then [] :: splitAt sep cs
    else
      match splitAt sep cs with
      | [] => [[c]]
      | piece :: pieces => (c :: piece) :: pieces

/-- The pieces of a text, as texts. -/
def pieces (sep : Char) (s : String) : List String :=
  (splitAt sep s.toList).map String.ofList

/-- What stands before and after the first occurrence of `sep`, if there is one. -/
def breakAt? (sep : List Char) : List Char → Option (List Char × List Char)
  | [] => if sep = [] then some ([], []) else none
  | c :: cs =>
    if sep.isPrefixOf (c :: cs) then some ([], (c :: cs).drop sep.length)
    else (breakAt? sep cs).map fun (before, after) => (c :: before, after)

/-- A text has at least one piece. -/
theorem splitAt_ne_nil (sep : Char) (cs : List Char) : splitAt sep cs ≠ [] := by
  cases cs with
  | nil => simp [splitAt]
  | cons c cs =>
    rw [splitAt]
    split
    · simp
    · split <;> simp

/-- The pieces, joined by the separator, are the text. -/
theorem intercalate_splitAt (sep : Char) (cs : List Char) :
    [sep].intercalate (splitAt sep cs) = cs := by
  induction cs with
  | nil => simp [splitAt, List.intercalate]
  | cons c cs ih =>
    rw [splitAt]
    split
    · next h =>
      subst h
      cases hp : splitAt c cs with
      | nil => exact absurd hp (splitAt_ne_nil c cs)
      | cons piece rest =>
        rw [hp] at ih
        simpa [List.intercalate] using ih
    · cases hp : splitAt sep cs with
      | nil => exact absurd hp (splitAt_ne_nil sep cs)
      | cons piece rest =>
        rw [hp] at ih
        cases rest <;> simp_all [List.intercalate]

end CatAndMouse.Text
