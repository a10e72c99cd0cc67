import CatAndMouse.Text.CodeRange

/-!
# White space

The characters that separate words and pad the cells of a table: the white
space of Unicode, together with the four separators U+001C to U+001F. A line
that holds nothing else is an empty line.
-/

namespace CatAndMouse.Text

/-- The code points of white space. -/
def blankRanges : CodeRanges :=
  [(0x09, 0x0D), (0x1C, 0x20), (0x85, 0x85), (0xA0, 0xA0), (0x1680, 0x1680),
   (0x2000, 0x200A), (0x2028, 0x2029), (0x202F, 0x202F), (0x205F, 0x205F), (0x3000, 0x3000)]

/-- White space. -/
def isBlank (c : Char) : Bool := inRanges blankRanges c

/-- The characters without the white space at either end. -/
def strip (cs : List Char) : List Char :=
  ((cs.dropWhile isBlank).reverse.dropWhile isBlank).reverse

/-- The text without the white space at either end. -/
def stripped (s : String) : String := String.ofList (strip s.toList)

/-- The words of `cs`, where `word` holds, last character first, the part of a
word that was read before. -/
def wordsAfter (word : List Char) : List Char → List (List Char)
  | [] => if word.isEmpty then [] else [word.reverse]
  | c :: cs =>
    if isBlank c then
      if word.isEmpty then wordsAfter [] cs else word.reverse :: wordsAfter [] cs
    else wordsAfter (c :: word) cs

/-- The words of a text: its longest pieces without white space, in order. -/
def words (s : String) : List String := (wordsAfter [] s.toList).map String.ofList

end CatAndMouse.Text
