import CatAndMouse.Heading
import CatAndMouse.Text.Numeral
import CatAndMouse.Text.Quoted

/-!
# Tokens

A program is a sequence of tokens: keywords, integers, names, semicolons and the
end of the input. The *name* of a token's kind (`SIZE`, `INTEGER`, …) is the
terminal symbol that heads its column in a parse table; its *spelling* is the
keyword itself, or a description in angle brackets.
-/

namespace CatAndMouse

/-- What a token is. -/
inductive Kind where
  | size
  | integer
  | start
  | halt
  | semicolon
  | cat
  | name
  | mouse
  | hole
  | move
  | clockwise
  | loop
  | done
  | heading (h : Heading)
  | endOfInput
deriving DecidableEq

namespace Kind

/-- All kinds, in the order of the columns of the standard table. -/
def all : List Kind :=
  [.size, .integer, .start, .halt, .semicolon, .cat, .name, .mouse, .hole, .move, .clockwise,
   .loop, .done] ++ Heading.all.map .heading ++ [.endOfInput]

/-- The terminal symbol of the kind. -/
def symbol : Kind → String
  | .size => "SIZE"
  | .integer => "INTEGER"
  | .start => "BEGIN"
  | .halt => "HALT"
  | .semicolon => "SEMICOLON"
  | .cat => "CAT"
  | .name => "VARIABLE"
  | .mouse => "MOUSE"
  | .hole => "HOLE"
  | .move => "MOVE"
  | .clockwise => "CLOCKWISE"
  | .loop => "REPEAT"
  | .done => "END"
  | .heading .north => "NORTH"
  | .heading .south => "SOUTH"
  | .heading .east => "EAST"
  | .heading .west => "WEST"
  | .endOfInput => "EOF"

/-- The keyword of the kind, or a description of its texts. -/
def spelling : Kind → String
  | .size => "size"
  | .integer => "<integer>"
  | .start => "begin"
  | .halt => "halt"
  | .semicolon => ";"
  | .cat => "cat"
  | .name => "<variable>"
  | .mouse => "mouse"
  | .hole => "hole"
  | .move => "move"
  | .clockwise => "clockwise"
  | .loop => "repeat"
  | .done => "end"
  | .heading h => h.word
  | .endOfInput => "<eof>"

/-- The kinds with one spelling that is a word. -/
def isKeyword : Kind → Bool
  | .integer | .semicolon | .name | .endOfInput => false
  | _ => true

/-- The kinds that point in a direction. -/
def isHeading : Kind → Bool
  | .heading _ => true
  | _ => false

/-- The kinds whose tokens carry a value into the tree. -/
def isLeaf : Kind → Bool
  | .integer | .name | .heading _ => true
  | _ => false

/-- The fourteen keywords with their kinds. -/
def keywords : List (String × Kind) :=
  (all.filter isKeyword).map fun k => (k.spelling, k)

/-- The kind of a word: a keyword's own kind, and a name otherwise. -/
def ofWord (word : String) : Kind := (keywords.lookup word).getD .name

/-- The kind whose terminal symbol is given. -/
def ofSymbol? (s : String) : Option Kind := all.find? (·.symbol = s)

/-- A kind is determined by its terminal symbol. -/
theorem ofSymbol?_symbol (k : Kind) : ofSymbol? k.symbol = some k := by
  cases k with
  | heading h => cases h <;> rfl
  | _ => rfl

end Kind

/-- A token: its kind, its text, and the line and column of its first character. The
end of the input has no text. -/
structure Token where
  kind : Kind
  text : String
  line : Int
  col : Int
deriving DecidableEq

namespace Token

/-- The end of the input, on the given line. -/
def endAt (line : Int) : Token := ⟨.endOfInput, "", line, 1⟩

/-- How a message names the token. -/
def describe (t : Token) : String :=
  if t.kind = .endOfInput then "end of input" else s!"{t.kind.symbol} {Text.quoted t.text}"

/-- The position `line:col`. -/
def place (t : Token) : String := s!"{t.line}:{t.col}"

/-- The position can be written. -/
def isPlaceWritable (t : Token) : Bool := Text.isWritable t.line && Text.isWritable t.col

/-- The token with all its fields. Its place is one that can be written. -/
def detailed (t : Token) : String :=
  s!"Token(type=<TokenType.{t.kind.symbol}: {Text.quoted t.kind.spelling}>, "
    ++ s!"text={Text.quoted t.text}, line={t.line}, col={t.col})"

end Token

end CatAndMouse
