import CatAndMouse.Text.Index
import CatAndMouse.Text.Numeral
import CatAndMouse.Text.Quoted
import CatAndMouse.Tree

/-!
# Trees in print

Three forms: the *outline*, a line per node indented by its depth; the
*detailed* form, a nested expression with named fields; and the *source* form,
the program text that the tree stands for.

Not every tree has an outline: a number may have too many digits to be written, a
line may be indented too far, and a tree may have more levels than can be gone
down. How far one can go is said by `Limits`.
-/

namespace CatAndMouse

/-- What the place where the program runs allows. -/
structure Limits where
  /-- The length of the longest run of blanks for which there is room. -/
  room : Nat
  /-- How many levels of a tree can be gone down. -/
  levels : Nat

/-- Why a tree has no outline. -/
inductive OutlineError where
  /-- The tree has too many levels. -/
  | tooDeep
  /-- A line cannot be indented. -/
  | indent (e : Text.RunError)
  /-- A number cannot be written. -/
  | unwritable
deriving DecidableEq

/-- The wording of the error. -/
def OutlineError.message : OutlineError → String
  | .tooDeep => "maximum recursion depth exceeded"
  | .indent e => e.message
  | .unwritable => Text.unwritableMessage

namespace Node

/-- The text of a node in an outline: a leaf's value, and the title of any other shape. A number
must be one that can be written. -/
def label? (n : Node) : Option String :=
  match n with
  | .number v _ => Text.write? v
  | .name t _ => some t
  | .facing h _ => some h.word
  | _ => some n.shape.title

/-! ### Outline -/

/-- The nodes with their depths, a node before those below it, and then the rest. -/
def preorderOnto (depth : Nat) (n : Node) (rest : List (Nat × Node)) : List (Nat × Node) :=
  (depth, n) ::
    match n with
    | .number .. | .name .. | .facing .. => rest
    | .chain l r => l.preorderOnto (depth + 1) <| r.preorderOnto (depth + 1) rest
    | .cat n x y f | .mouse n x y f =>
      n.preorderOnto (depth + 1) <| x.preorderOnto (depth + 1) <|
        y.preorderOnto (depth + 1) <| f.preorderOnto (depth + 1) rest
    | .hole x y => x.preorderOnto (depth + 1) <| y.preorderOnto (depth + 1) rest
    | .move n d => n.preorderOnto (depth + 1) <| d.preorderOnto (depth + 1) rest
    | .turn n => n.preorderOnto (depth + 1) rest
    | .loop c b => c.preorderOnto (depth + 1) <| b.preorderOnto (depth + 1) rest
    | .program w h b =>
      w.preorderOnto (depth + 1) <| h.preorderOnto (depth + 1) <|
        b.preorderOnto (depth + 1) rest

/-- The nodes with their depths, a node before those below it. -/
def preorder (depth : Nat) (n : Node) : List (Nat × Node) := n.preorderOnto depth []

theorem preorderOnto_eq (depth : Nat) (n : Node) (rest : List (Nat × Node)) :
    n.preorderOnto depth rest = n.preorder depth ++ rest := by
  unfold preorder
  induction n generalizing depth rest <;> grind [preorderOnto]

/-- A node comes before the nodes below it, and these go from left to right. -/
theorem preorder_eq (depth : Nat) (n : Node) :
    n.preorder depth = (depth, n) :: n.children.flatMap (·.preorder (depth + 1)) := by
  rw [preorder]
  cases n <;> simp [children, preorderOnto, preorderOnto_eq]

/-- Two spaces for each level; a level below zero is not indented. -/
def padding (level : Int) : String := String.ofList (List.replicate (2 * level.toNat) ' ')

/-- The entry of a node: its label, indented by its depth and by `indent` levels more. -/
def outlineEntry (limits : Limits) (indent : Int) (depth : Nat) (n : Node) :
    Except OutlineError String := do
  if limits.levels ≤ depth then throw .tooDeep
  (Text.checkRun limits.room 2 (indent + depth)).mapError .indent
  match n.label? with
  | some text => pure (padding (indent + depth) ++ text)
  | none => throw .unwritable

/-- The entries of the outline, one for each node, up to the first that cannot be had. -/
def outlineEntries (limits : Limits) (indent : Int) (n : Node) :
    Except OutlineError (List String) :=
  (n.preorder 0).mapM fun (depth, m) => m.outlineEntry limits indent depth

/-- The outline, indented by a number of levels. -/
def outline (limits : Limits) (indent : Int) (n : Node) : Except OutlineError String :=
  (n.outlineEntries limits indent).map (String.intercalate "\n")

/-! ### Detailed form -/

/-- A title with fields in parentheses. -/
def withFields (title : String) (fields : List (String × String)) : String :=
  title ++ "(" ++ String.intercalate ", " (fields.map fun (k, v) => k ++ "=" ++ v) ++ ")"

/-- The tree with all its fields but the lines. Its numbers are ones that can be written. -/
def detailed (n : Node) : String :=
  withFields n.shape.title <|
    match n with
    | .number v _ => [("value", toString v)]
    | .name t _ => [("text", Text.quoted t)]
    | .facing h _ => [("heading", s!"<Heading.{h.initial}: {Text.quoted h.word}>")]
    | .chain l r => [("left", l.detailed), ("right", r.detailed)]
    | .cat n x y f | .mouse n x y f =>
      [("name", n.detailed), ("x", x.detailed), ("y", y.detailed), ("facing", f.detailed)]
    | .hole x y => [("x", x.detailed), ("y", y.detailed)]
    | .move n d => [("name", n.detailed), ("distance", d.detailed)]
    | .turn n => [("name", n.detailed)]
    | .loop c b => [("count", c.detailed), ("body", b.detailed)]
    | .program w h b => [("width", w.detailed), ("height", h.detailed), ("body", b.detailed)]

/-! ### Source form -/

/-- The words of the program text of a tree, every distance written out. -/
def sourceWords (n : Node) : List String :=
  match n with
  | .number v _ => [toString v]
  | .name t _ => [t]
  | .facing h _ => [h.word]
  | .chain l r => l.sourceWords ++ [";"] ++ r.sourceWords
  | .cat n x y f =>
    "cat" :: n.sourceWords ++ x.sourceWords ++ y.sourceWords ++ f.sourceWords
  | .mouse n x y f =>
    "mouse" :: n.sourceWords ++ x.sourceWords ++ y.sourceWords ++ f.sourceWords
  | .hole x y => "hole" :: x.sourceWords ++ y.sourceWords
  | .move n d => "move" :: n.sourceWords ++ d.sourceWords
  | .turn n => "clockwise" :: n.sourceWords
  | .loop c b => "repeat" :: c.sourceWords ++ b.sourceWords ++ [";", "end"]
  | .program w h b =>
    "size" :: w.sourceWords ++ h.sourceWords ++ "begin" :: b.sourceWords ++ [";", "halt"]

/-- The program text of a tree, its words parted by single spaces. -/
def sourceText (n : Node) : String := String.intercalate " " n.sourceWords

end Node

end CatAndMouse
