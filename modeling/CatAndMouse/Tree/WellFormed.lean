import CatAndMouse.Token.Lexical
import CatAndMouse.Tree

/-!
# Well-formed trees

Three predicates. `FieldTyped` says that the fields of every statement in a tree
are leaves of the right sort. `IsStatement`, `IsBody` and `IsProgram` single out
the trees of programs: a body is a chain that grows to the left, and it is not
empty. A program holds words for names, over the classes of characters of the
scanner that reads it.
-/

namespace CatAndMouse.Node

/-- A number that is not negative. -/
inductive IsNumber : Node → Prop where
  | mk (n : Nat) (line : Int) : IsNumber (.number n line)

/-- A facing. -/
inductive IsFacing : Node → Prop where
  | mk (h : Heading) (line : Int) : IsFacing (.facing h line)

/-- A name, whatever its text. -/
inductive IsName : Node → Prop where
  | mk (text : String) (line : Int) : IsName (.name text line)

/-- The fields of every node are leaves of the right sort; chains, and the bodies of loops
and programs, may hold anything. -/
def FieldTyped : Node → Prop
  | .number v _ => 0 ≤ v
  | .name .. | .facing .. => True
  | .chain l r => l.FieldTyped ∧ r.FieldTyped
  | .cat n x y f | .mouse n x y f => n.IsName ∧ x.IsNumber ∧ y.IsNumber ∧ f.IsFacing
  | .hole x y => x.IsNumber ∧ y.IsNumber
  | .move n d => n.IsName ∧ d.IsNumber
  | .turn n => n.IsName
  | .loop c b => c.IsNumber ∧ b.FieldTyped
  | .program w h b => w.IsNumber ∧ h.IsNumber ∧ b.FieldTyped

/-- A name that a program can hold: a word that is no keyword. -/
inductive IsProgramName (ids : Text.IdentClasses) : Node → Prop where
  | mk {text : String} (line : Int) (hword : IsWord ids text.toList)
      (hname : Kind.ofWord text = .name) : IsProgramName ids (.name text line)

mutual

/-- A statement of a program. -/
inductive IsStatement (ids : Text.IdentClasses) : Node → Prop where
  | cat {n x y f : Node} (hn : IsProgramName ids n) (hx : IsNumber x) (hy : IsNumber y)
      (hf : IsFacing f) : IsStatement ids (.cat n x y f)
  | mouse {n x y f : Node} (hn : IsProgramName ids n) (hx : IsNumber x) (hy : IsNumber y)
      (hf : IsFacing f) : IsStatement ids (.mouse n x y f)
  | hole {x y : Node} (hx : IsNumber x) (hy : IsNumber y) : IsStatement ids (.hole x y)
  | move {n d : Node} (hn : IsProgramName ids n) (hd : IsNumber d) : IsStatement ids (.move n d)
  | turn {n : Node} (hn : IsProgramName ids n) : IsStatement ids (.turn n)
  | loop {c b : Node} (hc : IsNumber c) (hb : IsBody ids b) : IsStatement ids (.loop c b)

/-- A list of statements: one statement, or a list and a statement after it. -/
inductive IsBody (ids : Text.IdentClasses) : Node → Prop where
  | single {n : Node} (h : IsStatement ids n) : IsBody ids n
  | chain {l r : Node} (hl : IsBody ids l) (hr : IsStatement ids r) : IsBody ids (.chain l r)

end

/-- A whole program. -/
inductive IsProgram (ids : Text.IdentClasses) : Node → Prop where
  | mk {w h b : Node} (hw : IsNumber w) (hh : IsNumber h) (hb : IsBody ids b) :
      IsProgram ids (.program w h b)

end CatAndMouse.Node
