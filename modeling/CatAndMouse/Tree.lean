import CatAndMouse.Heading

/-!
# Program trees

A tree has three sorts of leaves (numbers, names and facings), the six
statements, chains of statements and whole programs. A leaf keeps the line of
its token. Nothing restricts which tree stands where: a table that is not the
standard one may put any tree below any other, so what fits where is a property
of trees and not of the type.

Lines are for messages only: `Node.same` compares trees without them.
-/

namespace CatAndMouse

/-- A tree. -/
inductive Node where
  | number (value : Int) (line : Int)
  | name (text : String) (line : Int)
  | facing (heading : Heading) (line : Int)
  /-- A list of statements, or a single one, and the statement after it. -/
  | chain (before last : Node)
  | cat (name x y facing : Node)
  | mouse (name x y facing : Node)
  | hole (x y : Node)
  | move (name distance : Node)
  | turn (name : Node)
  | loop (count body : Node)
  | program (width height body : Node)
deriving DecidableEq

/-- The outermost constructor of a tree. -/
inductive Shape where
  | number | name | facing | chain | cat | mouse | hole | move | turn | loop | program
deriving DecidableEq

/-- The title of a shape. -/
def Shape.title : Shape → String
  | .number => "IntegerLiteral"
  | .name => "VariableName"
  | .facing => "Direction"
  | .chain => "Sequence"
  | .cat => "Cat"
  | .mouse => "Mouse"
  | .hole => "Hole"
  | .move => "Move"
  | .turn => "Clockwise"
  | .loop => "Repeat"
  | .program => "Program"

namespace Node

/-- The shape of a tree. -/
def shape : Node → Shape
  | .number .. => .number
  | .name .. => .name
  | .facing .. => .facing
  | .chain .. => .chain
  | .cat .. => .cat
  | .mouse .. => .mouse
  | .hole .. => .hole
  | .move .. => .move
  | .turn .. => .turn
  | .loop .. => .loop
  | .program .. => .program

/-- The trees right below, from left to right. -/
def children : Node → List Node
  | .number .. | .name .. | .facing .. => []
  | .chain l r => [l, r]
  | .cat n x y f | .mouse n x y f => [n, x, y, f]
  | .hole x y => [x, y]
  | .move n d => [n, d]
  | .turn n => [n]
  | .loop c b => [c, b]
  | .program w h b => [w, h, b]

/-- The line of a leaf. -/
def line? : Node → Option Int
  | .number _ l | .name _ l | .facing _ l => some l
  | _ => none

/-- The number of nodes. -/
def size : Node → Nat
  | .number .. | .name .. | .facing .. => 1
  | .chain l r => l.size + r.size + 1
  | .cat n x y f | .mouse n x y f => n.size + x.size + y.size + f.size + 1
  | .hole x y => x.size + y.size + 1
  | .move n d => n.size + d.size + 1
  | .turn n => n.size + 1
  | .loop c b => c.size + b.size + 1
  | .program w h b => w.size + h.size + b.size + 1

theorem size_pos (n : Node) : 0 < n.size := by
  cases n <;> simp [size]

/-- The tree with every line forgotten. -/
def eraseLines : Node → Node
  | .number v _ => .number v 0
  | .name t _ => .name t 0
  | .facing h _ => .facing h 0
  | .chain l r => .chain l.eraseLines r.eraseLines
  | .cat n x y f => .cat n.eraseLines x.eraseLines y.eraseLines f.eraseLines
  | .mouse n x y f => .mouse n.eraseLines x.eraseLines y.eraseLines f.eraseLines
  | .hole x y => .hole x.eraseLines y.eraseLines
  | .move n d => .move n.eraseLines d.eraseLines
  | .turn n => .turn n.eraseLines
  | .loop c b => .loop c.eraseLines b.eraseLines
  | .program w h b => .program w.eraseLines h.eraseLines b.eraseLines

/-- Equal but for the lines of the leaves. -/
def same (a b : Node) : Bool := a.eraseLines = b.eraseLines

/-! ### Statement lists -/

/-- The number of nodes in all the trees. -/
def totalSize : List Node → Nat
  | [] => 0
  | n :: ns => n.size + totalSize ns

theorem totalSize_unfold_lt (l r : Node) (pending : List Node) :
    totalSize (l :: r :: pending) < totalSize (.chain l r :: pending) := by
  simp only [totalSize, size]
  omega

theorem totalSize_tail_lt (n : Node) (pending : List Node) :
    totalSize pending < totalSize (n :: pending) :=
  Nat.lt_add_of_pos_left (size_pos n)

/-- The statements of the pending trees, in order: a chain gives way to its two parts. -/
def unchain : List Node → List Node
  | [] => []
  | .chain l r :: pending => unchain (l :: r :: pending)
  | n :: pending => n :: unchain pending
termination_by pending => totalSize pending
decreasing_by
  · exact totalSize_unfold_lt _ _ _
  · exact totalSize_tail_lt _ _

/-- The statements of a body, in the order in which they run. -/
def statements (body : Node) : List Node := unchain [body]

theorem unchain_append (as bs : List Node) : unchain (as ++ bs) = unchain as ++ unchain bs := by
  induction as using unchain.induct with
  | case1 => simp [unchain]
  | case2 l r pending ih => simpa [unchain] using ih
  | case3 n pending h ih => simp [unchain, ih]

/-- The statements of a chain are those of its two parts. -/
theorem statements_chain (l r : Node) :
    (chain l r).statements = l.statements ++ r.statements := by
  simpa [statements, unchain] using unchain_append [l] [r]

/-- What is no chain is a statement of its own. -/
theorem statements_of_shape_ne {n : Node} (h : n.shape ≠ .chain) : n.statements = [n] := by
  cases n <;> simp_all [statements, unchain, shape]

/-- The body of a loop or a program. -/
def body? : Node → Option Node
  | .loop _ b | .program _ _ b => some b
  | _ => none

/-- The chain of a list of statements that begins with `first`. -/
def chainOf (first : Node) (others : List Node) : Node := others.foldl .chain first

end Node

end CatAndMouse
