import CatAndMouse.Text.Numeral
import CatAndMouse.Tree

/-!
# Building trees

While a program is read, its fragments wait on a stack, the newest on top. Each
rule of the grammar takes a fixed number of fragments off the stack and puts
one back. Keywords and semicolons leave no fragment, so a rule takes fewer
fragments than it has symbols.

A fragment of the wrong shape is noticed after the fragments were taken; an
unknown rule or a stack that is too short is noticed before.
-/

namespace CatAndMouse

/-- What a rule does with the fragments it takes. -/
inductive Build where
  | program | pass | chain | cat | mouse | hole
  /-- A move without a distance goes one step. -/
  | step
  | move | turn | loop
deriving DecidableEq

/-- Why no tree is built. -/
inductive BuildError where
  /-- The rule builds nothing. -/
  | unknownRule (rule : Int)
  /-- The stack is too short. -/
  | underflow (need present : Nat)
  /-- A fragment has the wrong shape. -/
  | mismatch (wanted found : Shape)
deriving DecidableEq

/-- The wording of the error. -/
def BuildError.message : BuildError → String
  | .unknownRule rule => s!"no semantic action for rule {rule}"
  | .underflow need present => s!"AST stack underflow: need {need}, have {present}"
  | .mismatch wanted found =>
    s!"expected {wanted.title} on AST stack, found {found.title}"

/-- The numbers that the wording shows, but for counts. -/
def BuildError.numbers : BuildError → List Int
  | .unknownRule rule => [rule]
  | .underflow .. | .mismatch .. => []

/-- The wording, if its numbers can be written. -/
def BuildError.report? (e : BuildError) : Option String := Text.report? e.numbers e.message

/-- The error is one of the table. A rule whose number cannot be written gives none: the refusal to
write it comes instead. -/
def BuildError.isTableError (e : BuildError) : Bool := e.report?.isSome

/-- The fragment, if it has the shape that is wanted. -/
def Node.expect (n : Node) (wanted : Shape) : Except BuildError Node :=
  if n.shape = wanted then .ok n else .error (.mismatch wanted n.shape)

namespace Build

/-- What each rule builds. -/
def ofRules : List (Int × Build) :=
  [(1, .program), (2, .pass), (3, .chain), (4, .cat), (5, .mouse), (6, .hole), (7, .step),
   (8, .move), (9, .turn), (10, .loop), (11, .pass), (12, .pass), (13, .pass), (14, .pass)]

/-- How many fragments are taken. -/
def arity : Build → Nat
  | .pass | .step | .turn => 1
  | .chain | .hole | .move | .loop => 2
  | .program => 3
  | .cat | .mouse => 4

/-- The distance of a move that gives none. -/
def defaultDistance : Int := 1

/-- A move by one step of the animal called `name`. -/
def oneStep (name : Node) : Node :=
  .move name (.number defaultDistance (name.line?.getD 0))

/-- The tree built from the top of the stack, and what stays below; nothing if the
stack is too short. Fragments are checked from left to right. -/
def take? : Build → List Node → Option (Except BuildError Node × List Node)
  | .program, b :: h :: w :: below =>
    some (do pure (.program (← w.expect .number) (← h.expect .number) b), below)
  | .pass, n :: below => some (.ok n, below)
  | .chain, r :: l :: below => some (.ok (.chain l r), below)
  | .cat, f :: y :: x :: n :: below =>
    some (do
      pure (.cat (← n.expect .name) (← x.expect .number) (← y.expect .number)
        (← f.expect .facing)), below)
  | .mouse, f :: y :: x :: n :: below =>
    some (do
      pure (.mouse (← n.expect .name) (← x.expect .number) (← y.expect .number)
        (← f.expect .facing)), below)
  | .hole, y :: x :: below =>
    some (do pure (.hole (← x.expect .number) (← y.expect .number)), below)
  | .step, n :: below => some (do pure (oneStep (← n.expect .name)), below)
  | .move, d :: n :: below =>
    some (do pure (.move (← n.expect .name) (← d.expect .number)), below)
  | .turn, n :: below => some (do pure (.turn (← n.expect .name)), below)
  | .loop, b :: c :: below => some (do pure (.loop (← c.expect .number) b), below)
  | _, _ => none

/-- A tree is built exactly if the stack holds as many fragments as are taken. -/
theorem take?_eq_none_iff (b : Build) (stack : List Node) :
    b.take? stack = none ↔ stack.length < b.arity := by
  rcases stack with _ | ⟨n₁, _ | ⟨n₂, _ | ⟨n₃, _ | ⟨n₄, rest⟩⟩⟩⟩ <;>
    cases b <;> simp [take?, arity]

end Build

/-- The fragments, newest first. -/
abbrev Fragments := List Node

/-- Apply a rule to the fragments: the error, if there is one, and the fragments after it. -/
def Fragments.apply (rule : Int) (stack : Fragments) : Option BuildError × Fragments :=
  match Build.ofRules.lookup rule with
  | none => (some (.unknownRule rule), stack)
  | some build =>
    match build.take? stack with
    | none => (some (.underflow build.arity stack.length), stack)
    | some (.ok n, below) => (none, n :: below)
    | some (.error e, below) => (some e, below)

end CatAndMouse
