import CatAndMouse.Fragment
import CatAndMouse.Table
import CatAndMouse.Token.Source
import CatAndMouse.Tree.Leaf

/-!
# The shift/reduce automaton

The automaton reads tokens and builds a tree, as its table says. It has a stack
of frames, each a symbol and the state after it, and a stack of fragments of the
tree. One token is looked at ahead; its leaf goes onto the fragments as soon as
the token is read, before it is shifted.

`step` does one action. A step ends in another configuration or in a verdict:
the tree, or why there is none. `run` takes a number of steps and answers only
if the verdict comes within them, so `∃ n, run t n c look = some o` says that
the automaton halts, and with what.
-/

namespace CatAndMouse

/-- A symbol on the stack and the state after it. -/
structure Frame where
  symbol : String
  state : Nat
deriving DecidableEq

/-- What the automaton reports on its way. -/
inductive Event where
  /-- The stack of frames, newest first. -/
  | stack (frames : List Frame)
  | reduced (rule : Nat)
deriving DecidableEq

/-- The state on top of a stack; below all frames is the state in which the automaton begins. -/
def topState : List Frame → Nat
  | [] => Table.start
  | f :: _ => f.state

/-- The frames below a number of frames; nothing if there are fewer than that. -/
def below? : Nat → List Frame → Option (List Frame)
  | 0, frames => some frames
  | _ + 1, [] => none
  | n + 1, _ :: frames => below? n frames

theorem below?_eq_some_iff {n : Nat} {frames below : List Frame} :
    below? n frames = some below ↔ n ≤ frames.length ∧ frames.drop n = below := by
  fun_induction below? n frames <;> simp_all

theorem below?_eq_none_iff {n : Nat} {frames : List Frame} :
    below? n frames = none ↔ frames.length < n := by
  fun_induction below? n frames <;> simp_all

/-- The stack, oldest first: states, with the symbols between them. -/
def showStack (frames : List Frame) : String :=
  String.intercalate " " <|
    toString Table.start :: frames.reverse.flatMap fun f => [f.symbol, toString f.state]

/-- The event in words. -/
def Event.text : Event → String
  | .stack frames => showStack frames
  | .reduced rule => s!"REDUCE OP {rule} APPLIED"

/-- Why there is no tree. -/
inductive Failure where
  /-- The source failed. -/
  | scan (e : ScanError)
  /-- An integer cannot be read. -/
  | badLeaf (t : Token) (e : LeafError)
  /-- A token that the state does not allow; the terminals that it allows. -/
  | unexpected (t : Token) (state : Nat) (expected : List String)
  /-- The table has no column for a symbol. -/
  | unknownSymbol (e : UnknownSymbol)
  /-- The table has no rule of a number. -/
  | unknownRule (e : UnknownRule)
  /-- A rule does not fit the fragments. -/
  | build (e : BuildError)
  /-- A rule takes more frames than there are. -/
  | stackUnderflow (rule : Nat)
  /-- The table has no target. -/
  | noTarget (state : Nat) (lhs : String)
  /-- Not one tree is left at the end. -/
  | leftOver (fragments : Nat)
deriving DecidableEq

/-- The wording of a failure. -/
def Failure.message : Failure → String
  | .scan e => e.message
  | .badLeaf t e => s!"invalid program: {e.message} at {t.place}"
  | .unexpected t _ expected =>
    let place := if t.kind = .endOfInput then "at end of input" else s!"at {t.place}"
    s!"invalid program: unexpected {t.describe} {place}, expected one of "
      ++ "\x7b" ++ String.intercalate ", " expected ++ "\x7d"
  | .unknownSymbol e => e.message
  | .unknownRule e => e.message
  | .build e => e.message
  | .stackUnderflow rule => s!"symbol stack underflow reducing rule {rule}"
  | .noTarget state lhs => s!"GOTO missing for state={state}, lhs={lhs}"
  | .leftOver count => s!"expected one AST fragment at accept, found {count}"

/-- The numbers that the wording of a failure shows, but for counts. The end of the input is shown
without its place. -/
def Failure.numbers : Failure → List Int
  | .scan e => [e.line, e.col]
  | .badLeaf t _ => [t.line, t.col]
  | .unexpected t _ _ => if t.kind = .endOfInput then [] else [t.line, t.col]
  | .unknownRule e => [e.number]
  | .build e => e.numbers
  | .stackUnderflow rule => [rule]
  | .noTarget state _ => [state]
  | .unknownSymbol _ | .leftOver _ => []

/-- The wording of a failure, if its numbers can be written. -/
def Failure.report? (e : Failure) : Option String := Text.report? e.numbers e.message

/-- How a run ends. -/
inductive Verdict where
  | accepted (root : Node)
  | failed (e : Failure)
deriving DecidableEq

/-- The automaton between two steps, but for the token it looks at. Lists have their newest
member first. -/
structure Config (σ : Type) where
  frames : List Frame
  fragments : Fragments
  /-- The rules applied so far. -/
  applied : List Nat
  /-- What has been reported so far. -/
  history : List Event
  source : σ
  /-- The line of the last token. -/
  line : Int
  /-- How many tokens were taken from the source. -/
  pulled : Nat

/-- The end of a run. -/
structure Outcome (σ : Type) where
  verdict : Verdict
  config : Config σ

/-- What a step leads to. -/
inductive Step (σ : Type) where
  | next (c : Config σ) (look : Token)
  | halt (o : Outcome σ)

namespace Config

variable {σ : Type}

/-- The current state. -/
def state (c : Config σ) : Nat := topState c.frames

/-- Report an event. -/
def record (c : Config σ) (e : Event) : Config σ := { c with history := e :: c.history }

/-- Report the stack. -/
def recordStack (c : Config σ) : Config σ := c.record (.stack c.frames)

/-- Stop with a failure. -/
def fail (c : Config σ) (e : Failure) : Step σ := .halt ⟨.failed e, c⟩

/-- The configuration before any token is read. -/
def initial (source : σ) : Config σ := ⟨[], [], [], [], source, 1, 0⟩

/-- Take a token from the source; the leaf of a token that has one goes onto the
fragments. A source that has run dry gives the end of the input. -/
def pull [TokenSource σ] (c : Config σ) : Except Failure Token × Config σ :=
  match TokenSource.next c.source with
  | (.error e, source) => (.error (.scan e), { c with source })
  | (.ok none, source) => (.ok (Token.endAt c.line), { c with source })
  | (.ok (some t), source) =>
    let c := { c with source, line := t.line, pulled := c.pulled + 1 }
    if t.kind.isLeaf then
      match Node.ofToken t with
      | .ok leaf => (.ok t, { c with fragments := leaf :: c.fragments })
      | .error e => (.error (.badLeaf t e), c)
    else (.ok t, c)

/-- The token is not allowed here. -/
def unexpected (t : Table) (c : Config σ) (look : Token) : Step σ :=
  c.fail (.unexpected look c.state (t.expected c.state))

/-- Shift the token, go to a state and take the next token. -/
def shift [TokenSource σ] (c : Config σ) (look : Token) (state : Nat) : Step σ :=
  match ({ c with frames := ⟨look.kind.symbol, state⟩ :: c.frames } : Config σ).pull with
  | (.ok look', c') => .next c'.recordStack look'
  | (.error e, c') => c'.fail e

/-- Replace frames by the left-hand side of a rule and go to its target. A rule of no
frames or of fewer takes none. -/
def goTo (t : Table) (c : Config σ) (look : Token) (number : Nat) (rule : Rule) : Step σ :=
  match below? rule.size.toNat c.frames with
  | none => c.fail (.stackUnderflow number)
  | some below =>
    match t.gotoOf (topState below) rule.lhs with
    | .error e => c.fail (.unknownSymbol e)
    | .ok none => c.fail (.noTarget (topState below) rule.lhs)
    | .ok (some target) =>
      let c : Config σ := { c with frames := ⟨rule.lhs, target⟩ :: below }
      .next (c.record (.reduced number)).recordStack look

/-- Reduce by a rule: build its tree, then replace its frames. -/
def reduce (t : Table) (c : Config σ) (look : Token) (number : Nat) : Step σ :=
  match t.rule number with
  | .error e => c.fail (.unknownRule e)
  | .ok rule =>
    match c.fragments.apply number with
    | (some e, fragments) => { c with fragments }.fail (.build e)
    | (none, fragments) =>
      goTo t { c with fragments, applied := number :: c.applied } look number rule

/-- Accept: all the input has been read, and one tree is left. -/
def accept (t : Table) (c : Config σ) (look : Token) : Step σ :=
  if look.kind = .endOfInput then
    match c.fragments with
    | [root] => .halt ⟨.accepted root, c⟩
    | fragments => c.fail (.leftOver fragments.length)
  else unexpected t c look

/-- One action of the table. -/
def step [TokenSource σ] (t : Table) (c : Config σ) (look : Token) : Step σ :=
  match t.actionOf c.state look.kind.symbol with
  | .error e => c.fail (.unknownSymbol e)
  | .ok (.shift state) => c.shift look state
  | .ok (.reduce number) => reduce t c look number
  | .ok .accept => accept t c look
  | .ok .error => unexpected t c.recordStack look

/-- The first token is read. -/
def launch [TokenSource σ] (source : σ) : Step σ :=
  match (initial source).recordStack.pull with
  | (.ok look, c) => .next c look
  | (.error e, c) => c.fail e

/-- Go on for at most a number of steps; nothing if they are too few. -/
def run [TokenSource σ] (t : Table) : Nat → Config σ → Token → Option (Outcome σ)
  | 0, _, _ => none
  | n + 1, c, look =>
    match step t c look with
    | .next c' look' => run t n c' look'
    | .halt o => some o

/-- Steps that have led to an end lead there too if more are allowed. -/
theorem run_mono [TokenSource σ] {t : Table} {n m : Nat} {c : Config σ} {look : Token}
    {o : Outcome σ} (h : run t n c look = some o) (hnm : n ≤ m) : run t m c look = some o := by
  induction n generalizing m c look with
  | zero => simp [run] at h
  | succ n ih =>
    cases m with
    | zero => omega
    | succ m =>
      rw [run] at h ⊢
      split at h
      · exact ih h (by omega)
      · exact h

end Config

namespace Outcome

variable {σ : Type}

/-- The rules applied, in order. -/
def rules (o : Outcome σ) : List Nat := o.config.applied.reverse

/-- What was reported, in order. -/
def events (o : Outcome σ) : List Event := o.config.history.reverse

/-- What was reported, line by line. -/
def trace (o : Outcome σ) : List String := o.events.map Event.text

end Outcome

namespace Table

variable {σ : Type}

/-- `t.HaltsWith source o`: run over the source, the automaton comes to the end `o`. -/
def HaltsWith [TokenSource σ] (t : Table) (source : σ) (o : Outcome σ) : Prop :=
  match Config.launch source with
  | .next c look => ∃ n, Config.run t n c look = some o
  | .halt o' => o = o'

/-- How many steps are allowed for a token. Rules that take no frames or more than one can
call each other like procedures, so that a table of a few dozen states takes millions of
steps and still comes to an end; no run that is waited for takes as many as these. -/
def stepsPerToken : Nat := 1_000_000_000_000

/-- How many steps are allowed for a source; one more token stands for its end, and one for
the end of the run. -/
def budget [TokenSource σ] (source : σ) : Nat :=
  stepsPerToken * (TokenSource.bound source + 2)

/-- Run the automaton over a source of tokens; nothing if it takes too many steps. -/
def derive? [TokenSource σ] (t : Table) (source : σ) : Option (Outcome σ) :=
  match Config.launch source with
  | .next c look => Config.run t (budget source) c look
  | .halt o => some o

/-- A run that comes to an end in time comes to an end. -/
theorem haltsWith_of_derive? [TokenSource σ] {t : Table} {source : σ} {o : Outcome σ}
    (h : t.derive? source = some o) : t.HaltsWith source o := by
  unfold derive? at h
  unfold HaltsWith
  split at h
  · exact ⟨_, h⟩
  · simpa using h.symm

/-- A run comes to one end only. -/
theorem HaltsWith.unique [TokenSource σ] {t : Table} {source : σ} {o o' : Outcome σ}
    (h : t.HaltsWith source o) (h' : t.HaltsWith source o') : o = o' := by
  unfold HaltsWith at h h'
  cases hl : (Config.launch source : Step σ) with
  | next c look =>
    rw [hl] at h h'
    obtain ⟨n, hn⟩ := h
    obtain ⟨m, hm⟩ := h'
    have h₁ := Config.run_mono hn (Nat.le_max_left n m)
    have h₂ := Config.run_mono hm (Nat.le_max_right n m)
    exact Option.some.inj (h₁.symm.trans h₂)
  | halt e =>
    rw [hl] at h h'
    exact h.trans h'.symm

/-- The texts of the rules, the last applied first: a rightmost derivation. -/
def derivation (t : Table) (rules : List Int) : Except UnknownRule (List String) :=
  rules.reverse.mapM fun number => (t.rule number).map (·.text)

end Table

/-- The numbers of the rules, the last applied first: the derivation where no table is at hand. -/
def numberedDerivation (rules : List Int) : List String := rules.reverse.map toString

end CatAndMouse
