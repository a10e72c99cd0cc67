import CatAndMouse.Automaton
import CatAndMouse.Command.Arguments
import CatAndMouse.Table.Load
import CatAndMouse.Table.Standard
import CatAndMouse.Tree.Printer

/-!
# The commands

`parse` reads a program and prints its tree, `lex` prints its tokens, `check`
reads a table and prints a summary. A command writes texts to the standard
output and to the error output, each ended by a line end, and leaves with 0 or,
after an error that it reports, with 2.

A few errors are not reported: bytes that are no UTF-8, a path with a NUL
character, a number in a table that is too long, a switch whose value is missing,
a tree with too many levels to be printed. They stop the command, and what it has
written by then stays.

Programs are read over classes of characters, `ids`, and printed within `limits`.
-/

namespace CatAndMouse

/-- What a command has written so far. -/
structure Printed where
  out : List String
  err : List String
deriving DecidableEq

namespace Printed

/-- Nothing. -/
def nothing : Printed := ⟨[], []⟩

/-- Write to the standard output. -/
def say (p : Printed) (texts : List String) : Printed := { p with out := p.out ++ texts }

/-- Write to the error output. -/
def warn (p : Printed) (texts : List String) : Printed := { p with err := p.err ++ texts }

/-- Texts, each ended by a line end. -/
def joined (texts : List String) : String := String.join (texts.map (· ++ "\n"))

/-- All of the standard output. -/
def stdout (p : Printed) : String := joined p.out

/-- All of the error output. -/
def stderr (p : Printed) : String := joined p.err

end Printed

/-- An error that stops a command without a report. -/
inductive Crash where
  | file (e : FileError)
  | table (e : LoadError)
  /-- The text of the program is missing. -/
  | noText
  /-- The path of the table is missing. -/
  | noTablePath
  /-- The tree has no outline. -/
  | outline (e : OutlineError)
deriving DecidableEq

/-- The wording of the error. -/
def Crash.message : Crash → String
  | .file e => e.message
  | .table e => e.message
  | .noText => "expected string or buffer"
  | .noTablePath => "expected str, bytes or os.PathLike object, not list"
  | .outline e => e.message

/-- How a command ends. -/
inductive Reply where
  /-- With an exit code. -/
  | exit (code : Nat) (printed : Printed)
  | crash (e : Crash) (printed : Printed)
  /-- The arguments ask for help or are wrong. -/
  | refuse (r : Refusal)
  /-- The table leads the automaton round in circles. -/
  | endless
deriving DecidableEq

namespace Command

/-- The text of the program, from the arguments or from a file. That it is missing shows
only when it is scanned. -/
def readProgram (files : Files) (o : Options) : Except FileError SwitchValue :=
  match o.text with
  | some text => .ok text
  | none => (files.readText (o.input.getD "")).map .given

/-- The table of a command, the standard one unless a file is named. -/
def readTable (files : Files) (o : Options) : Except Crash Table :=
  match o.table with
  | some (.given path) => (Table.load files .standard path).mapError .table
  | some .mark => .error .noTablePath
  | none => .ok .standard

/-- The report on a table that was read. -/
def tableLoaded (o : Options) (t : Table) (p : Printed) : Printed :=
  if o.debug then p.warn [s!"[DEBUG] tables loaded | states={t.states} rules={t.rules.length}"]
  else p

/-- The end of a command that cannot read its program. -/
def fileReply (e : FileError) (p : Printed) : Reply :=
  match e with
  | .unopened _ cause => .exit 2 (p.warn [s!"[ERROR] {cause.title} {e.message}"])
  | e => .crash (.file e) p

/-- The end of a command that cannot read its table. -/
def tableReply (e : Crash) (p : Printed) : Reply :=
  match e with
  | .table cause =>
    if cause.isFormat then .exit 2 (p.warn ["[TABLE ERROR] " ++ cause.message]) else .crash e p
  | e => .crash e p

/-- The report on a failure of the automaton. The text of a program begins at 1:1, and so no place
in it has more digits than can be written. -/
def failureReport : Failure → List String
  | .scan e => ["[LEX ERROR] " ++ e.message]
  | e@(.badLeaf ..) | e@(.unexpected ..) => ["[PARSE ERROR]", e.message]
  | e => ["[TABLE ERROR] " ++ e.message]

/-- The report on a program that was accepted: the derivation if it is asked for, and a word of
success. -/
def successReport (o : Options) (t : Table) (rules : List Nat) : List String :=
  let derivation :=
    if o.rules then ((t.derivation (rules.map Int.ofNat)).toOption.getD []) else []
  derivation ++ ["Parsed successfully!"]

/-- Print the outline of a tree, unless quiet is asked for. -/
def treeReply (limits : Limits) (o : Options) (root : Node) (p : Printed) : Reply :=
  if o.quiet then .exit 0 p
  else
    match root.outline limits 0 with
    | .ok text => .exit 0 (p.say [text])
    | .error e => .crash (.outline e) p

/-- Parse a program with a table that was read. A text that is missing stops the automaton
when it has reported its empty stack. -/
def parseWith (ids : Text.IdentClasses) (limits : Limits) (o : Options) (t : Table) (p : Printed) :
    SwitchValue → Reply
  | .mark => .crash .noText (if o.debug then p.warn [(Event.stack []).text] else p)
  | .given text =>
    match t.derive? (Scanner.ofText ids text) with
    | none => .endless
    | some outcome =>
      let p := if o.debug then p.warn outcome.trace else p
      match outcome.verdict with
      | .accepted root => treeReply limits o root (p.say (successReport o t outcome.rules))
      | .failed e => .exit 2 (p.warn (failureReport e))

/-- Parse a program and print its tree. -/
def runParse (ids : Text.IdentClasses) (limits : Limits) (files : Files) (o : Options) : Reply :=
  match readProgram files o with
  | .error e => fileReply e .nothing
  | .ok program =>
    match readTable files o with
    | .error e => tableReply e .nothing
    | .ok t => parseWith ids limits o t (tableLoaded o t .nothing) program

/-- Text filled up with blanks on the right. -/
def padRight (width : Nat) (s : String) : String :=
  s ++ String.ofList (List.replicate (width - s.length) ' ')

/-- Text filled up on the left. -/
def padLeft (width : Nat) (fill : Char) (s : String) : String :=
  String.ofList (List.replicate (width - s.length) fill) ++ s

/-- A token on a numbered line. -/
def tokenLine (number : Nat) (t : Token) : String :=
  let number := padLeft 3 '0' (toString number)
  let symbol := padRight 12 t.kind.symbol
  s!"{number}: {symbol} {Text.quoted t.text}  @{t.place}"

/-- Print the tokens of a program, up to the first error. -/
def runLex (ids : Text.IdentClasses) (files : Files) (o : Options) : Reply :=
  match readProgram files o with
  | .error e => fileReply e .nothing
  | .ok .mark => .crash .noText .nothing
  | .ok (.given text) =>
    let (tokens, error, _) := (Scanner.ofText ids text).all
    let p := Printed.nothing.say (tokens.zipIdx.map fun (t, n) => tokenLine n t)
    match error with
    | none => .exit 0 p
    | some e => .exit 2 (p.warn (failureReport (.scan e)))

/-- The details of a table: its summary and its rules. -/
def tableDetails (t : Table) : List String :=
  ["\n[Parsing Tables]", String.intercalate "\n" t.describe, "\n[Rules]"]
    ++ t.sortedRules.map fun (n, rule) => "  " ++ padLeft 2 ' ' (toString n) ++ ": " ++ rule.text

/-- Read a table and print how large it is. -/
def runCheck (files : Files) (o : Options) : Reply :=
  match readTable files o with
  | .error e => tableReply e .nothing
  | .ok t =>
    let p := tableLoaded o t .nothing
    let p := if o.debug then p.warn (tableDetails t) else p
    .exit 0 <| p.say
      [s!"[CHECK OK] states={t.states} rules={t.rules.length} "
        ++ s!"actions={t.actionEntries.length} gotos={t.gotoEntries.length}"]

/-- Run a command. -/
def run (ids : Text.IdentClasses) (limits : Limits) (files : Files) (o : Options) : Command → Reply
  | .parse => runParse ids limits files o
  | .lex => runLex ids files o
  | .check => runCheck files o

/-- Run the command that the arguments ask for. -/
def runArguments (ids : Text.IdentClasses) (limits : Limits) (files : Files) (args : List String) :
    Reply :=
  match Command.ofArguments [] args with
  | .ok (c, o) => c.run ids limits files o
  | .error r => .refuse r

end Command

end CatAndMouse
