import CatAndMouse.Command

/-!
# The program `mcc`

The outer layer: files are read from disk, and what a command has written is
printed. All that a command does is decided by `Command.runArguments`.

Some definitions of the library are for callers other than the commands: the
names of kinds and of symbols by number (`Kind.isHeading`, `Symbols.nameAt`),
single characters (`IdentClasses.isContinueText`), lines of a text at any offset
(`Text.checkedSnippet`), the detailed forms of tokens and trees, the body of a
tree (`Node.body?`), and derivations without a table (`numberedDerivation`).

Left out are the help of each command, texts that hold half of a surrogate pair,
and what the place to run in limits, but for `Limits`, `Text.indexBound` and
`Text.digitLimit`: there is room for all other texts, and trees of any height
are read, built and compared.
-/

namespace CatAndMouse

/-- What is found on disk under a plain path. -/
def openFile (path : String) : IO (Except OpenError (List UInt8)) := do
  try
    let bytes ← IO.FS.readBinFile path
    pure (.ok bytes.toList)
  catch
    | .noFileOrDirectory .. => pure (.error .missing)
    | .inappropriateType _ code _ =>
      pure (.error (if code = 21 ∨ code = 0 - 21 then .isDirectory else .notDirectory))
    | .invalidArgument .. => pure (.error .nameTooLong)
    | e => throw e

/-- The files that the arguments name. -/
def namedFiles (args : List String) : IO Files := do
  let paths : List String :=
    match Command.ofArguments [] args with
    | .ok (_, o) => o.paths.filter fun path => !path.toList.contains '\x00'
    | .error _ => []
  let found ← paths.mapM fun path => do
    pure (plainPath path, ← openFile (plainPath path))
  pure ⟨fun path => (found.lookup path).getD (.error .missing)⟩

/-- Limits that no program of a reasonable size comes near. -/
def Limits.ample : Limits := ⟨100_000_000_000, 100_000_000_000⟩

/-- A reminder of the commands. -/
def helpText : String :=
  "usage: mcc [-h] COMMAND ...\n\n"
    ++ "  parse (FILE | --text TEXT) [--table FILE] [--rules] [-q] [-D]  print the tree\n"
    ++ "  lex (FILE | --text TEXT)                                       print the tokens\n"
    ++ "  check [--table FILE] [-D]                                      check a table\n"

/-- Print what a command has written. -/
def printAll (p : Printed) : IO Unit := do
  (← IO.getStdout).putStr p.stdout
  (← IO.getStderr).putStr p.stderr

end CatAndMouse

open CatAndMouse

/-- Run the command that the arguments ask for. -/
def main (args : List String) : IO UInt32 := do
  match Command.runArguments .unicode14 .ample (← namedFiles args) args with
  | .exit code p => do
    printAll p
    pure (UInt32.ofNat code)
  | .crash e p => do
    printAll p
    IO.eprintln e.message
    pure 1
  | .refuse .help => do
    IO.print helpText
    pure 0
  | .refuse (.usage c e) => do
    IO.eprintln (usageMessage c e)
    pure 2
  | .endless => do
    IO.eprintln "the table goes round in circles"
    pure 1
