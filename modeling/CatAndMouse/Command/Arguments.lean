import CatAndMouse.Text.Digit
import CatAndMouse.Text.Quoted
import CatAndMouse.Text.Split

/-!
# Command-line arguments

`mcc` has three commands, each with its switches. `parse` and `lex` take a
program, either from a file or with `--text`.

An argument that begins with a hyphen is a switch. A long switch may be cut
short as long as one switch alone begins so, and may have its value after an
equals sign. Short switches may be joined, with an equals sign after the first
or without. After `--` no argument is a switch. Unknown switches and superfluous
arguments are collected and reported at the end, after all other errors.
-/

namespace CatAndMouse

/-- The switches. -/
inductive Switch where
  | help | text | table | rules | quiet | debug
deriving DecidableEq

namespace Switch

/-- The ways to write a switch. -/
def spellings : Switch → List String
  | .help => ["-h", "--help"]
  | .text => ["--text"]
  | .table => ["--table"]
  | .rules => ["--rules"]
  | .quiet => ["-q", "--quiet"]
  | .debug => ["-D", "--debug"]

/-- The switches that have a value. -/
def takesValue : Switch → Bool
  | .text | .table => true
  | _ => false

/-- The switch in a message. -/
def title (s : Switch) : String := String.intercalate "/" s.spellings

end Switch

/-- The commands. -/
inductive Command where
  | parse | lex | check
deriving DecidableEq

namespace Command

/-- All commands, in the order in which they are listed. -/
def all : List Command := [.parse, .lex, .check]

/-- The word for the command. -/
def word : Command → String
  | .parse => "parse"
  | .lex => "lex"
  | .check => "check"

/-- The switches of the command, in the order in which they are listed. -/
def switches : Command → List Switch
  | .parse => [.help, .text, .table, .rules, .quiet, .debug]
  | .lex => [.help, .text]
  | .check => [.help, .table, .debug]

/-- The commands that take a program. -/
def takesProgram : Command → Bool
  | .check => false
  | _ => true

end Command

/-- The value of a switch. -/
inductive SwitchValue where
  | given (value : String)
  /-- The mark `--` after an equals sign: the switch is there and its value is missing. -/
  | mark
deriving DecidableEq

namespace SwitchValue

/-- The value that is attached to a switch by an equals sign. -/
def ofAttached (cs : List Char) : SwitchValue :=
  if cs = ['-', '-'] then .mark else .given (String.ofList cs)

/-- The value, if it is not missing. -/
def given? : SwitchValue → Option String
  | .given value => some value
  | .mark => none

end SwitchValue

/-- What the arguments of a command say. -/
structure Options where
  input : Option String
  text : Option SwitchValue
  table : Option SwitchValue
  rules : Bool
  quiet : Bool
  debug : Bool
deriving DecidableEq

/-- No arguments. -/
def Options.empty : Options := ⟨none, none, none, false, false, false⟩

/-- The paths that the options name. -/
def Options.paths (o : Options) : List String :=
  o.input.toList ++ (o.table.bind SwitchValue.given?).toList

/-! ### Errors -/

/-- What is wrong with the arguments. -/
inductive UsageError where
  | noCommand
  | badCommand (word : String)
  /-- More than one switch begins so. -/
  | ambiguous (arg : String) (spellings : List String)
  /-- A value for a switch that has none. -/
  | uselessValue (s : Switch) (value : String)
  /-- No value for a switch that has one. -/
  | missingValue (s : Switch)
  /-- The program comes from two places; the first place was named before. -/
  | conflict (second first : String)
  | noProgram
  | unrecognized (args : List String)
deriving DecidableEq

/-- The place of a program that is an argument of its own. -/
def inputTitle : String := "input"

/-- The wording of the error. -/
def UsageError.message : UsageError → String
  | .noCommand => "the following arguments are required: cmd"
  | .badCommand word =>
    let words := String.intercalate ", " (Command.all.map fun c => Text.quoted c.word)
    s!"argument cmd: invalid choice: {Text.quoted word} (choose from {words})"
  | .ambiguous arg spellings =>
    s!"ambiguous option: {arg} could match " ++ String.intercalate ", " spellings
  | .uselessValue s value => s!"argument {s.title}: ignored explicit argument {Text.quoted value}"
  | .missingValue s => s!"argument {s.title}: expected one argument"
  | .conflict second first => s!"argument {second}: not allowed with argument {first}"
  | .noProgram => s!"one of the arguments {inputTitle} {Switch.text.title} is required"
  | .unrecognized args => "unrecognized arguments: " ++ String.intercalate " " args

/-- Why no command is run. -/
inductive Refusal where
  /-- Help was asked for. -/
  | help
  /-- The arguments are wrong; those of a command, if there is one. -/
  | usage (command : Option Command) (e : UsageError)
deriving DecidableEq

/-- The wording of a usage error: which command, and what is wrong. -/
def usageMessage (command : Option Command) (e : UsageError) : String :=
  match command with
  | none => s!"mcc: error: {e.message}"
  | some c => s!"mcc {c.word}: error: {e.message}"

/-! ### One argument -/

/-- What an argument is, by its looks. -/
inductive Item where
  | operand (arg : String)
  /-- A switch, written in one letter or not, with what is attached to it: the value after an
  equals sign, or what follows the letter. -/
  | switch (s : Switch) (short : Bool) (attached : Option (List Char))
  /-- It looks like a switch and is none. -/
  | stray (arg : String)
deriving DecidableEq

namespace Item

/-- The ways to write the given switches. -/
def table (known : List Switch) : List (List Char × Switch) :=
  known.flatMap fun s => s.spellings.map fun w => (w.toList, s)

/-- A switch written in one letter. -/
def isShort (spelling : List Char) : Bool := not (['-', '-'].isPrefixOf spelling)

/-- A number with a minus sign: digits, or a point among or before digits. A line end may
follow. -/
def isNegativeNumber (cs : List Char) : Bool :=
  let cs := if cs.getLast? = some '\n' then cs.dropLast else cs
  let isDigit (c : Char) := (Text.digitValue? c).isSome
  match cs with
  | '-' :: number =>
    match number.dropWhile isDigit with
    | [] => !number.isEmpty
    | '.' :: fraction => !fraction.isEmpty && fraction.all isDigit
    | _ => false
  | _ => false

/-- The switches that an argument may stand for, with the spelling and the attached value: a
long switch cut short, or a short one followed by something. -/
def candidates (known : List Switch) (cs : List Char) :
    List (List Char × Switch × Option (List Char)) :=
  if isShort cs then
    (table known).filterMap fun (w, s) =>
      if w = cs.take 2 then some (w, s, some (cs.drop 2)) else none
  else
    let (start, attached) : List Char × Option (List Char) :=
      match Text.breakAt? ['='] cs with
      | some (start, value) => (start, some value)
      | none => (cs, none)
    (table known).filterMap fun (w, s) =>
      if start.isPrefixOf w then some (w, s, attached) else none

/-- What an argument is, where the given switches are known. -/
def ofArgument (known : List Switch) (arg : String) : Except UsageError Item :=
  let cs := arg.toList
  if cs.head? ≠ some '-' then .ok (.operand arg)
  else
    match (table known).lookup cs with
    | some s => .ok (.switch s (isShort cs) none)
    | none =>
      if cs.length = 1 then .ok (.operand arg)
      else
        let marked := do
          let (start, value) ← Text.breakAt? ['='] cs
          let s ← (table known).lookup start
          pure (Item.switch s (isShort start) (some value))
        match marked with
        | some item => .ok item
        | none =>
          match candidates known cs with
          | [(w, s, attached)] => .ok (.switch s (isShort w) attached)
          | _ :: _ :: _ =>
            .error (.ambiguous arg ((candidates known cs).map fun (w, _) => String.ofList w))
          | [] =>
            if isNegativeNumber cs || cs.contains ' ' then .ok (.operand arg) else .ok (.stray arg)

/-- The switches joined in one argument, which begins with the short switch `s` and goes on
with the letters `cs`. Every letter has to be a switch; the last one that is takes the rest
for a value, and has none. -/
def joined (known : List Switch) (s : Switch) (cs : List Char) :
    Except UsageError (List Switch) :=
  match cs with
  | [] => .error (.uselessValue s "")
  | c :: rest =>
    match (table known).lookup ['-', c], rest with
    | none, _ => .error (.uselessValue s (String.ofList cs))
    | some s', [] => .ok [s, s']
    | some s', d :: ds => (joined known s' (d :: ds)).map (s :: ·)

end Item

/-! ### All arguments of a command -/

namespace Options

/-- Switch on what has no value; help ends everything. -/
def turnOn (o : Options) : List Switch → Except Refusal Options
  | [] => .ok o
  | .help :: _ => .error .help
  | .rules :: rest => turnOn { o with rules := true } rest
  | .quiet :: rest => turnOn { o with quiet := true } rest
  | .debug :: rest => turnOn { o with debug := true } rest
  | _ :: rest => turnOn o rest

/-- Set the value of a switch. The program cannot come from two places. -/
def setValue (o : Options) (s : Switch) (value : SwitchValue) : Except UsageError Options :=
  match s with
  | .text =>
    if o.input.isSome then .error (.conflict Switch.text.title inputTitle)
    else .ok { o with text := some value }
  | .table => .ok { o with table := some value }
  | _ => .ok o

/-- Set the file of the program, which cannot come from two places. -/
def setInput (o : Options) (path : String) : Except UsageError Options :=
  if o.text.isSome then .error (.conflict inputTitle Switch.text.title)
  else .ok { o with input := some path }

/-- The options after a switch of a command with what is attached to it. -/
def apply (c : Command) (o : Options) (s : Switch) (short : Bool) (attached : List Char) :
    Except Refusal Options :=
  if s.takesValue then (o.setValue s (.ofAttached attached)).mapError (.usage (some c))
  else if short then
    match Item.joined c.switches s attached with
    | .ok ss => o.turnOn ss
    | .error e => .error (.usage (some c) e)
  else .error (.usage (some c) (.uselessValue s (String.ofList attached)))

/-- An argument that is no switch: the program if there is room for one, else it is
superfluous. -/
def addOperand (c : Command) (o : Options) (extras : List String) (arg : String) :
    Except Refusal (Options × List String) :=
  if c.takesProgram && o.input.isNone then
    match o.setInput arg with
    | .ok o => .ok (o, extras)
    | .error e => .error (.usage (some c) e)
  else .ok (o, extras ++ [arg])

/-- The operands after the last switch, and those after `--` if that is there. The mark `--`
itself is superfluous unless it stands next to the program. -/
def addLast (c : Command) (o : Options) (extras operands : List String)
    (marked : Option (List String)) : Except Refusal (Options × List String) :=
  match c.takesProgram && o.input.isNone, operands, marked with
  | true, [], none => .ok (o, extras)
  | true, [], some [] => .ok (o, extras)
  | true, [], some (arg :: rest) => do
    let (o, extras) ← addOperand c o extras arg
    pure (o, extras ++ rest)
  | true, [arg], some rest => do
    let (o, extras) ← addOperand c o extras arg
    pure (o, extras ++ rest)
  | true, arg :: args, marked => do
    let (o, extras) ← addOperand c o extras arg
    pure (o, extras ++ args ++ (marked.map ("--" :: ·)).getD [])
  | false, args, marked => .ok (o, extras ++ args ++ (marked.map ("--" :: ·)).getD [])

/-- The item is no switch. -/
def operand? : Item → Option String
  | .operand arg => some arg
  | _ => none

/-- Take the items of a command one by one, and at last the arguments after `--`. -/
def consume (c : Command) (o : Options) (extras : List String) (marked : Option (List String)) :
    List Item → Except Refusal (Options × List String)
  | [] => addLast c o extras [] marked
  | .stray arg :: items => consume c o (extras ++ [arg]) marked items
  | .operand arg :: items =>
    match items.mapM operand? with
    | some args => addLast c o extras (arg :: args) marked
    | none =>
      match addOperand c o extras arg with
      | .ok (o, extras) => consume c o extras marked items
      | .error e => .error e
  | .switch s short (some attached) :: items =>
    match apply c o s short attached with
    | .ok o => consume c o extras marked items
    | .error e => .error e
  | .switch s _ none :: items =>
    if s.takesValue then
      match items with
      | .operand value :: items =>
        match o.setValue s (.given value) with
        | .ok o => consume c o extras marked items
        | .error e => .error (.usage (some c) e)
      | _ => .error (.usage (some c) (.missingValue s))
    else
      match o.turnOn [s] with
      | .ok o => consume c o extras marked items
      | .error e => .error e

/-- The arguments before the first `--`, and those after it. -/
def cutAtMark : List String → List String × Option (List String)
  | [] => ([], none)
  | arg :: args =>
    if arg = "--" then ([], some args)
    else
      let (before, after) := cutAtMark args
      (arg :: before, after)

/-- The options of a command, and the superfluous arguments. -/
def ofArguments (c : Command) (args : List String) : Except Refusal (Options × List String) :=
  let (before, marked) := cutAtMark args
  match before.mapM (Item.ofArgument c.switches) with
  | .error e => .error (.usage (some c) e)
  | .ok items => do
    let (o, extras) ← consume c empty [] marked items
    if c.takesProgram && o.input.isNone && o.text.isNone then
      .error (.usage (some c) .noProgram)
    else pure (o, extras)

end Options

/-- The command and its options, after the superfluous arguments in front of it. -/
def Command.ofArguments (extras : List String) :
    List String → Except Refusal (Command × Options)
  | [] => .error (.usage none .noCommand)
  | arg :: args =>
    if arg = "--" then
      .error (.usage none (if args.isEmpty then .noCommand else .badCommand arg))
    else
      match Item.ofArgument [.help] arg with
      | .error e => .error (.usage none e)
      | .ok (.stray arg) => ofArguments (extras ++ [arg]) args
      | .ok (.switch s short (some attached)) =>
        if short then
          match Item.joined [.help] s attached with
          | .ok _ => .error .help
          | .error e => .error (.usage none e)
        else .error (.usage none (.uselessValue s (String.ofList attached)))
      | .ok (.switch _ _ none) => .error .help
      | .ok (.operand word) =>
        match Command.all.find? (·.word = word) with
        | none => .error (.usage none (.badCommand word))
        | some c => do
          let (o, more) ← Options.ofArguments c args
          if (extras ++ more).isEmpty then pure (c, o)
          else .error (.usage none (.unrecognized (extras ++ more)))

end CatAndMouse
