import CatAndMouse.Command
import CatAndMouse.Proofs.FirstError
import CatAndMouse.Proofs.Tree.Outline

/-!
# What the commands say

`parse` takes the tokens of a program as the automaton asks for them, and `lex` takes all of
them. An error of the scanner that `parse` meets is the one that `lex` comes to, for both begin
with the same tokens; but `parse` may have failed before it (`exists_derive?_of_all`).

With the standard table no error is a fault of the table. So all that can come of `parse` is a
derivation and an outline, an error of the scanner, or an error of the program, and what is
written says which (`commands_agree`). This is proved of the options that a command runs with
(`Command.run_agree`), and of the arguments too, among which any text can be given but the mark
`--` (`Command.runArguments_text`).

The outline comes last. If the limits do not allow it, `parse` stops in front of it, when the
word of success has been written; and some program is too deep for any limits
(`not_exists_limits_exit`).
-/

namespace CatAndMouse

open Text

variable {ids : IdentClasses}

/-! ### Rules that are shown -/

theorem Kind.lineEnd_not_mem_symbol (k : Kind) : '\n' ∉ k.symbol.toList := by
  cases k with
  | heading h => cases h <;> decide
  | _ => decide

theorem Phrase.lineEnd_not_mem_symbol (p : Phrase) : '\n' ∉ p.symbol.toList := by
  cases p <;> decide

theorem PhraseRule.lineEnd_not_mem_text (r : PhraseRule) : '\n' ∉ r.production.text.toList := by
  have hwords : '\n' ∉ (String.intercalate " " (r.parts.map Part.symbol)).toList := by
    refine not_mem_intercalate (by decide) fun y hy => ?_
    obtain ⟨x, -, rfl⟩ := List.mem_map.1 hy
    cases x with
    | token k => exact k.lineEnd_not_mem_symbol
    | phrase p => exact p.lineEnd_not_mem_symbol
  rw [Production.text, String.toList_append, String.toList_append, List.mem_append,
    List.mem_append, not_or, not_or]
  exact ⟨⟨r.phrase.lineEnd_not_mem_symbol, by decide⟩, hwords⟩

/-- The rules of a text that is accepted can be shown, each in a line. -/
theorem exists_derivation {text : String} {o : Outcome (Scanner ids)} {root : Node}
    (ho : Table.standard.HaltsWith (Scanner.ofText ids text) o) (hv : o.verdict = .accepted root) :
    ∃ lines, Table.standard.derivation (o.rules.map Int.ofNat) = .ok lines ∧
      ∀ l ∈ lines, '\n' ∉ l.toList := by
  obtain ⟨ts, -, hparse⟩ := Scanner.exists_parses_of_accepted ho hv
  obtain ⟨ps, hps, -⟩ := hparse.rightmost
  rw [List.map_reverse] at hps
  refine ⟨_, derivation_eq hps, fun l hl => ?_⟩
  obtain ⟨p, hp, rfl⟩ := List.mem_map.1 hl
  obtain ⟨n, hn⟩ := exists_of_forall₂ hps.flip p hp
  obtain ⟨r, -, -, rfl⟩ := mem_standardProductions_iff.1 hn
  exact r.lineEnd_not_mem_text

/-! ### Lines that are written -/

theorem joined_cons (text : String) (texts : List String) :
    Printed.joined (text :: texts) = text ++ String.singleton '\n' ++ Printed.joined texts := by
  rw [Printed.joined, List.map_cons, String.join_cons]
  rfl

/-- What is written are the lines of the texts, and nothing after them. -/
theorem pieces_joined (texts : List String) :
    pieces '\n' (Printed.joined texts) = texts.flatMap (pieces '\n') ++ [""] := by
  induction texts with
  | nil => rfl
  | cons text texts ih =>
    rw [joined_cons, pieces_append, ih, List.flatMap_cons, List.append_assoc]

theorem flatMap_pieces {texts : List String} (h : ∀ x ∈ texts, '\n' ∉ x.toList) :
    texts.flatMap (pieces '\n') = texts := by
  induction texts with
  | nil => rfl
  | cons text texts ih =>
    rw [List.flatMap_cons, pieces_of_not_mem (h text List.mem_cons_self),
      ih fun x hx => h x (List.mem_cons_of_mem _ hx), List.singleton_append]

theorem Command.lineEnd_not_mem_tokenLine (n : Nat) (t : Token) :
    '\n' ∉ (Command.tokenLine n t).toList := by
  have hfill : ∀ (c : Char) (k : Nat), c ≠ '\n' → '\n' ∉ List.replicate k c := fun c k hc hmem =>
    hc (List.eq_of_mem_replicate hmem).symm
  have hnumber : '\n' ∉ (Command.padLeft 3 '0' (toString n)).toList := by
    rw [Command.padLeft, String.toList_append, String.toList_ofList, List.mem_append, not_or]
    exact ⟨hfill _ _ (by decide), lineEnd_not_mem_toString_nat n⟩
  have hsymbol : '\n' ∉ (Command.padRight 12 t.kind.symbol).toList := by
    rw [Command.padRight, String.toList_append, String.toList_ofList, List.mem_append, not_or]
    exact ⟨t.kind.lineEnd_not_mem_symbol, hfill _ _ (by decide)⟩
  have hplace : '\n' ∉ t.place.toList := by
    have hsplit : t.place = toString t.line ++ ":" ++ toString t.col := rfl
    simp only [hsplit, String.toList_append, List.mem_append, not_or]
    exact ⟨⟨lineEnd_not_mem_toString _, by decide⟩, lineEnd_not_mem_toString _⟩
  have hsplit : Command.tokenLine n t = Command.padLeft 3 '0' (toString n) ++ ": " ++
      Command.padRight 12 t.kind.symbol ++ " " ++ quoted t.text ++ "  @" ++ t.place := rfl
  simp only [hsplit, String.toList_append, List.mem_append, not_or]
  exact ⟨⟨⟨⟨⟨⟨hnumber, by decide⟩, hsymbol⟩, by decide⟩, lineEnd_not_mem_quoted _⟩, by decide⟩,
    hplace⟩

/-! ### The tree -/

/-- The limits let a tree be printed. -/
structure Limits.Allow (limits : Limits) (a : Node) : Prop where
  levels : a.height < limits.levels
  index : 2 * (a.height : Int) < indexBound
  room : 2 * a.height ≤ limits.room

/-- A tree whose numbers can be written is printed if the limits allow it. -/
theorem Limits.exists_outline_iff {limits : Limits} {a : Node} (ha : a.IsWritable) :
    (∃ outline, a.outline limits 0 = .ok outline) ↔ limits.Allow a := by
  refine (Node.exists_outline_iff (k := 0)).trans ?_
  simp only [Int.natCast_zero, Int.zero_add, Nat.zero_add]
  exact ⟨fun ⟨_, hlevels, hindex, hroom⟩ => ⟨hlevels, hindex, hroom⟩,
    fun h => ⟨ha, h.levels, h.index, h.room⟩⟩

/-- The lines go to the standard output, and the texts to the error output. -/
structure Printed.Shows (p : Printed) (lines errors : List String) : Prop where
  out : pieces '\n' p.stdout = lines ++ [""]
  err : p.err = errors

namespace Command

variable {limits : Limits} {o : Options}

/-- What `parse` writes in front of the tree. -/
def successLines (rules : Bool) (derivation : List String) : List String :=
  (if rules then derivation else []) ++ ["Parsed successfully!"]

/-- How `parse` ends with a tree, after some lines. All is well if quiet is asked for, or if the
limits allow the outline. Otherwise the command stops without a report. -/
structure EndsWithTree (limits : Limits) (quiet : Bool) (lines : List String) (root : Node)
    (reply : Reply) : Prop where
  silent : quiet = true → ∃ p, reply = .exit 0 p ∧ p.Shows lines []
  printed : quiet = false → limits.Allow root → ∃ p outline, root.outline limits 0 = .ok outline ∧
    reply = .exit 0 p ∧ p.Shows (lines ++ pieces '\n' outline) []
  stopped : quiet = false → ¬ limits.Allow root → ∃ p e, root.outline limits 0 = .error e ∧
    reply = .crash (.outline e) p ∧ p.Shows lines []

theorem flatMap_successReport {t : Table} {rules : List Nat} {lines : List String}
    (hlines : t.derivation (rules.map Int.ofNat) = .ok lines)
    (hone : ∀ l ∈ lines, '\n' ∉ l.toList) :
    (successReport o t rules).flatMap (pieces '\n') = successLines o.rules lines := by
  have hall : ∀ l ∈ successLines o.rules lines, '\n' ∉ l.toList := by
    intro l hl
    rcases List.mem_append.1 hl with hl | hl
    · split at hl
      · exact hone l hl
      · cases hl
    · rw [List.mem_singleton.1 hl]
      decide
  rw [successReport, hlines]
  exact flatMap_pieces hall

/-- The tree is printed after the report, or nothing is. -/
theorem treeReply_ends {t : Table} {rules : List Nat} {lines : List String} {root : Node}
    (hlines : t.derivation (rules.map Int.ofNat) = .ok lines)
    (hone : ∀ l ∈ lines, '\n' ∉ l.toList) (hroot : root.IsWritable) :
    EndsWithTree limits o.quiet (successLines o.rules lines) root
      (treeReply limits o root ⟨successReport o t rules, []⟩) := by
  have hreport := flatMap_successReport (o := o) hlines hone
  have hshows : Printed.Shows ⟨successReport o t rules, []⟩ (successLines o.rules lines) [] :=
    ⟨by rw [Printed.stdout, pieces_joined, hreport], rfl⟩
  constructor
  · intro hquiet
    exact ⟨_, if_pos hquiet, hshows⟩
  · intro hquiet hallow
    obtain ⟨outline, houtline⟩ := (Limits.exists_outline_iff hroot).2 hallow
    refine ⟨⟨successReport o t rules ++ [outline], []⟩, outline, houtline, ?_, ?_, rfl⟩
    · simp [treeReply, hquiet, houtline, Printed.say]
    · rw [Printed.stdout, pieces_joined, List.flatMap_append, hreport, List.flatMap_singleton]
  · intro hquiet hnot
    cases houtline : root.outline limits 0 with
    | ok outline => exact absurd ((Limits.exists_outline_iff hroot).1 ⟨_, houtline⟩) hnot
    | error e => exact ⟨_, e, rfl, by simp [treeReply, hquiet, houtline], hshows⟩

/-! ### The commands -/

/-- The replies of `parse` and `lex` to a text agree with each other, and with the outcome of a
run and the tokens of the text. -/
def Agree (ids : IdentClasses) (limits : Limits) (text : String) (rules quiet : Bool)
    (parse lex : Reply) : Prop :=
  ∃ (outcome : Outcome (Scanner ids)) (ts : List Token) (e? : Option ScanError)
    (last : Scanner ids),
    Table.standard.derive? (Scanner.ofText ids text) = some outcome ∧
    (Scanner.ofText ids text).all = (ts, e?, last) ∧
    (match outcome.verdict with
    | .accepted root => e? = none ∧ ∃ lines,
        Table.standard.derivation (outcome.rules.map Int.ofNat) = .ok lines ∧
        EndsWithTree limits quiet (successLines rules lines) root parse
    | .failed (.scan e) => e? = some e ∧ parse = .exit 2 ⟨[], ["[LEX ERROR] " ++ e.message]⟩ ∧
        (1 + text.length < writeBound → e.isLexError = true)
    | .failed e => e.isRefusal = true ∧ parse = .exit 2 ⟨[], ["[PARSE ERROR]", e.message]⟩ ∧
        (1 + text.length < writeBound → e.isParseError = true)) ∧
    ∃ p, lex = .exit (if e? = none then 0 else 2) p ∧
      p.Shows (ts.zipIdx.map fun (t, n) => tokenLine n t)
        (e?.map fun e => "[LEX ERROR] " ++ e.message).toList

section Run

variable (files : Files) {text : String}

theorem run_parse (limits : Limits) (htext : o.text = some (.given text)) (htable : o.table = none)
    (hdebug : o.debug = false) {outcome : Outcome (Scanner ids)}
    (houtcome : Table.standard.derive? (Scanner.ofText ids text) = some outcome) :
    run ids limits files o .parse =
      match outcome.verdict with
      | .accepted root => treeReply limits o root ⟨successReport o .standard outcome.rules, []⟩
      | .failed e => .exit 2 ⟨[], failureReport e⟩ := by
  simp only [run, runParse, readProgram, htext, readTable, htable, parseWith, houtcome, tableLoaded,
    hdebug]
  cases outcome.verdict <;> rfl

theorem run_lex (htext : o.text = some (.given text)) {ts : List Token}
    {e? : Option ScanError} {last : Scanner ids}
    (hall : (Scanner.ofText ids text).all = (ts, e?, last)) :
    run ids limits files o .lex = .exit (if e? = none then 0 else 2)
      ⟨ts.zipIdx.map fun (t, n) => tokenLine n t,
        (e?.map fun e => "[LEX ERROR] " ++ e.message).toList⟩ := by
  simp only [run, runLex, readProgram, htext, hall]
  cases e? <;> rfl

/-- The commands agree if neither a table nor debugging is asked for, whatever else is. -/
theorem run_agree {o' : Options} (htext : o.text = some (.given text)) (htable : o.table = none)
    (hdebug : o.debug = false) (htext' : o'.text = some (.given text)) :
    Agree ids limits text o.rules o.quiet (run ids limits files o .parse)
      (run ids limits files o' .lex) := by
  rcases hall : (Scanner.ofText ids text).all with ⟨ts, e?, last⟩
  obtain ⟨outcome, houtcome, hends⟩ := exists_derive?_of_all hall
  have hparse := run_parse files limits htext htable hdebug houtcome
  refine ⟨outcome, ts, e?, last, houtcome, hall, ?_, _, run_lex files htext' hall, ?_, rfl⟩
  · rcases hends with ⟨root, hv, he⟩ | ⟨e, hv, he⟩ | ⟨e, t, hv, he, ht⟩
    · have hhalts := Table.haltsWith_of_derive? houtcome
      obtain ⟨lines, hlines, hone⟩ := exists_derivation hhalts hv
      simp only [hv] at hparse ⊢
      rw [hparse]
      exact ⟨he, lines, hlines, treeReply_ends hlines hone (isProgram_of_accepted hhalts hv).2⟩
    · simp only [hv] at hparse ⊢
      exact ⟨he, hparse, fun hlength => (Scanner.writable_of_all hall hlength).2 e he⟩
    · have herror : 1 + text.length < writeBound → e.isParseError = true := fun hlength =>
        he.isParseError ht (Scanner.writable_of_all hall hlength).1
      have hrefusal := he.isRefusal
      cases e with
      | badLeaf | unexpected =>
        simp only [hv] at hparse ⊢
        exact ⟨hrefusal, hparse, herror⟩
      | _ => cases hrefusal
  · rw [Printed.stdout, pieces_joined, flatMap_pieces]
    intro x hx
    obtain ⟨⟨t, n⟩, -, rfl⟩ := List.mem_map.1 hx
    exact lineEnd_not_mem_tokenLine n t

end Run

end Command

/-! ### From the arguments -/

theorem toList_textArgument (text : String) :
    ("--text=" ++ text).toList = '-' :: '-' :: 't' :: 'e' :: 'x' :: 't' :: '=' :: text.toList := by
  rw [String.toList_append]
  rfl

theorem Item.ofArgument_text {c : Command} (hc : c.takesProgram = true) (text : String) :
    ofArgument c.switches ("--text=" ++ text) = .ok (.switch .text false (some text.toList)) := by
  rw [ofArgument, toList_textArgument]
  cases c with
  | parse => rfl
  | lex => rfl
  | check => cases hc

theorem SwitchValue.ofAttached_toList {text : String} (h : text ≠ "--") :
    ofAttached text.toList = .given text := by
  have hne : text.toList ≠ ['-', '-'] := fun heq => h (String.toList_inj.1 heq)
  rw [ofAttached, if_neg hne, String.ofList_toList]

/-- A text is set before the switches that follow it. -/
theorem Options.ofArguments_text {c : Command} (hc : c.takesProgram = true) {text : String}
    {switches : List String} {items : List Item} {o : Options}
    (hcut : cutAtMark switches = (switches, none))
    (hitems : switches.mapM (Item.ofArgument c.switches) = .ok items)
    (ho : consume c { empty with text := some (.ofAttached text.toList) } [] none items =
      .ok (o, []))
    (htext : o.text = some (.ofAttached text.toList)) :
    ofArguments c (("--text=" ++ text) :: switches) = .ok (o, []) := by
  have hmark : "--text=" ++ text ≠ "--" := by
    intro heq
    have hlist := congrArg String.toList heq
    rw [toList_textArgument] at hlist
    cases hlist
  have hcutAll : cutAtMark (("--text=" ++ text) :: switches) =
      (("--text=" ++ text) :: switches, none) := by
    rw [cutAtMark, if_neg hmark, hcut]
  have hitemsAll : (("--text=" ++ text) :: switches).mapM (Item.ofArgument c.switches) =
      .ok (.switch .text false (some text.toList) :: items) := by
    rw [List.mapM_cons, Item.ofArgument_text hc, hitems]
    rfl
  have hconsume : consume c empty [] none (.switch .text false (some text.toList) :: items) =
      .ok (o, []) := by
    have happly : apply c empty .text false text.toList =
        .ok { empty with text := some (.ofAttached text.toList) } := rfl
    rw [consume, happly]
    exact ho
  have hsome : (c.takesProgram && o.input.isNone && o.text.isNone) = false := by
    rw [htext, Option.isNone_some, Bool.and_false]
  simp only [ofArguments, hcutAll, hitemsAll, hconsume]
  exact if_neg (by simp [hsome])

theorem Command.runArguments_word (limits : Limits) (files : Files) {c : Command}
    {args : List String} {o : Options} (h : Options.ofArguments c args = .ok (o, [])) :
    runArguments ids limits files (c.word :: args) = run ids limits files o c := by
  have hmark : c.word ≠ "--" := by cases c <;> decide
  have hoperand : Item.ofArgument [.help] c.word = .ok (.operand c.word) := by cases c <;> rfl
  have hfind : all.find? (fun c' => c'.word = c.word) = some c := by cases c <;> rfl
  have hcommand : ofArguments [] (c.word :: args) = .ok (c, o) := by
    rw [ofArguments, if_neg hmark, hoperand]
    simp only [hfind, h]
    rfl
  rw [runArguments, hcommand]

/-- The switches for what `parse` writes. -/
def reportSwitches (rules quiet : Bool) : List String :=
  (if rules then ["--rules"] else []) ++ (if quiet then ["--quiet"] else [])

/-- The commands are run with what is given after an equals sign. -/
theorem Command.runArguments_text (ids : IdentClasses) (limits : Limits) (files : Files)
    (text : String) (rules quiet : Bool) :
    runArguments ids limits files ("parse" :: ("--text=" ++ text) :: reportSwitches rules quiet) =
        run ids limits files
          { Options.empty with text := some (.ofAttached text.toList), rules, quiet } .parse ∧
      runArguments ids limits files ["lex", "--text=" ++ text] =
        run ids limits files { Options.empty with text := some (.ofAttached text.toList) }
          .lex := by
  constructor
  · refine runArguments_word limits files (c := .parse) ?_
    cases rules <;> cases quiet <;> exact Options.ofArguments_text rfl rfl rfl rfl rfl
  · exact runArguments_word limits files (c := .lex) (Options.ofArguments_text rfl rfl rfl rfl rfl)

/-- **The mark** `--` is taken for no text, and the commands stop without a report. -/
theorem Command.runArguments_mark (ids : IdentClasses) (limits : Limits) (files : Files)
    (rules quiet : Bool) :
    runArguments ids limits files ("parse" :: "--text=--" :: reportSwitches rules quiet) =
        .crash .noText .nothing ∧
      runArguments ids limits files ["lex", "--text=--"] = .crash .noText .nothing := by
  obtain ⟨hparse, hlex⟩ := runArguments_text ids limits files "--" rules quiet
  have hargument : "--text=" ++ "--" = "--text=--" := rfl
  rw [hargument] at hparse hlex
  exact ⟨hparse.trans rfl, hlex.trans rfl⟩

/-! ### Programs of any height -/

/-- A body of one hole more than the number says, all at the same place. -/
def holes : Nat → Node
  | 0 => .hole (.number 1 1) (.number 1 1)
  | n + 1 => .chain (holes n) (.hole (.number 1 1) (.number 1 1))

theorem isStatement_hole : Node.IsStatement ids (.hole (.number 1 1) (.number 1 1)) :=
  .hole (.mk 1 1) (.mk 1 1)

theorem isBody_holes (n : Nat) : Node.IsBody ids (holes n) := by
  induction n with
  | zero => exact .single isStatement_hole
  | succ n ih => exact .chain ih isStatement_hole

theorem isWritable_holes (n : Nat) : (holes n).IsWritable := by
  have hhole : (Node.hole (.number 1 1) (.number 1 1)).IsWritable :=
    .of_children (by decide) (by simp [Node.children, Node.isWritable_one])
  induction n with
  | zero => exact hhole
  | succ n ih =>
    exact .of_children (by simp [holes, Node.children])
      (by simp [holes, Node.children, ih, hhole])

theorem lt_height_holes (n : Nat) : n < (holes n).height := by
  induction n with
  | zero => decide
  | succ n ih =>
    rw [holes, Node.height]
    omega

/-- The field has this many holes. -/
def holesProgram (n : Nat) : Node := .program (.number 1 1) (.number 1 1) (holes n)

theorem lt_height_holesProgram (n : Nat) : n < (holesProgram n).height := by
  have hlt := lt_height_holes n
  rw [holesProgram, Node.height]
  omega

/-- No limits allow all trees that are read. -/
theorem exists_not_allow (ids : IdentClasses) (limits : Limits) :
    ∃ text o root, Table.standard.derive? (Scanner.ofText ids text) = some o ∧
      o.verdict = .accepted root ∧ ¬ limits.Allow root := by
  have hprogram : (holesProgram limits.levels).IsProgram ids :=
    .mk (.mk 1 1) (.mk 1 1) (isBody_holes _)
  have hwritable : (holesProgram limits.levels).IsWritable :=
    .of_children (by simp [holesProgram, Node.children])
      (by simp [holesProgram, Node.children, Node.isWritable_one, isWritable_holes])
  obtain ⟨o, root, ho, hv, hsame⟩ := Node.readsBack_of_isProgram hprogram hwritable
  refine ⟨_, o, root, ho, hv, fun hallow => ?_⟩
  have hlt := hallow.levels
  rw [Node.height_eq_of_same hsame] at hlt
  exact Nat.lt_asymm hlt (lt_height_holesProgram _)

/-! ### The result -/

theorem Command.runArguments_agree (ids : IdentClasses) (limits : Limits) (files : Files)
    {text : String} (h : text ≠ "--") (rules quiet : Bool) :
    Agree ids limits text rules quiet
      (runArguments ids limits files
        ("parse" :: ("--text=" ++ text) :: reportSwitches rules quiet))
      (runArguments ids limits files ["lex", "--text=" ++ text]) := by
  obtain ⟨hparse, hlex⟩ := runArguments_text ids limits files text rules quiet
  rw [hparse, hlex, SwitchValue.ofAttached_toList h]
  let o : Options := { Options.empty with text := some (.given text), rules, quiet }
  exact run_agree (o := o) files rfl rfl rfl rfl

/-- **The commands agree** with each other and with what they run. Given a text, and neither a table
nor the wish for debugging, `parse` ends with 0 if the text is accepted and its tree is not wanted
or can be printed within the limits, and has then written the derivation, if it is wanted, a word
of success and the outline. If the limits do not allow the outline it stops without a report after
the word of success. If the text is not accepted `parse` ends with 2, and all that it has written is
an error: one of the scanner if this has come up, and else one of the program. `lex` writes a line
for each token up to the first error, and ends with 0 if there is none. There is none if the text is
accepted; and if `parse` reports an error of the scanner, `lex` ends with 2 and reports the same.

So it is for options that hold the text, and for arguments that do, if it is not the mark `--`. -/
theorem commands_agree (ids : IdentClasses) (limits : Limits) (files : Files) (text : String) :
    (∀ o o' : Options, o.text = some (.given text) → o.table = none → o.debug = false →
      o'.text = some (.given text) →
      Command.Agree ids limits text o.rules o.quiet (Command.run ids limits files o .parse)
        (Command.run ids limits files o' .lex)) ∧
    (text ≠ "--" → ∀ rules quiet,
      Command.Agree ids limits text rules quiet
        (Command.runArguments ids limits files
          ("parse" :: ("--text=" ++ text) :: reportSwitches rules quiet))
        (Command.runArguments ids limits files ["lex", "--text=" ++ text])) := by
  constructor
  · intro o o' htext htable hdebug htext'
    exact Command.run_agree files htext htable hdebug htext'
  · intro hmark rules quiet
    exact Command.runArguments_agree ids limits files hmark rules quiet

/-- The text of a program that makes one hole, with the wish for a derivation. -/
def oneHole : Options :=
  { Options.empty with text := some (.given "size 2 2 begin hole 0 0; halt"), rules := true }

/-- Three levels are enough for the tree, and with two it is not printed. -/
theorem commands_agree_oneHole :
    ∃ p q r,
      Command.run .unicode14 ⟨4, 3⟩ ⟨fun _ => .error .missing⟩ oneHole .parse = .exit 0 p ∧
      p.Shows
        ["_PROGRAM -> SIZE INTEGER INTEGER BEGIN _LIST HALT", "_LIST -> _STATEMENT SEMICOLON",
          "_STATEMENT -> HOLE INTEGER INTEGER", "Parsed successfully!",
          "Program", "  2", "  2", "  Hole", "    0", "    0"] [] ∧
      (∃ e, Command.runArguments .unicode14 ⟨4, 2⟩ ⟨fun _ => .error .missing⟩
          ["parse", "--text=" ++ "size 2 2 begin hole 0 0; halt"] = .crash (.outline e) q) ∧
      q.Shows ["Parsed successfully!"] [] ∧
      Command.runArguments .unicode14 ⟨4, 2⟩ ⟨fun _ => .error .missing⟩
          ["lex", "--text=" ++ "size 2 2 begin hole 0 0; halt"] = .exit 0 r ∧
      r.err = [] := by
  have hrun : (Table.standard.derive?
      (Scanner.ofText .unicode14 "size 2 2 begin hole 0 0; halt")).map
        (fun o => (o.verdict, o.rules)) =
      some (.accepted (.program (.number 2 1) (.number 2 1) (.hole (.number 0 1) (.number 0 1))),
        [6, 2, 1]) := by rfl
  obtain ⟨o, ts, e?, last, ho, -, hparse, -⟩ :=
    (commands_agree .unicode14 ⟨4, 3⟩ ⟨fun _ => .error .missing⟩ _).1 oneHole oneHole
      rfl rfl rfl rfl
  obtain ⟨o', ts', e?', last', ho', -, hparse', r, hlex, -, herr⟩ :=
    (commands_agree .unicode14 ⟨4, 2⟩ ⟨fun _ => .error .missing⟩
      "size 2 2 begin hole 0 0; halt").2 (by decide) false false
  obtain rfl : o = o' := Option.some.inj (ho.symm.trans ho')
  rw [ho, Option.map_some, Option.some.injEq, Prod.mk.injEq] at hrun
  obtain ⟨hv, hrules⟩ := hrun
  simp only [hv, hrules] at hparse hparse'
  obtain ⟨-, lines, hlines, htree⟩ := hparse
  obtain ⟨rfl, lines', -, htree'⟩ := hparse'
  cases hlines
  obtain ⟨p, outline, houtline, hexit, hshows⟩ :=
    htree.printed rfl ⟨by decide, by decide, by decide⟩
  obtain rfl : outline = "Program\n  2\n  2\n  Hole\n    0\n    0" :=
    Except.ok.inj (houtline.symm.trans (by decide +kernel))
  obtain ⟨q, e, -, hcrash, hshows'⟩ :=
    htree'.stopped rfl fun h => absurd h.levels (by decide)
  exact ⟨p, q, r, hexit, hshows, ⟨e, hcrash⟩, hshows', hlex, herr⟩

/-- Whatever the limits are, some text is accepted, and `parse` does not end with 0. -/
theorem not_exists_limits_exit :
    ¬ ∃ limits : Limits, ∀ text, text ≠ "--" → ∀ o root,
      Table.standard.derive? (Scanner.ofText .unicode14 text) = some o →
      o.verdict = .accepted root →
      ∃ p, Command.runArguments .unicode14 limits ⟨fun _ => .error .missing⟩
        ["parse", "--text=" ++ text] = .exit 0 p := by
  rintro ⟨limits, h⟩
  obtain ⟨text, o, root, ho, hv, hnot⟩ := exists_not_allow .unicode14 limits
  have htext : text ≠ "--" := by
    rintro rfl
    have hfail : (Table.standard.derive? (Scanner.ofText .unicode14 "--")).map Outcome.verdict =
        some (.failed (.scan ⟨.unexpected '-', 1, 1, "--\n^"⟩)) := by rfl
    rw [ho, Option.map_some, hv] at hfail
    cases hfail
  obtain ⟨p, hexit⟩ := h text htext o root ho hv
  obtain ⟨o', ts, e?, last, ho', -, hparse, -⟩ :=
    Command.runArguments_agree .unicode14 limits ⟨fun _ => .error .missing⟩ htext false false
  obtain rfl : o = o' := Option.some.inj (ho.symm.trans ho')
  simp only [hv] at hparse
  obtain ⟨-, lines, -, htree⟩ := hparse
  obtain ⟨q, e, -, hcrash, -⟩ := htree.stopped rfl hnot
  cases hexit.symm.trans hcrash

end CatAndMouse
