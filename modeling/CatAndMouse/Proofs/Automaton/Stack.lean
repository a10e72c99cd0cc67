import CatAndMouse.Proofs.Automaton.Steps
import CatAndMouse.Proofs.Language
import CatAndMouse.Proofs.Table.Canonical
import CatAndMouse.Proofs.Tree.Operands

/-!
# The stack is a path

Spelled out, the stack is a list of states and symbols. Of any table that can be read
nothing is known but what the reader has checked (`Table.Closed`), and this is enough: the
stack of a run is always a path that the table leads along (`IsStackPath`), and whatever a
rule takes off it, too much or less than nothing, a state comes to light or no stack is left
(`popItems_stackItems`).

The invariant is carried along by frames (`OnPath`), through one step
((`Config.Stacked.step`), and then along the run. So a run can fail for its tokens or for
its table, but not because a symbol has no column (`stack_discipline`). The numbers that a failure
of the table shows are numbers that stand in its cells, so they can be written; the place of a
token that is refused need not be (`not_forall_failed_isParseError_or_isTableError`).
-/

namespace CatAndMouse

/-! ### States and symbols -/

/-- A member of the stack. -/
inductive StackItem where
  | state (s : Nat)
  | symbol (name : String)
deriving DecidableEq

namespace StackItem

def isState : StackItem → Bool
  | .state _ => true
  | .symbol _ => false

/-- The member as it is shown. -/
def text : StackItem → String
  | .state s => toString s
  | .symbol name => name

end StackItem

/-- The members of the stack, oldest first. -/
def stackItems (frames : List Frame) : List StackItem :=
  .state Table.start :: frames.reverse.flatMap fun f => [.symbol f.symbol, .state f.state]

/-- What a rule leaves of the members of the stack: a rule that takes more than there are
leaves none, and one that takes fewer than none leaves all. -/
def popItems (size : Int) (items : List StackItem) : List StackItem :=
  items.take (items.length - 2 * size).toNat

/-- The stack is shown member by member. -/
theorem showStack_eq (frames : List Frame) :
    showStack frames = String.intercalate " " ((stackItems frames).map StackItem.text) := by
  rw [showStack, stackItems, List.map_cons, List.map_flatMap]
  rfl

theorem stackItems_append (above below : List Frame) :
    stackItems (above ++ below) =
      stackItems below ++ above.reverse.flatMap fun f => [.symbol f.symbol, .state f.state] := by
  rw [stackItems, List.reverse_append, List.flatMap_append, stackItems, List.cons_append]

theorem stackItems_cons (f : Frame) (frames : List Frame) :
    stackItems (f :: frames) = stackItems frames ++ [.symbol f.symbol, .state f.state] :=
  stackItems_append [f] frames

theorem length_stackItems (frames : List Frame) :
    (stackItems frames).length = 2 * frames.length + 1 := by
  induction frames with
  | nil => rfl
  | cons f frames ih =>
    rw [stackItems_cons, List.length_append, ih, List.length_cons]
    simp
    omega

/-- The last member is the current state. -/
theorem getLast?_stackItems (frames : List Frame) :
    (stackItems frames).getLast? = some (.state (topState frames)) := by
  cases frames with
  | nil => rfl
  | cons f frames =>
    rw [stackItems_cons, List.getLast?_append]
    rfl

/-- **Rules take whole frames** off the members, too: they leave the members of the frames that
are left, or nothing if there are too few. -/
theorem popItems_stackItems (size : Int) (frames : List Frame) :
    popItems size (stackItems frames) =
      ((below? size.toNat frames).map stackItems).getD [] := by
  have hlen := length_stackItems frames
  cases hbelow : below? size.toNat frames with
  | none =>
    have hlt := below?_eq_none_iff.1 hbelow
    have hzero : ((stackItems frames).length - 2 * size).toNat = 0 := by omega
    rw [popItems, hzero, List.take_zero]
    rfl
  | some below =>
    obtain ⟨hle, rfl⟩ := below?_eq_some_iff.1 hbelow
    have hdrop : (stackItems (frames.drop size.toNat)).length =
        2 * (frames.length - size.toNat) + 1 := by
      rw [length_stackItems, List.length_drop]
    have hsplit := stackItems_append (frames.take size.toNat) (frames.drop size.toNat)
    rw [List.take_append_drop] at hsplit
    rw [popItems, Option.map_some, Option.getD_some]
    by_cases hneg : size < 0
    · -- all is left
      have hzero : size.toNat = 0 := by omega
      rw [hzero, List.drop_zero]
      exact List.take_of_length_le (by omega)
    · have hcount : ((stackItems frames).length - 2 * size).toNat =
          (stackItems (frames.drop size.toNat)).length := by omega
      rw [hcount, hsplit, List.take_left]

/-- A rule that takes less than nothing, one frame, or more frames than there are. -/
example :
    popItems (-1) (stackItems [⟨"SIZE", 2⟩]) = [.state 0, .symbol "SIZE", .state 2] ∧
      popItems 1 (stackItems [⟨"SIZE", 2⟩]) = [.state 0] ∧
      popItems 2 (stackItems [⟨"SIZE", 2⟩]) = [] := by decide

/-- One more frame adds two members. -/
theorem getElem?_stackItems_cons {f : Frame} {frames : List Frame} {i : Nat} {item : StackItem}
    (h : (stackItems (f :: frames))[i]? = some item) :
    i ≤ 2 * frames.length ∧ (stackItems frames)[i]? = some item ∨
      i = 2 * frames.length + 1 ∧ item = .symbol f.symbol ∨
      i = 2 * frames.length + 2 ∧ item = .state f.state := by
  have hlen := length_stackItems frames
  rw [stackItems_cons] at h
  by_cases hi : i < (stackItems frames).length
  · rw [List.getElem?_append_left hi] at h
    exact .inl ⟨by omega, h⟩
  · obtain ⟨j, rfl⟩ := Nat.exists_eq_add_of_le (Nat.le_of_not_lt hi)
    rw [List.getElem?_append_right (Nat.le_add_right ..), Nat.add_sub_cancel_left] at h
    match j, h with
    | 0, h => exact .inr (.inl ⟨by omega, (Option.some.inj h).symm⟩)
    | 1, h => exact .inr (.inr ⟨by omega, (Option.some.inj h).symm⟩)

/-- States and symbols stand in turn. -/
theorem isState_stackItems_iff {frames : List Frame} {i : Nat} {item : StackItem}
    (h : (stackItems frames)[i]? = some item) : item.isState = true ↔ i % 2 = 0 := by
  induction frames with
  | nil =>
    match i, h with
    | 0, h =>
      obtain rfl := Option.some.inj h
      exact iff_of_true rfl rfl
  | cons f frames ih =>
    rcases getElem?_stackItems_cons h with ⟨-, h⟩ | ⟨rfl, rfl⟩ | ⟨rfl, rfl⟩
    · exact ih h
    · exact iff_of_false Bool.false_ne_true (by omega)
    · exact iff_of_true rfl (by omega)

/-! ### Paths -/

/-- The table leads from a state over a symbol to a state: it shifts the symbol and goes there, or
goes there over what a rule leaves. -/
def Table.Leads (t : Table) (s : Nat) (x : String) (s' : Nat) : Prop :=
  x ∈ t.symbols.terminals ∧ t.actionOf s x = .ok (.shift s') ∨
    x ∈ t.symbols.nonterminals ∧ t.gotoOf s x = .ok (some s')

/-- The members are a path through the states of the table, from its first state to the current
one: states and symbols in turn, and over each symbol the table leads from the state before it to
the state after it. -/
structure IsStackPath (t : Table) (items : List StackItem) (current : Nat) : Prop where
  first : items.head? = some (.state Table.start)
  last : items.getLast? = some (.state current)
  alternates : ∀ i item, items[i]? = some item → (item.isState = true ↔ i % 2 = 0)
  states : ∀ s, .state s ∈ items → s < t.states
  leads : ∀ i s x s', items[i]? = some (.state s) → items[i + 1]? = some (.symbol x) →
    items[i + 2]? = some (.state s') → t.Leads s x s'

/-- The frames are a path: the table leads to each of them from the one below. -/
inductive OnPath (t : Table) : List Frame → Prop where
  | nil : OnPath t []
  | cons {frames : List Frame} {x : String} {s : Nat} (below : OnPath t frames)
      (hlead : t.Leads (topState frames) x s) (hs : s < t.states) : OnPath t (⟨x, s⟩ :: frames)

namespace OnPath

variable {t : Table} {frames below : List Frame}

/-- What lies below some frames of a path is a path. -/
theorem of_below? {n : Nat} (h : OnPath t frames) (hbelow : below? n frames = some below) :
    OnPath t below := by
  induction h generalizing n with
  | nil =>
    cases n with
    | zero =>
      cases hbelow
      exact .nil
    | succ n => cases hbelow
  | cons h hlead hs ih =>
    cases n with
    | zero =>
      cases hbelow
      exact .cons h hlead hs
    | succ n => exact ih hbelow

theorem topState_lt (h : OnPath t frames) (hstart : Table.start < t.states) :
    topState frames < t.states := by
  cases h with
  | nil => exact hstart
  | cons _ _ hs => exact hs

theorem state_lt (h : OnPath t frames) (hstart : Table.start < t.states) {s : Nat}
    (hs : .state s ∈ stackItems frames) : s < t.states := by
  induction h with
  | nil =>
    cases List.mem_singleton.1 hs
    exact hstart
  | @cons frames x s' below hlead hlt ih =>
    rw [stackItems_cons, List.mem_append] at hs
    rcases hs with hs | hs
    · exact ih hs
    · simp only [List.mem_cons, List.not_mem_nil, or_false, reduceCtorEq, false_or,
        StackItem.state.injEq] at hs
      rw [hs]
      exact hlt

theorem leads (h : OnPath t frames) {i s s' : Nat} {x : String}
    (hs : (stackItems frames)[i]? = some (.state s))
    (hx : (stackItems frames)[i + 1]? = some (.symbol x))
    (hs' : (stackItems frames)[i + 2]? = some (.state s')) : t.Leads s x s' := by
  induction h with
  | nil => cases hx
  | @cons frames y k below hlead hlt ih =>
    rcases getElem?_stackItems_cons hs' with ⟨hi, hs'⟩ | ⟨-, hs'⟩ | ⟨hi, hs'⟩
    · -- all three are members of the path below
      rcases getElem?_stackItems_cons hx with ⟨-, hx⟩ | ⟨hi', -⟩ | ⟨hi', -⟩
      · rcases getElem?_stackItems_cons hs with ⟨-, hs⟩ | ⟨hi', -⟩ | ⟨hi', -⟩
        · exact ih hs hx hs'
        · omega
        · omega
      · omega
      · omega
    · cases hs'
    · -- the last three
      cases hs'
      rcases getElem?_stackItems_cons hx with ⟨hi', -⟩ | ⟨-, hx⟩ | ⟨hi', -⟩
      · omega
      · cases hx
        rcases getElem?_stackItems_cons hs with ⟨-, hs⟩ | ⟨hi', -⟩ | ⟨hi', -⟩
        · have hlast := getLast?_stackItems frames
          rw [List.getLast?_eq_getElem?, length_stackItems, Nat.add_sub_cancel,
            show 2 * frames.length = i by omega, hs] at hlast
          cases hlast
          exact hlead
        · omega
        · omega
      · omega

/-- **Frames on a path** are a path when spelled out. -/
theorem isStackPath (h : OnPath t frames) (hstart : Table.start < t.states) :
    IsStackPath t (stackItems frames) (topState frames) where
  first := rfl
  last := getLast?_stackItems frames
  alternates := fun _ _ hitem => isState_stackItems_iff hitem
  states := fun _ hs => h.state_lt hstart hs
  leads := fun _ _ _ _ hs hx hs' => h.leads hs hx hs'

end OnPath

/-! ### Tables that can be read -/

/-- What is known of a table that can be read: there is a first state, every token has a column,
no state leads out of the table, the numbers in its cells can be written, and a rule leaves a
nonterminal. -/
structure Table.Closed (t : Table) : Prop where
  start : Table.start < t.states
  kinds : ∀ k : Kind, k.symbol ∈ t.symbols.terminals
  action : ∀ s < t.states, ∀ x ∈ t.symbols.terminals, ∃ a, t.actionOf s x = .ok a ∧
    a.Fits t.states t.rules ∧ ∀ number ∈ a.number?, number < Text.writeBound
  goto : ∀ s < t.states, ∀ x ∈ t.symbols.nonterminals, ∃ target, t.gotoOf s x = .ok target ∧
    ∀ s' ∈ target, s' < t.states ∧ s' < Text.writeBound
  lhs : ∀ number rule, t.rule number = .ok rule → rule.lhs ∈ t.symbols.nonterminals

theorem Table.rule_eq_ok_iff {t : Table} {number : Int} {rule : Rule} :
    t.rule number = .ok rule ↔ t.rules.lookup number = some rule := by
  unfold Table.rule
  cases t.rules.lookup number <;> simp

theorem Table.rule_eq_error {t : Table} {number : Int} {e : UnknownRule}
    (h : t.rule number = .error e) : e.number = number := by
  unfold Table.rule at h
  split at h
  · cases h
  · cases h
    rfl

theorem Table.ShownBy.closed {spec : TableSpec} {n : Nat} {lines : List String} {t : Table}
    (h : t.ShownBy spec n lines) (hn : 1 ≤ n) (hspec : spec.terminals = standardTerminals) :
    t.Closed where
  start := by
    rw [h.states]
    exact hn
  kinds := fun k => by
    rw [h.permTerminals.mem_iff, hspec]
    exact List.mem_map_of_mem k.mem_all
  action := fun s hs x hx => by
    obtain ⟨j, hj⟩ := List.mem_iff_getElem?.1 hx
    rw [h.states] at hs
    obtain ⟨cell, a, -, ha, haction⟩ := h.exists_action hs hj
    rw [h.states, h.rules]
    exact ⟨a, haction, ha.2, ha.1.lt_writeBound⟩
  goto := fun s hs x hx => by
    obtain ⟨j, hj⟩ := List.mem_iff_getElem?.1 hx
    rw [h.states] at hs
    obtain ⟨cell, target, -, htarget, hgoto⟩ := h.exists_goto hs hj
    rw [h.states]
    exact ⟨target, hgoto, fun s' hs' => ⟨htarget.2 s' hs', htarget.1.lt_writeBound s' hs'⟩⟩
  lhs := fun number rule hrule => by
    rw [rule_eq_ok_iff, h.rules] at hrule
    obtain ⟨l₁, l₂, hl, -⟩ := List.lookup_eq_some_iff.1 hrule
    exact h.lhs (number, rule) (by simp [hl])

/-- The states on a path are numbered in the cells of the table. -/
theorem OnPath.topState_lt_writeBound {t : Table} {frames : List Frame} (h : OnPath t frames)
    (ht : t.Closed) : topState frames < Text.writeBound := by
  cases h with
  | nil => exact Text.lt_writeBound (by decide)
  | cons below hlead _ =>
    rcases hlead with ⟨hx, hshift⟩ | ⟨hx, hgoto⟩
    · obtain ⟨a, ha, -, hnumber⟩ := ht.action _ (below.topState_lt ht.start) _ hx
      rw [hshift] at ha
      cases ha
      exact hnumber _ rfl
    · obtain ⟨target, htarget, hlt⟩ := ht.goto _ (below.topState_lt ht.start) _ hx
      rw [hgoto] at htarget
      cases htarget
      exact (hlt _ rfl).2

/-! ### Failures -/

namespace Failure

/-- Failures of the table, found out while it is used. -/
def isOfTable : Failure → Bool
  | .unknownRule _ | .build _ | .stackUnderflow _ | .noTarget .. | .leftOver _ => true
  | _ => false

/-- The failure can be worded, and comes as an error of the table. -/
def isTableError (e : Failure) : Bool := e.isOfTable && e.report?.isSome

/-- A failure of the source, of the program at one of some tokens, or of the table: not of a
symbol that has no column. -/
def Regular (P : Token → Prop) (e : Failure) : Prop :=
  (∃ cause, e = .scan cause) ∨ (∃ t, P t ∧ e.RefusedAt t) ∨ e.isTableError = true

theorem isTableError_of_lt {e : Failure} (he : e.isOfTable = true)
    (hnumbers : ∀ number ∈ e.numbers, ∃ n : Nat, number = n ∧ n < Text.writeBound) :
    e.isTableError = true := by
  rw [isTableError, he, Bool.true_and, isSome_report?_iff]
  intro number hnumber
  obtain ⟨n, rfl, hn⟩ := hnumbers number hnumber
  exact Text.isWritable_natCast.2 hn

/-- Of a rule that a cell names, the fragments are at fault. -/
theorem isTableError_build {number : Nat} {fragments fragments' : Fragments} {e : BuildError}
    (h : fragments.apply number = (some e, fragments')) (hnumber : number < Text.writeBound) :
    (build e).isTableError = true :=
  isTableError_of_lt rfl fun _ hn => ⟨number, Fragments.eq_of_mem_numbers h hn, hnumber⟩

end Failure

/-! ### Steps -/

/-- The stack is a path, and so are all the stacks that were reported. -/
structure Config.Stacked {σ : Type} (t : Table) (c : Config σ) : Prop where
  frames : OnPath t c.frames
  history : ∀ frames, .stack frames ∈ c.history → OnPath t frames

/-- A step keeps to the stack, and if it fails, it does so regularly. -/
structure Step.Disciplined {σ : Type} (t : Table) (P : Token → Prop) (s : Step σ) : Prop where
  stacked : s.config.Stacked t
  failure : ∀ o e, s = .halt o → o.verdict = .failed e → e.Regular P

namespace Config

variable {σ : Type} {t : Table} {c c' : Config σ} {look : Token} {P : Token → Prop}

/-- **A reduction**, member by member: the symbol that the rule leaves and a state are put in the
place of what it takes. -/
theorem Reduces.stackItems_eq {r : Nat} (h : Reduces t c look r c') :
    ∃ rule s, t.rule r = .ok rule ∧ stackItems c'.frames =
      popItems rule.size (stackItems c.frames) ++ [.symbol rule.lhs, .state s] := by
  cases h with
  | @mk s rule fragments below _ hrule _ hbelow _ =>
    refine ⟨rule, s, hrule, ?_⟩
    rw [popItems_stackItems, hbelow]
    exact stackItems_cons ⟨rule.lhs, s⟩ below

/-- The source fails, or the leaf of a token that it answers. -/
theorem pull_regular [TokenSource σ] {e : Failure} (h : c.pull = (.error e, c'))
    (hnext : ∀ t, (TokenSource.next c.source).1 = .ok (some t) → P t) : e.Regular P := by
  obtain hscan | ⟨t, leaf, rfl, hk, ht⟩ := pull_eq_error h
  · exact .inl hscan
  · exact .inr (.inl ⟨t, hnext t ht, Failure.refusedAt_badLeaf (by rw [hk]; nofun) leaf⟩)

namespace Stacked

/-- A report is in order, unless it shows a stack that is no path. -/
theorem record (h : c.Stacked t) {e : Event} (he : ∀ frames, e = .stack frames → OnPath t frames) :
    (c.record e).Stacked t where
  frames := h.frames
  history := fun frames hframes => by
    rcases List.mem_cons.1 hframes with heq | hframes
    · exact he frames heq.symm
    · exact h.history frames hframes

theorem recordStack (h : c.Stacked t) : c.recordStack.Stacked t :=
  h.record fun frames heq => by
    cases heq
    exact h.frames

theorem fail (h : c.Stacked t) {e : Failure} (he : e.Regular P) :
    (c.fail e).Disciplined t P where
  stacked := h
  failure := by
    rintro o e' ⟨⟩ ⟨⟩
    exact he

theorem next (h : c.Stacked t) (look : Token) : (Step.next c look).Disciplined t P where
  stacked := h
  failure := by
    intro o e heq
    cases heq

theorem goTo (h : c.Stacked t) (ht : t.Closed) (look : Token) {number : Nat} {rule : Rule}
    (hnumber : number < Text.writeBound) (hrule : rule.lhs ∈ t.symbols.nonterminals) :
    (Config.goTo t c look number rule).Disciplined t P := by
  unfold Config.goTo
  split
  · refine h.fail (.inr (.inr (Failure.isTableError_of_lt rfl fun n hn => ?_)))
    exact ⟨number, List.mem_singleton.1 hn, hnumber⟩
  · next below hbelow =>
    have hpath := h.frames.of_below? hbelow
    obtain ⟨target, hgoto, hlt⟩ := ht.goto _ (hpath.topState_lt ht.start) _ hrule
    rw [hgoto]
    cases target with
    | none =>
      refine h.fail (.inr (.inr (Failure.isTableError_of_lt rfl fun n hn => ?_)))
      exact ⟨topState below, List.mem_singleton.1 hn, hpath.topState_lt_writeBound ht⟩
    | some s =>
      have hpushed : OnPath t (⟨rule.lhs, s⟩ :: below) :=
        .cons hpath (.inr ⟨hrule, hgoto⟩) (hlt s rfl).1
      have hstacked : ({ c with frames := ⟨rule.lhs, s⟩ :: below } : Config σ).Stacked t :=
        ⟨hpushed, h.history⟩
      exact (hstacked.record (e := .reduced number) nofun).recordStack.next look

theorem reduce (h : c.Stacked t) (ht : t.Closed) (look : Token) {number : Nat}
    (hnumber : number < Text.writeBound) :
    (Config.reduce t c look number).Disciplined t P := by
  unfold Config.reduce
  split
  · next e hrule =>
    refine h.fail (.inr (.inr (Failure.isTableError_of_lt rfl fun n hn => ?_)))
    refine ⟨number, ?_, hnumber⟩
    rw [List.mem_singleton.1 hn]
    exact Table.rule_eq_error hrule
  · next rule hrule =>
    split
    · next e fragments hbuild =>
      have hstacked : ({ c with fragments } : Config σ).Stacked t := ⟨h.frames, h.history⟩
      exact hstacked.fail (.inr (.inr (Failure.isTableError_build hbuild hnumber)))
    · next fragments _ =>
      have hstacked : ({ c with fragments, applied := number :: c.applied } : Config σ).Stacked t :=
        ⟨h.frames, h.history⟩
      exact hstacked.goTo ht look hnumber (ht.lhs _ _ hrule)

theorem unexpected (h : c.Stacked t) (hlook : P look) :
    (Config.unexpected t c look).Disciplined t P :=
  h.fail (.inr (.inl ⟨look, hlook, Failure.refusedAt_unexpected ..⟩))

theorem accept (h : c.Stacked t) (hlook : P look) : (Config.accept t c look).Disciplined t P := by
  unfold Config.accept
  split
  · split
    · exact ⟨h, by rintro o e ⟨⟩ ⟨⟩⟩
    · exact h.fail (.inr (.inr rfl))
  · exact h.unexpected hlook

/-- Nothing is on the stack at first. -/
theorem initial (t : Table) (source : σ) : (Config.initial source).Stacked t :=
  ⟨.nil, nofun⟩

variable [TokenSource σ]

theorem pull (h : c.Stacked t) : c.pull.2.Stacked t :=
  ⟨(pull_frames c).symm ▸ h.frames, (pull_history c).symm ▸ h.history⟩

/-- A shift leads where the table leads, over the token. -/
theorem shift (h : c.Stacked t) (ht : t.Closed) {look : Token} {s : Nat}
    (haction : t.actionOf c.state look.kind.symbol = .ok (.shift s)) (hs : s < t.states)
    (hnext : ∀ u, (TokenSource.next c.source).1 = .ok (some u) → P u) :
    (c.shift look s).Disciplined t P := by
  have hpushed : OnPath t (⟨look.kind.symbol, s⟩ :: c.frames) :=
    .cons h.frames (.inl ⟨ht.kinds look.kind, haction⟩) hs
  have hstacked : ({ c with frames := ⟨look.kind.symbol, s⟩ :: c.frames } : Config σ).Stacked t :=
    ⟨hpushed, h.history⟩
  have hpull := hstacked.pull
  unfold Config.shift
  split
  · next look' c' heq =>
    rw [heq] at hpull
    exact hpull.recordStack.next look'
  · next e c' heq =>
    have hregular : e.Regular P := pull_regular heq hnext
    rw [heq] at hpull
    exact hpull.fail hregular

/-- **Steps keep to the stack.** -/
theorem step (h : c.Stacked t) (ht : t.Closed) (hlook : P look)
    (hnext : ∀ u, (TokenSource.next c.source).1 = .ok (some u) → P u) :
    (Config.step t c look).Disciplined t P := by
  obtain ⟨a, haction, hfits, hnumber⟩ :=
    ht.action _ (h.frames.topState_lt ht.start) _ (ht.kinds look.kind)
  unfold Config.step Config.state
  rw [haction]
  cases a with
  | shift s => exact h.shift ht haction hfits hnext
  | reduce number => exact h.reduce ht look (hnumber number rfl)
  | accept => exact h.accept hlook
  | error => exact h.recordStack.unexpected hlook

theorem launch (t : Table) {source : σ}
    (hnext : ∀ u, (TokenSource.next source).1 = .ok (some u) → P u) :
    (Config.launch source).Disciplined t P := by
  have hpull := (initial t source).recordStack.pull
  unfold Config.launch
  split
  · next look c heq =>
    rw [heq] at hpull
    exact hpull.next look
  · next e c heq =>
    have hregular : e.Regular P := pull_regular heq hnext
    rw [heq] at hpull
    exact hpull.fail hregular

end Stacked

end Config

/-! ### Runs -/

section Runs

variable {σ : Type} [TokenSource σ]

/-- A run over the source may look at the token: it is one of the answers, or the end of the
input. -/
def TokenSource.Offers (source : σ) (u : Token) : Prop :=
  (∃ i, answer i source = .ok (some u)) ∨ u.kind = .endOfInput

variable {t : Table} {source : σ} {k : Nat} {c : Config σ} {look : Token} {o : Outcome σ}

/-- **Runs keep to the stack.** -/
theorem Launched.stacked (h : Launched t source k c look) (ht : t.Closed) : c.Stacked t := by
  obtain ⟨c₀, look₀, hlaunch, hreaches⟩ := h.exists_reaches
  have hfirst : (Config.launch source).Disciplined t fun _ => True :=
    Config.Stacked.launch t fun _ _ => trivial
  rw [hlaunch] at hfirst
  refine hreaches.invariant (P := fun c _ => c.Stacked t) ?_ hfirst.stacked
  intro c look c' look' hc hstep
  have hnext : (Config.step t c look).Disciplined t fun _ => True :=
    hc.step ht trivial fun _ _ => trivial
  rw [hstep] at hnext
  exact hnext.stacked

/-- What a run looks at is offered by its source. -/
theorem Launched.offers (h : Launched t source k c look) :
    TokenSource.Offers source look := by
  obtain ⟨a, ha, rfl⟩ := h.look_eq
  cases a with
  | none => exact .inr rfl
  | some u => exact .inl ⟨k, ha⟩

/-- Where all the places that the source answers can be written, a token is refused with a parse
error. -/
theorem Failure.Regular.isParseError {e : Failure} (h : e.Regular (TokenSource.Offers source))
    (hplaces : ∀ i u, TokenSource.answer i source = .ok (some u) → u.isPlaceWritable = true) :
    (∃ cause, e = .scan cause) ∨ e.isParseError = true ∨ e.isTableError = true := by
  rcases h with hscan | ⟨u, hu, hrefused⟩ | htable
  · exact .inl hscan
  · refine .inr (.inl (hrefused.isParseError_iff.2 ?_))
    rcases hu with ⟨i, hi⟩ | hk
    · exact .inr (hplaces i u hi)
    · exact .inl hk
  · exact .inr (.inr htable)

/-- At the end of a run, too. -/
theorem Ends.disciplined (h : Ends t source k o) (ht : t.Closed) :
    (Step.halt o).Disciplined t (TokenSource.Offers source) := by
  rcases h.exists_halt with ⟨hlaunch, -⟩ | ⟨k, c, look, hc, hstep, -⟩
  · exact hlaunch ▸ Config.Stacked.launch t fun u hu => .inl ⟨0, hu⟩
  · have hnext : ∀ u, (TokenSource.next c.source).1 = .ok (some u) →
        TokenSource.Offers source u := fun u hu => by
      rw [hc.source_eq] at hu
      exact .inl ⟨k + 1, hu⟩
    exact hstep ▸ (hc.stacked ht).step ht hc.offers hnext

end Runs

/-- **Stack discipline.** Let a table be read whose terminals are the tokens, of any text and with
any rules. Wherever a run comes, its stack is a path; a reduction takes members off it and puts two
in their place, and whatever a rule takes, a state comes to light or no stack is left. A run
fails for its source, for a token that it looks at, or for its table. A failure of the table can
always be worded, and the refusal of a token is a parse error where the places of the tokens can
be written. Each stack that the run reports is a path. -/
theorem stack_discipline {σ : Type} [TokenSource σ] {rules : RuleBook}
    {nonterminals : List String} {eof : String} {n : Nat} {text : String} {t : Table} (hn : 1 ≤ n)
    (hread : Table.read ⟨rules, standardTerminals, nonterminals, n, eof⟩ text = .ok t)
    (source : σ) :
    (∀ k c look, Launched t source k c look →
      IsStackPath t (stackItems c.frames) c.state ∧
      (∀ r c', Config.Reduces t c look r c' → ∃ rule s, t.rule r = .ok rule ∧
        stackItems c'.frames =
          popItems rule.size (stackItems c.frames) ++ [.symbol rule.lhs, .state s]) ∧
      (∀ size, popItems size (stackItems c.frames) = [] ∨
        ∃ s < n, (popItems size (stackItems c.frames)).getLast? = some (.state s)) ∧
      ∀ frames, .stack frames ∈ c.history → ∃ s, IsStackPath t (stackItems frames) s) ∧
    ∀ k o, Ends t source k o →
      (∀ e, o.verdict = .failed e →
        ((∃ cause, e = .scan cause) ∨ (∃ u, TokenSource.Offers source u ∧ e.RefusedAt u) ∨
          e.isTableError = true) ∧
        ((∀ i u, TokenSource.answer i source = .ok (some u) → u.isPlaceWritable = true) →
          (∃ cause, e = .scan cause) ∨ e.isParseError = true ∨ e.isTableError = true)) ∧
      ∀ line ∈ o.trace, (∃ r, line = (Event.reduced r).text) ∨
        ∃ items s, IsStackPath t items s ∧
          line = String.intercalate " " (items.map StackItem.text) := by
  have hshown := (Table.read_eq_ok_iff rfl).1 hread
  have ht := hshown.closed hn rfl
  refine ⟨fun k c look h => ?_, fun k o h => ?_⟩
  · have hstacked := h.stacked ht
    have hreported : ∀ frames, .stack frames ∈ c.history →
        ∃ s, IsStackPath t (stackItems frames) s :=
      fun frames hframes => ⟨_, (hstacked.history frames hframes).isStackPath ht.start⟩
    refine ⟨hstacked.frames.isStackPath ht.start, fun r c' hred => hred.stackItems_eq,
      fun size => ?_, hreported⟩
    rw [popItems_stackItems]
    cases hbelow : below? size.toNat c.frames with
    | none => exact .inl rfl
    | some below =>
      have hlt := (hstacked.frames.of_below? hbelow).topState_lt ht.start
      rw [hshown.states] at hlt
      exact .inr ⟨_, hlt, getLast?_stackItems below⟩
  · have hend := h.disciplined ht
    refine ⟨fun e he => ?_, fun line hline => ?_⟩
    · have hregular := hend.failure o e rfl he
      exact ⟨hregular, hregular.isParseError⟩
    · obtain ⟨event, hevent, rfl⟩ := List.mem_map.1 hline
      cases event with
      | reduced r => exact .inl ⟨r, rfl⟩
      | stack frames =>
        have hpath := hend.stacked.history frames (List.mem_reverse.1 hevent)
        exact .inr ⟨_, _, hpath.isStackPath ht.start, showStack_eq frames⟩

/-- The stack of a run of the standard table, when the first word of a program is read. -/
theorem stack_discipline_size :
    IsStackPath Table.standard [.state 0, .symbol "SIZE", .state 2] 2 := by
  have hread := Table.read_standard .lf none
  have hlaunched : Launched Table.standard [(⟨.size, "size", 1, 1⟩ : Token)] 1 _ _ :=
    .shift (.first rfl) ⟨2, rfl⟩ rfl
  exact ((stack_discipline (by decide : 1 ≤ 38) hread _).1 _ _ _ hlaunched).1

/-- A semicolon in the first column whose number cannot be written. -/
def farSemicolon : Token := ⟨.semicolon, ";", 1, Text.writeBound⟩

/-- At the start of the program the standard table refuses it, and neither a parse error comes of it
nor an error of the table. -/
theorem not_forall_failed_isParseError_or_isTableError :
    ¬ ∀ (rules : RuleBook) (nonterminals : List String) (eof : String) (n : Nat) (text : String)
      (t : Table), 1 ≤ n →
      Table.read ⟨rules, standardTerminals, nonterminals, n, eof⟩ text = .ok t →
      ∀ (ts : List Token) k o, Ends t ts k o → ∀ e, o.verdict = .failed e →
        (∃ cause, e = .scan cause) ∨ e.isParseError = true ∨ e.isTableError = true := by
  intro h
  have hends : Ends Table.standard [farSemicolon] 1 _ := .stay (.first rfl) nofun rfl
  rcases h _ _ _ _ _ _ (by decide : 1 ≤ 38) (Table.read_standard .lf none) _ _ _ hends
    (.unexpected farSemicolon 0 ["SIZE"]) rfl with ⟨_, he⟩ | hparse | htable
  · cases he
  · have hfar : ¬ farSemicolon.isPlaceWritable = true :=
      Token.not_isPlaceWritable (List.mem_cons_of_mem _ List.mem_cons_self)
    exact (Failure.refusedAt_unexpected farSemicolon _ _).not_isParseError nofun hfar hparse
  · cases htable

end CatAndMouse
