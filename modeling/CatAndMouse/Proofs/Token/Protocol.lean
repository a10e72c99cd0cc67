import CatAndMouse.Proofs.Automaton.Steps
import CatAndMouse.Proofs.Token.Places

/-!
# Using a scanner

A scanner can be looked at, read, iterated over, reset and handed to the automaton, in
any order (`Scanner.Does`). What it answers is said here without its state. A text
delivers a stream: tokens up to the end of the input, or up to an error. A cursor counts
the answers that were taken from a stream since the last reset, and what is due at a
cursor is the answer of that number (`Cursor.Does`).

A scanner and a cursor cannot be told apart (`scanner_follows_stream`): looking at a
token takes nothing, a reset leaves nothing behind, and an error comes again whenever
more is asked for. Of a text that is said to begin too far off no lexing error comes
(`not_forall_isLexError`).
-/

namespace CatAndMouse

open TokenSource

variable {ids : Text.IdentClasses}

/-! ### Cursors -/

/-- A place in a stream: how many answers have been taken from it. -/
structure Cursor where
  stream : TokenStream
  taken : Nat

namespace Cursor

/-- The cursor at the start of a text. -/
def startAt (ids : Text.IdentClasses) (text : String) (p : Position) : Cursor :=
  ⟨.ofText ids text p, 0⟩

/-- The next answer. -/
def answer (c : Cursor) : Answer := c.stream.answer c.taken

/-- The cursor after a number of answers. -/
def skip (c : Cursor) (n : Nat) : Cursor := { c with taken := c.taken + n }

instance : TokenSource Cursor where
  next c := (c.answer, c.skip 1)
  bound c := c.stream.tokens.length - c.taken

end Cursor

/-! ### Sessions -/

/-- What can be done with a scanner. -/
inductive Call where
  /-- Look at the next token. -/
  | peek
  /-- Take the next token. -/
  | next
  /-- Take the next token of an iteration. -/
  | iterate
  /-- Start on another text. -/
  | reset (text : String) (p : Position)
  /-- Run the automaton with a table. -/
  | derive (t : Table)
deriving DecidableEq

/-- What comes of a call. -/
inductive Response where
  | token (t : Token)
  /-- There are no more tokens. -/
  | nothing
  /-- The iteration is over. -/
  | stop
  | error (e : ScanError)
  /-- The scanner has been reset. -/
  | ready
  /-- The automaton has come to an end; what it was answered on its way. -/
  | ended (answers : List Answer) (o : Outcome Unit)

/-- The response that gives an answer, where nothing is given as `atEnd`. -/
def Response.ofAnswer (atEnd : Response) : Answer → Response
  | .ok (some t) => .token t
  | .ok none => atEnd
  | .error e => .error e

/-- `s.Does call response s'`: called upon, the scanner `s` gives the response and becomes `s'`. -/
inductive Scanner.Does : Scanner ids → Call → Response → Scanner ids → Prop where
  | peek (s : Scanner ids) : Does s .peek (.ofAnswer .nothing s.peek.1) s.peek.2
  | next (s : Scanner ids) : Does s .next (.ofAnswer .nothing s.next.1) s.next.2
  | iterate (s : Scanner ids) : Does s .iterate (.ofAnswer .stop s.next.1) s.next.2
  | reset (s : Scanner ids) (text : String) (p : Position) :
      Does s (.reset text p) .ready (s.reset text p)
  | derive {s : Scanner ids} {t : Table} {n : Nat} {o : Outcome (Scanner ids)} (h : Ends t s n o) :
      Does s (.derive t) (.ended ((List.range n).map fun i => TokenSource.answer i s)
        (o.withSource ())) o.config.source

/-- `Does ids c call response c'`: at the cursor `c` the response is due to the call, and `c'` comes
next. -/
inductive Cursor.Does (ids : Text.IdentClasses) : Cursor → Call → Response → Cursor → Prop where
  | peek (c : Cursor) : Does ids c .peek (.ofAnswer .nothing c.answer) c
  | next (c : Cursor) : Does ids c .next (.ofAnswer .nothing c.answer) (c.skip 1)
  | iterate (c : Cursor) : Does ids c .iterate (.ofAnswer .stop c.answer) (c.skip 1)
  | reset (c : Cursor) (text : String) (p : Position) :
      Does ids c (.reset text p) .ready (startAt ids text p)
  | derive {c : Cursor} {t : Table} {n : Nat} {o : Outcome Cursor} (h : Ends t c n o) :
      Does ids c (.derive t) (.ended ((List.range n).map fun i => c.stream.answer (c.taken + i))
        (o.withSource ())) (c.skip n)

/-- Calls with their responses. -/
abbrev Transcript := List (Call × Response)

/-- The transcript without the calls that only look. -/
def Transcript.withoutPeeks (tr : Transcript) : Transcript := tr.filter fun e => e.1 ≠ .peek

/-- `Session D s tr s'`: call after call, `s` becomes `s'`. -/
inductive Session {σ : Type} (D : σ → Call → Response → σ → Prop) :
    σ → Transcript → σ → Prop where
  | nil (s : σ) : Session D s [] s
  | cons {s s' s'' : σ} {call : Call} {response : Response} {tr : Transcript}
      (first : D s call response s') (rest : Session D s' tr s'') :
      Session D s ((call, response) :: tr) s''

/-- What steps can do on one side, sessions can do on the other. -/
theorem Session.simulate {σ τ : Type} {D : σ → Call → Response → σ → Prop}
    {E : τ → Call → Response → τ → Prop} {R : σ → τ → Prop}
    (hstep : ∀ {s c call response s'}, R s c → D s call response s' →
      ∃ c', E c call response c' ∧ R s' c')
    {s s' : σ} {c : τ} {tr : Transcript} (hR : R s c) (h : Session D s tr s') :
    ∃ c', Session E c tr c' ∧ R s' c' := by
  induction h generalizing c with
  | nil => exact ⟨c, .nil c, hR⟩
  | cons first _ ih =>
    obtain ⟨c₁, hfirst, hR₁⟩ := hstep hR first
    obtain ⟨c', hrest, hR'⟩ := ih hR₁
    exact ⟨c', .cons hfirst hrest, hR'⟩

/-! ### Answers -/

theorem Cursor.after_eq (n : Nat) (c : Cursor) : after n c = c.skip n := by
  induction n with
  | zero => rfl
  | succ n ih =>
    rw [TokenSource.after_succ, ih]
    rfl

theorem Cursor.answer_eq (i : Nat) (c : Cursor) :
    TokenSource.answer i c = c.stream.answer (c.taken + i) := by
  rw [TokenSource.answer, Cursor.after_eq]
  rfl

namespace Scanner

variable {s s' : Scanner ids} {e : ScanError}

theorem ahead_of_peek {t : Token} (h : s.peek = (.ok (some t), s')) : s'.ahead = some t := by
  unfold peek at h
  split at h
  · next hahead =>
    cases h
    exact hahead
  · split at h
    · cases h
    · split at h <;> cases h
      rfl

theorem peek_eq_none (h : s.peek = (.ok none, s')) : s' = s := by
  unfold peek at h
  split at h
  · cases h
  · split at h
    · cases h
      rfl
    · split at h <;> cases h

/-- **Looking takes nothing**: what comes next is the same after a look, and the look shows it. -/
theorem next_peek (s : Scanner ids) : s.peek.1 = s.next.1 ∧ s.peek.2.next = s.next := by
  rcases hpeek : s.peek with ⟨e | _ | t, s'⟩
  · have hnext : s.next = (.error e, s') := by rw [next, hpeek]
    rw [hnext]
    exact ⟨rfl, next_of_error hnext⟩
  · obtain rfl := peek_eq_none hpeek
    exact ⟨by rw [next, hpeek], rfl⟩
  · have hahead := ahead_of_peek hpeek
    have hpeek' : s'.peek = (.ok (some t), s') := by rw [peek, hahead]
    exact ⟨by rw [next, hpeek], by rw [next, next, hpeek', hpeek]⟩

end Scanner

/-! ### Scanners follow streams -/

/-- From here on the scanner gives the answers that the cursor has before it. -/
def Follows (s : Scanner ids) (c : Cursor) : Prop :=
  ∀ i, TokenSource.answer i s = c.stream.answer (c.taken + i)

namespace Follows

variable {s s' : Scanner ids} {c c' : Cursor} {call : Call} {response : Response}

/-- A new scanner stands at the start of the stream. -/
theorem startAt (ids : Text.IdentClasses) (text : String) (p : Position) :
    Follows (.startAt ids text p) (.startAt ids text p) := fun i => by
  rw [Scanner.answer_startAt]
  exact congrArg _ (Nat.zero_add i).symm

theorem next_eq (h : Follows s c) : s.next.1 = c.answer := h 0

theorem after (h : Follows s c) (n : Nat) : Follows (TokenSource.after n s) (c.skip n) := by
  intro i
  rw [← TokenSource.answer_add, h, ← Nat.add_assoc]
  rfl

theorem next (h : Follows s c) : Follows s.next.2 (c.skip 1) := h.after 1

theorem peek (h : Follows s c) : Follows s.peek.2 c := by
  intro i
  obtain ⟨-, hnext⟩ := Scanner.next_peek s
  cases i with
  | zero => exact (congrArg Prod.fst hnext).trans (h 0)
  | succ i => exact (answer_succ (hnext : TokenSource.next _ = _) i).trans (h (i + 1))

theorem peek_eq (h : Follows s c) : s.peek.1 = c.answer :=
  (Scanner.next_peek s).1.trans h.next_eq

/-- What the scanner does is due at the cursor. -/
theorem exists_cursor (h : Follows s c) (hd : s.Does call response s') :
    ∃ c', Cursor.Does ids c call response c' ∧ Follows s' c' := by
  cases hd with
  | peek =>
    rw [h.peek_eq]
    exact ⟨c, .peek c, h.peek⟩
  | next =>
    rw [h.next_eq]
    exact ⟨c.skip 1, .next c, h.next⟩
  | iterate =>
    rw [h.next_eq]
    exact ⟨c.skip 1, .iterate c, h.next⟩
  | reset text p => exact ⟨_, .reset c text p, .startAt ids text p⟩
  | @derive t n o hends =>
    have hends' := hends.withSource (s := c) fun i _ => (Cursor.answer_eq i c).trans (h i).symm
    have hsource : o.config.source = TokenSource.after n s :=
      (congrArg Place.source hends.place_eq).trans (Place.after_source _ _)
    rw [hsource, List.map_congr_left fun i _ => h i]
    exact ⟨c.skip n, .derive hends', h.after n⟩

/-- What is due at the cursor the scanner does. -/
theorem exists_scanner (h : Follows s c) (hd : Cursor.Does ids c call response c') :
    ∃ s', s.Does call response s' ∧ Follows s' c' := by
  cases hd with
  | peek =>
    rw [← h.peek_eq]
    exact ⟨_, .peek s, h.peek⟩
  | next =>
    rw [← h.next_eq]
    exact ⟨_, .next s, h.next⟩
  | iterate =>
    rw [← h.next_eq]
    exact ⟨_, .iterate s, h.next⟩
  | reset text p => exact ⟨_, .reset s text p, .startAt ids text p⟩
  | @derive t n o hends =>
    have hends' := hends.withSource (s := s) fun i _ => (h i).trans (Cursor.answer_eq i c).symm
    rw [← List.map_congr_left fun i _ => h i]
    exact ⟨_, .derive hends', h.after n⟩

end Follows

namespace Cursor

variable {c c₁ c₂ : Cursor} {tr tr' : Transcript}

/-- At a cursor one response is due to a call. -/
theorem Does.unique {call : Call} {r₁ r₂ : Response} (h₁ : Does ids c call r₁ c₁)
    (h₂ : Does ids c call r₂ c₂) : r₁ = r₂ ∧ c₁ = c₂ := by
  cases h₁ with
  | derive hends =>
    cases h₂ with
    | derive hends' =>
      obtain ⟨rfl, rfl⟩ := hends.unique hends'
      exact ⟨rfl, rfl⟩
  | _ =>
    cases h₂
    exact ⟨rfl, rfl⟩

/-- The same calls get the same responses. -/
theorem session_unique (h : Session (Does ids) c tr c₁) (h' : Session (Does ids) c tr' c₂)
    (hcalls : tr'.map Prod.fst = tr.map Prod.fst) : tr' = tr := by
  induction h generalizing tr' with
  | nil => exact List.map_eq_nil_iff.1 hcalls
  | cons first _ ih =>
    cases h' with
    | nil => cases hcalls
    | cons first' rest' =>
      simp only [List.map_cons, List.cons.injEq] at hcalls
      obtain ⟨rfl, hcalls⟩ := hcalls
      obtain ⟨rfl, rfl⟩ := first.unique first'
      rw [ih rest' hcalls]

/-- Calls that only look can be left out. -/
theorem session_withoutPeeks (h : Session (Does ids) c tr c₁) :
    Session (Does ids) c tr.withoutPeeks c₁ := by
  induction h with
  | nil => exact .nil _
  | @cons c c' _ call response tr first _ ih =>
    by_cases hcall : call = .peek
    · subst hcall
      cases first
      rwa [Transcript.withoutPeeks, List.filter_cons_of_neg (by simp)]
    · rw [Transcript.withoutPeeks, List.filter_cons_of_pos (by simpa using hcall)]
      exact .cons first ih

end Cursor

/-- **The scanner follows its stream.** The tokens of a text go up to the only end of the input,
or an error follows them; it is a lexing error exactly if its line and its column can be written,
and they can if the text does not begin too far off. Whatever is done with a scanner of the text, in
whatever order, the responses are those that are due at a cursor in the stream of the text, or of
the text of the last reset; and what is due can be had. Wherever this leads, the answers that are
still to come, also in a run that does not end, are those from the cursor on. And if the calls that
only look are left out, the responses to the others stay the same. -/
theorem scanner_follows_stream (ids : Text.IdentClasses) (text : String) (p : Position) :
    (TokenStream.ofText ids text p).Closed ∧
    (∀ e ∈ (TokenStream.ofText ids text p).error,
      (e.isLexError = true ↔ Text.isWritable e.line = true ∧ Text.isWritable e.col = true) ∧
      (p.line.natAbs + text.length < Text.writeBound →
        p.col.natAbs + text.length < Text.writeBound → e.isLexError = true)) ∧
    (∀ tr s, Session Scanner.Does (.startAt ids text p) tr s →
      ∃ c, Session (Cursor.Does ids) (.startAt ids text p) tr c ∧
        ∀ i, TokenSource.answer i s = c.stream.answer (c.taken + i)) ∧
    (∀ tr c, Session (Cursor.Does ids) (.startAt ids text p) tr c →
      ∃ s, Session Scanner.Does (.startAt ids text p) tr s) ∧
    ∀ tr s, Session Scanner.Does (.startAt ids text p) tr s →
      (∃ s', Session Scanner.Does (.startAt ids text p) tr.withoutPeeks s') ∧
      ∀ tr' s', Session Scanner.Does (.startAt ids text p) tr' s' →
        tr'.map Prod.fst = tr.withoutPeeks.map Prod.fst → tr' = tr.withoutPeeks := by
  have hstart := Follows.startAt ids text p
  have htoCursor : ∀ tr s, Session Scanner.Does (.startAt ids text p) tr s →
      ∃ c, Session (Cursor.Does ids) (.startAt ids text p) tr c ∧ Follows s c :=
    fun tr s h => h.simulate Follows.exists_cursor hstart
  have htoScanner : ∀ tr c, Session (Cursor.Does ids) (.startAt ids text p) tr c →
      ∃ s, Session Scanner.Does (.startAt ids text p) tr s := by
    intro tr c h
    obtain ⟨s, hs, -⟩ := Session.simulate (D := Cursor.Does ids) (E := Scanner.Does)
      (R := fun c s => Follows s c) (fun h hd => h.exists_scanner hd) hstart h
    exact ⟨s, hs⟩
  refine ⟨TokenStream.closed_ofText text p, fun e he => ⟨ScanError.isLexError_iff,
    fun hline hcol => (TokenStream.writable_ofText ids text p hline hcol).2 e he⟩, htoCursor,
    htoScanner, fun tr s h => ?_⟩
  obtain ⟨c, hc, -⟩ := htoCursor tr s h
  have hwithout := Cursor.session_withoutPeeks hc
  refine ⟨htoScanner _ c hwithout, fun tr' s' h' hcalls => ?_⟩
  obtain ⟨c', hc', -⟩ := htoCursor tr' s' h'
  exact Cursor.session_unique hwithout hc' hcalls

/-- A text is said to begin in the first line whose number cannot be written. What follows its
tokens, of which there are none, is no lexing error. -/
theorem not_forall_isLexError :
    ¬ ∀ ids text p, ∀ e ∈ (TokenStream.ofText ids text p).error, e.isLexError = true := by
  intro h
  have hnext : (Scanner.startAt .unicode14 "@" ⟨Text.writeBound, 1⟩).next =
      (.error ⟨.unexpected '@', Text.writeBound, 1, "@\n^"⟩,
        .startAt .unicode14 "@" ⟨Text.writeBound, 1⟩) := by rfl
  have herror : (TokenStream.ofText .unicode14 "@" ⟨Text.writeBound, 1⟩).error =
      some ⟨.unexpected '@', Text.writeBound, 1, "@\n^"⟩ := by
    rw [TokenStream.ofText, Scanner.all_of_error hnext]
  have hlex := h .unicode14 "@" ⟨Text.writeBound, 1⟩ _ herror
  exact Text.not_isWritable_writeBound (ScanError.isLexError_iff.1 hlex).1

end CatAndMouse
