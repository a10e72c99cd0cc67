import CatAndMouse.Automaton.Reach
import CatAndMouse.Proofs.Tree.Leaf

/-!
# The automaton and its source

The automaton asks its source for a token when it starts and when it shifts, and
at no other time. `Launched` and `Ends` follow a run with the number of tokens
shifted and the number of answers taken. A run is determined by the tokens that
it looks at (`Launched.atPlace`, `Ends.atPlace`), for any table. So another source that
begins with the same answers takes the automaton to the same place
(`Launched.withSource`, `Ends.withSource`).
-/

namespace CatAndMouse

variable {σ τ : Type}

/-! ### Answers -/

namespace TokenSource

variable [TokenSource σ]

/-- The source after a number of answers. -/
def after : Nat → σ → σ
  | 0, s => s
  | n + 1, s => after n (next s).2

/-- What the source answers after a number of answers. -/
def answer (n : Nat) (s : σ) : Except ScanError (Option Token) := (next (after n s)).1

theorem after_succ (n : Nat) (s : σ) : after (n + 1) s = (next (after n s)).2 := by
  induction n generalizing s with
  | zero => rfl
  | succ n ih =>
    rw [after, ih]
    rfl

theorem after_list (n : Nat) (ts : List Token) : after n ts = ts.drop n := by
  induction n generalizing ts with
  | zero => rfl
  | succ n ih =>
    cases ts with
    | nil => exact (ih []).trans (by simp)
    | cons t ts => exact ih ts

/-- A list answers with its members. -/
theorem answer_list (n : Nat) (ts : List Token) : answer n ts = .ok ts[n]? := by
  rw [answer, after_list, ← List.head?_drop]
  cases ts.drop n <;> rfl

end TokenSource

/-- How far a source has been read: what is left of it, the line of the last token and how
many tokens were taken. -/
structure Place (σ : Type) where
  source : σ
  line : Int
  pulled : Nat

namespace Place

variable [TokenSource σ]

/-- The place after one more answer. -/
def advance (p : Place σ) : Place σ :=
  match TokenSource.next p.source with
  | (.ok (some t), source) => ⟨source, t.line, p.pulled + 1⟩
  | (_, source) => { p with source }

/-- The place after a number of answers. -/
def after : Nat → Place σ → Place σ
  | 0, p => p
  | n + 1, p => after n p.advance

/-- The token that comes next: that of the source, or the end of the input on the line of the
last token. -/
def look (p : Place σ) : Except ScanError Token :=
  (TokenSource.next p.source).1.map fun a => a.getD (Token.endAt p.line)

theorem after_succ (n : Nat) (p : Place σ) : after (n + 1) p = (after n p).advance := by
  induction n generalizing p with
  | zero => rfl
  | succ n ih =>
    rw [after, ih]
    rfl

theorem advance_source (p : Place σ) : p.advance.source = (TokenSource.next p.source).2 := by
  unfold advance
  generalize TokenSource.next p.source = r
  obtain ⟨_ | _ | _, _⟩ := r <;> rfl

theorem after_source (n : Nat) (p : Place σ) :
    (after n p).source = TokenSource.after n p.source := by
  induction n generalizing p with
  | zero => rfl
  | succ n ih => rw [after, ih, advance_source, TokenSource.after]

theorem after_pulled_list (n : Nat) (p : Place (List Token)) :
    (after n p).pulled = p.pulled + min n p.source.length := by
  induction n generalizing p with
  | zero => simp [after]
  | succ n ih =>
    rw [after, ih]
    obtain ⟨_ | ⟨t, ts⟩, line, pulled⟩ := p
    · simp [advance, TokenSource.next, takeToken]
    · simp [advance, TokenSource.next, takeToken]
      omega

theorem after_line_list (n : Nat) (p : Place (List Token)) :
    (after n p).line = ((p.source.take n).getLast?.map Token.line).getD p.line := by
  induction n generalizing p with
  | zero => rw [after, List.take_zero, List.getLast?_nil, Option.map_none, Option.getD_none]
  | succ n ih =>
    rw [after, ih]
    obtain ⟨_ | ⟨t, ts⟩, line, pulled⟩ := p
    · simp [advance, TokenSource.next, takeToken]
    · rw [List.take_succ_cons, List.getLast?_cons, Option.map_some, Option.getD_some]
      change ((ts.take n).getLast?.map Token.line).getD t.line = _
      cases (ts.take n).getLast? <;> rfl

variable [TokenSource τ]

/-- Places on the same line whose sources answer alike go on alike. -/
theorem advance_of_answer_eq {p : Place σ} {q : Place τ}
    (h : (TokenSource.next q.source).1 = (TokenSource.next p.source).1) (hline : q.line = p.line)
    (hpulled : q.pulled = p.pulled) :
    q.advance = ⟨(TokenSource.next q.source).2, p.advance.line, p.advance.pulled⟩ := by
  unfold advance
  revert h
  generalize TokenSource.next q.source = r
  generalize TokenSource.next p.source = r'
  obtain ⟨a, s⟩ := r
  obtain ⟨a', s'⟩ := r'
  rintro rfl
  obtain _ | _ | _ := a <;> simp [hline, hpulled]

/-- Places of sources that give the same answers go on alike. -/
theorem after_congr {p : Place σ} {q : Place τ} {n : Nat}
    (hs : ∀ i < n, TokenSource.answer i q.source = TokenSource.answer i p.source)
    (hline : q.line = p.line) (hpulled : q.pulled = p.pulled) :
    (after n q).line = (after n p).line ∧ (after n q).pulled = (after n p).pulled := by
  induction n with
  | zero => exact ⟨hline, hpulled⟩
  | succ n ih =>
    obtain ⟨hline, hpulled⟩ := ih fun i hi => hs i (Nat.lt_succ_of_lt hi)
    have hanswer := hs n (Nat.lt_succ_self n)
    rw [TokenSource.answer, TokenSource.answer, ← after_source, ← after_source] at hanswer
    rw [after_succ, after_succ, advance_of_answer_eq hanswer hline hpulled]
    exact ⟨rfl, rfl⟩

end Place

/-- The token that a run looks at after it has taken a number of answers. -/
def TokenSource.lookAt [TokenSource σ] (n : Nat) (s : σ) : Except ScanError Token :=
  ((Place.mk s 1 0).after n).look

/-- A run over a list looks at its members, and then at the end of the input on the line of the
last one; an empty list ends on the first line. -/
theorem TokenSource.lookAt_list (n : Nat) (ts : List Token) :
    lookAt n ts =
      .ok (ts[n]?.getD (Token.endAt (((ts.take n).getLast?.map Token.line).getD 1))) := by
  have hanswer := answer_list n ts
  rw [answer] at hanswer
  rw [lookAt, Place.look, Place.after_source, hanswer, Place.after_line_list]
  rfl

/-- Where two sources give the same answers a run looks at the same tokens. -/
theorem TokenSource.lookAt_congr [TokenSource σ] [TokenSource τ] {s : σ} {s' : τ} {n : Nat}
    (hs : ∀ i ≤ n, answer i s' = answer i s) : lookAt n s' = lookAt n s := by
  have hplace := Place.after_congr (p := ⟨s, 1, 0⟩) (q := ⟨s', 1, 0⟩) (n := n)
    (fun i hi => hs i (Nat.le_of_lt hi)) rfl rfl
  have hanswer := hs n (Nat.le_refl n)
  rw [answer, answer] at hanswer
  rw [lookAt, lookAt, Place.look, Place.look, Place.after_source, Place.after_source, hanswer,
    hplace.1]

/-- The configuration at another place. -/
def Config.atPlace (c : Config σ) (p : Place τ) : Config τ :=
  ⟨c.frames, c.fragments, c.applied, c.history, p.source, p.line, p.pulled⟩

/-- The configuration with another source. -/
def Config.withSource (c : Config σ) (s : τ) : Config τ :=
  ⟨c.frames, c.fragments, c.applied, c.history, s, c.line, c.pulled⟩

/-- How far the source of a configuration has been read. -/
def Config.place (c : Config σ) : Place σ := ⟨c.source, c.line, c.pulled⟩

theorem Config.withSource_eq {c : Config σ} {p : Place σ} (h : c.place = p) (s : τ) :
    c.withSource s = c.atPlace ⟨s, p.line, p.pulled⟩ := by
  subst h
  rfl

/-- The end of a run at another place. -/
def Outcome.atPlace (o : Outcome σ) (p : Place τ) : Outcome τ := ⟨o.verdict, o.config.atPlace p⟩

/-- The end of a run with another source. -/
def Outcome.withSource (o : Outcome σ) (s : τ) : Outcome τ := ⟨o.verdict, o.config.withSource s⟩

namespace Step

/-- The configuration that a step leads to, or in which it ends. -/
def config : Step σ → Config σ
  | .next c _ => c
  | .halt o => o.config

/-- The step at another place. -/
def atPlace (p : Place τ) : Step σ → Step τ
  | .next c look => .next (c.atPlace p) look
  | .halt o => .halt (o.atPlace p)

/-- The step with another source. -/
def withSource (s : τ) : Step σ → Step τ
  | .next c look => .next (c.withSource s) look
  | .halt o => .halt (o.withSource s)

theorem withSource_eq {x : Step σ} {p : Place σ} (h : x.config.place = p) (s : τ) :
    x.withSource s = x.atPlace ⟨s, p.line, p.pulled⟩ := by
  subst h
  cases x <;> rfl

end Step

namespace Config

variable {t : Table} {c c' : Config σ} {look look' : Token} {o : Outcome σ} {source : σ} {s : τ}
  {p : Place τ}

/-! ### Steps that ask for no token -/

/-- The next step shifts the token, and asks for another. -/
def Shifts (t : Table) (c : Config σ) (look : Token) : Prop :=
  ∃ state, t.actionOf c.state look.kind.symbol = .ok (.shift state)

theorem goTo_atPlace (t : Table) (c : Config σ) (look : Token) (number : Nat) (rule : Rule)
    (p : Place τ) :
    goTo t (c.atPlace p) look number rule = (goTo t c look number rule).atPlace p ∧
      (goTo t c look number rule).config.place = c.place := by
  unfold goTo
  simp only [atPlace]
  split
  · exact ⟨rfl, rfl⟩
  · split <;> exact ⟨rfl, rfl⟩

theorem reduce_atPlace (t : Table) (c : Config σ) (look : Token) (number : Nat) (p : Place τ) :
    reduce t (c.atPlace p) look number = (reduce t c look number).atPlace p ∧
      (reduce t c look number).config.place = c.place := by
  unfold reduce
  simp only [atPlace]
  split
  · exact ⟨rfl, rfl⟩
  · next rule _ =>
    split
    · exact ⟨rfl, rfl⟩
    · next fragments _ =>
      exact goTo_atPlace t { c with fragments, applied := number :: c.applied } look number rule p

theorem accept_atPlace (t : Table) (c : Config σ) (look : Token) (p : Place τ) :
    accept t (c.atPlace p) look = (accept t c look).atPlace p ∧
      (accept t c look).config.place = c.place := by
  unfold accept
  simp only [atPlace]
  split
  · split <;> exact ⟨rfl, rfl⟩
  · exact ⟨rfl, rfl⟩

variable [TokenSource σ] [TokenSource τ]

/-- A step that is no shift does not depend on the place. -/
theorem step_atPlace (h : ¬ Shifts t c look) (p : Place τ) :
    step t (c.atPlace p) look = (step t c look).atPlace p ∧
      (step t c look).config.place = c.place := by
  unfold step
  simp only [show (c.atPlace p).state = c.state from rfl]
  split
  · exact ⟨rfl, rfl⟩
  · next state ha => exact absurd ⟨state, ha⟩ h
  · exact reduce_atPlace t c look _ p
  · exact accept_atPlace t c look p
  · exact ⟨rfl, rfl⟩

/-- A step that is no shift does not look at the source. -/
theorem step_withSource (h : ¬ Shifts t c look) (s : τ) :
    step t (c.withSource s) look = (step t c look).withSource s ∧
      (step t c look).config.place = c.place := by
  obtain ⟨heq, hplace⟩ := step_atPlace h (⟨s, c.line, c.pulled⟩ : Place τ)
  exact ⟨heq.trans (Step.withSource_eq hplace s).symm, hplace⟩

/-! ### Steps that ask for a token -/

/-- **Taking a token**: the token comes next, and its leaf goes onto the fragments. It fails with
the source, or because the token lacks its leaf. -/
theorem pull_eq (c : Config σ) :
    c.pull =
      match c.place.look with
      | .error e => (.error (.scan e), c.atPlace c.place.advance)
      | .ok t =>
        match t.leaves with
        | .error e => (.error (.badLeaf t e), c.atPlace c.place.advance)
        | .ok us =>
          (.ok t, ({ c with fragments := us ++ c.fragments } : Config σ).atPlace
            c.place.advance) := by
  unfold pull
  simp only [place, atPlace, Place.look, Place.advance]
  generalize TokenSource.next c.source = r
  obtain ⟨_ | _ | t, _⟩ := r
  · rfl
  · rfl
  · simp only [Except.map, Option.getD_some, Token.leaves]
    cases t.kind.isLeaf with
    | true => cases Node.ofToken t <;> rfl
    | false => rfl

theorem pull_atPlace (c : Config σ) (h : p.look = c.place.look) :
    (c.atPlace p).pull = (c.pull.1, c.pull.2.atPlace p.advance) ∧
      c.pull.2.place = c.place.advance := by
  rw [pull_eq, pull_eq c, show (c.atPlace p).place = p from rfl, h]
  cases c.place.look with
  | error e => exact ⟨rfl, rfl⟩
  | ok t =>
    dsimp only
    cases t.leaves <;> exact ⟨rfl, rfl⟩

theorem shift_atPlace (c : Config σ) (look : Token) (state : Nat)
    (h : p.look = c.place.look) :
    (c.atPlace p).shift look state = (c.shift look state).atPlace p.advance ∧
      (c.shift look state).config.place = c.place.advance := by
  obtain ⟨heq, hplace⟩ :=
    pull_atPlace { c with frames := ⟨look.kind.symbol, state⟩ :: c.frames } h
  unfold shift
  rw [show ({ c.atPlace p with
    frames := ⟨look.kind.symbol, state⟩ :: (c.atPlace p).frames } : Config τ) =
      ({ c with frames := ⟨look.kind.symbol, state⟩ :: c.frames } : Config σ).atPlace p
    from rfl, heq]
  revert hplace
  generalize ({ c with frames := ⟨look.kind.symbol, state⟩ :: c.frames } : Config σ).pull = r
  obtain ⟨_ | _, c'⟩ := r <;> exact fun hplace => ⟨rfl, hplace⟩

/-- A shift depends on the token that comes next. -/
theorem step_atPlace_of_shifts (hc : Shifts t c look) (h : p.look = c.place.look) :
    step t (c.atPlace p) look = (step t c look).atPlace p.advance ∧
      (step t c look).config.place = c.place.advance := by
  obtain ⟨state, hstate⟩ := hc
  unfold step
  simp only [show (c.atPlace p).state = c.state from rfl, hstate]
  exact shift_atPlace c look state h

theorem launch_atPlace (h : (Place.mk s 1 0).look = (Place.mk source 1 0).look) :
    launch s = (launch source).atPlace (Place.mk s 1 0).advance ∧
      (launch source).config.place = (Place.mk source 1 0).advance := by
  obtain ⟨heq, hplace⟩ := pull_atPlace (initial source).recordStack h
  unfold launch
  rw [show (initial s).recordStack = (initial source).recordStack.atPlace ⟨s, 1, 0⟩ from rfl, heq]
  revert hplace
  generalize (initial source).recordStack.pull = r
  obtain ⟨_ | _, c'⟩ := r <;> exact fun hplace => ⟨rfl, hplace⟩

/-- A shift takes one answer from the source. -/
theorem step_withSource_of_shifts (hc : Shifts t c look)
    (h : (TokenSource.next s).1 = (TokenSource.next c.source).1) :
    step t (c.withSource s) look = (step t c look).withSource (TokenSource.next s).2 ∧
      (step t c look).config.place = c.place.advance := by
  have hlook : (Place.mk s c.line c.pulled).look = c.place.look := by
    rw [Place.look, h]
    rfl
  obtain ⟨heq, hplace⟩ := step_atPlace_of_shifts hc hlook
  refine ⟨heq.trans ?_, hplace⟩
  rw [Step.withSource_eq hplace,
    Place.advance_of_answer_eq (p := c.place) (q := ⟨s, c.line, c.pulled⟩) h rfl rfl]

theorem launch_withSource
    (h : (TokenSource.next s).1 = (TokenSource.next source).1) :
    launch s = (launch source).withSource (TokenSource.next s).2 ∧
      (launch source).config.place = (Place.mk source 1 0).advance := by
  have hlook : (Place.mk s 1 0).look = (Place.mk source 1 0).look := by
    rw [Place.look, h]
    rfl
  obtain ⟨heq, hplace⟩ := launch_atPlace hlook
  refine ⟨heq.trans ?_, hplace⟩
  rw [Step.withSource_eq hplace,
    Place.advance_of_answer_eq (p := ⟨source, 1, 0⟩) (q := ⟨s, 1, 0⟩) h rfl rfl]

/-! ### The token looked at -/

/-- A step that is no shift keeps the token. -/
theorem look_eq_of_step (h : ¬ Shifts t c look) (hstep : step t c look = .next c' look') :
    look' = look := by
  unfold step at hstep
  split at hstep
  · cases hstep
  · next state ha => exact absurd ⟨state, ha⟩ h
  · unfold reduce at hstep
    split at hstep
    · cases hstep
    · split at hstep
      · cases hstep
      · unfold goTo at hstep
        split at hstep
        · cases hstep
        · split at hstep <;> cases hstep
          rfl
  · unfold accept at hstep
    split at hstep
    · split at hstep <;> cases hstep
    · cases hstep
  · cases hstep

theorem look_eq_of_pull (h : c.pull = (.ok look, c')) :
    ∃ a, (TokenSource.next c.source).1 = .ok a ∧ look = a.getD (Token.endAt c'.line) := by
  unfold pull at h
  generalize TokenSource.next c.source = r at h ⊢
  obtain ⟨_ | _ | _, _⟩ := r
  · cases h
  · cases h
    exact ⟨none, rfl, rfl⟩
  · refine ⟨_, rfl, ?_⟩
    dsimp only at h
    split at h
    · split at h <;> cases h
      rfl
    · cases h
      rfl

theorem look_eq_of_shift {state : Nat} (h : c.shift look state = .next c' look') :
    ∃ a, (TokenSource.next c.source).1 = .ok a ∧ look' = a.getD (Token.endAt c'.line) := by
  unfold shift at h
  split at h
  · next hpull =>
    cases h
    obtain ⟨a, ha, hlook⟩ := look_eq_of_pull hpull
    exact ⟨a, ha, hlook⟩
  · cases h

theorem look_eq_of_launch (h : launch source = .next c look) :
    ∃ a, (TokenSource.next source).1 = .ok a ∧ look = a.getD (Token.endAt c.line) := by
  unfold launch at h
  split at h
  · next hpull =>
    cases h
    obtain ⟨a, ha, hlook⟩ := look_eq_of_pull hpull
    exact ⟨a, ha, hlook⟩
  · cases h

end Config

/-! ### Runs -/

section Runs

variable [TokenSource σ] [TokenSource τ]

/-- `Launched t source k c look`: launched on the source and driven by the table, the automaton
comes to `c`, looking at `look`, when `k` tokens have been shifted. -/
inductive Launched (t : Table) (source : σ) : Nat → Config σ → Token → Prop where
  | first {c : Config σ} {look : Token} (h : Config.launch source = .next c look) :
      Launched t source 0 c look
  | shift {k : Nat} {c c' : Config σ} {look look' : Token} (h : Launched t source k c look)
      (hs : Config.Shifts t c look) (hstep : Config.step t c look = .next c' look') :
      Launched t source (k + 1) c' look'
  | stay {k : Nat} {c c' : Config σ} {look look' : Token} (h : Launched t source k c look)
      (hs : ¬ Config.Shifts t c look) (hstep : Config.step t c look = .next c' look') :
      Launched t source k c' look'

/-- `Ends t source n o`: launched on the source, the automaton comes to the end `o`, and has
taken `n` answers from the source. -/
inductive Ends (t : Table) (source : σ) : Nat → Outcome σ → Prop where
  | first {o : Outcome σ} (h : Config.launch source = .halt o) : Ends t source 1 o
  | shift {k : Nat} {c : Config σ} {look : Token} {o : Outcome σ} (h : Launched t source k c look)
      (hs : Config.Shifts t c look) (hstep : Config.step t c look = .halt o) :
      Ends t source (k + 2) o
  | stay {k : Nat} {c : Config σ} {look : Token} {o : Outcome σ} (h : Launched t source k c look)
      (hs : ¬ Config.Shifts t c look) (hstep : Config.step t c look = .halt o) :
      Ends t source (k + 1) o

variable {t : Table} {source : σ} {k n : Nat} {c : Config σ} {look : Token} {o : Outcome σ}

/-- The source is asked once at the start and once for each token shifted. -/
theorem Launched.place_eq (h : Launched t source k c look) :
    c.place = (Place.mk source 1 0).after (k + 1) := by
  induction h with
  | first h =>
    have hplace := (Config.launch_withSource (rfl : (TokenSource.next source).1 = _)).2
    rwa [h] at hplace
  | @shift _ c _ _ _ _ hshift hstep ih =>
    obtain ⟨-, hplace⟩ := Config.step_withSource_of_shifts (s := c.source) hshift rfl
    rw [hstep, ih, ← Place.after_succ] at hplace
    exact hplace
  | stay _ hshift hstep ih =>
    obtain ⟨-, hplace⟩ := Config.step_withSource hshift source
    rw [hstep, ih] at hplace
    exact hplace

theorem Launched.source_eq (h : Launched t source k c look) :
    c.source = TokenSource.after (k + 1) source :=
  (congrArg Place.source h.place_eq).trans (Place.after_source _ _)

/-- The token looked at is the last answer of the source. -/
theorem Launched.look_eq (h : Launched t source k c look) :
    ∃ a, TokenSource.answer k source = .ok a ∧ look = a.getD (Token.endAt c.line) := by
  induction h with
  | first h => exact Config.look_eq_of_launch h
  | @shift k c _ _ _ h hshift hstep ih =>
    obtain ⟨state, hstate⟩ := hshift
    rw [TokenSource.answer, ← h.source_eq]
    simp only [Config.step, hstate] at hstep
    exact Config.look_eq_of_shift hstep
  | @stay _ c c' _ _ h hshift hstep ih =>
    obtain ⟨a, ha, hlook⟩ := ih
    have hline : c'.line = c.line :=
      congrArg Place.line ((Launched.stay h hshift hstep).place_eq.trans h.place_eq.symm)
    exact ⟨a, ha, by rw [Config.look_eq_of_step hshift hstep, hline, hlook]⟩

theorem Ends.place_eq (h : Ends t source n o) :
    o.config.place = (Place.mk source 1 0).after n := by
  cases h with
  | first h =>
    have hplace := (Config.launch_withSource (rfl : (TokenSource.next source).1 = _)).2
    rwa [h] at hplace
  | @shift _ c _ _ h hshift hstep =>
    obtain ⟨-, hplace⟩ := Config.step_withSource_of_shifts (s := c.source) hshift rfl
    rw [hstep, h.place_eq, ← Place.after_succ] at hplace
    exact hplace
  | stay h hshift hstep =>
    obtain ⟨-, hplace⟩ := Config.step_withSource hshift source
    rw [hstep, h.place_eq] at hplace
    exact hplace

open TokenSource in
/-- From a source at which it looks at the same tokens the automaton comes to the same
configuration. -/
theorem Launched.atPlace (h : Launched t source k c look) {s : τ}
    (hs : ∀ i ≤ k, lookAt i s = lookAt i source) :
    Launched t s k (c.atPlace ((Place.mk s 1 0).after (k + 1))) look := by
  induction h with
  | first h =>
    obtain ⟨heq, -⟩ := Config.launch_atPlace (hs 0 (Nat.le_refl 0))
    rw [h] at heq
    exact .first heq
  | @shift k c c' look look' h hshift hstep ih =>
    have hlook : ((Place.mk s 1 0).after (k + 1)).look = c.place.look := by
      rw [h.place_eq]
      exact hs (k + 1) (Nat.le_refl _)
    obtain ⟨heq, -⟩ := Config.step_atPlace_of_shifts hshift hlook
    rw [hstep, ← Place.after_succ] at heq
    exact .shift (ih fun i hi => hs i (Nat.le_succ_of_le hi)) hshift heq
  | @stay k _ _ _ _ _ hshift hstep ih =>
    obtain ⟨heq, -⟩ := Config.step_atPlace hshift ((Place.mk s 1 0).after (k + 1))
    rw [hstep] at heq
    exact .stay (ih hs) hshift heq

open TokenSource in
/-- **Only the tokens looked at matter**: from a source at which it looks at the same tokens the
automaton comes to the same end. -/
theorem Ends.atPlace (h : Ends t source n o) {s : τ}
    (hs : ∀ i < n, lookAt i s = lookAt i source) :
    Ends t s n (o.atPlace ((Place.mk s 1 0).after n)) := by
  cases h with
  | first h =>
    obtain ⟨heq, -⟩ := Config.launch_atPlace (hs 0 Nat.zero_lt_one)
    rw [h] at heq
    exact .first heq
  | @shift k c look _ h hshift hstep =>
    have hlook : ((Place.mk s 1 0).after (k + 1)).look = c.place.look := by
      rw [h.place_eq]
      exact hs (k + 1) (Nat.lt_succ_self _)
    obtain ⟨heq, -⟩ := Config.step_atPlace_of_shifts hshift hlook
    rw [hstep, ← Place.after_succ] at heq
    exact .shift (h.atPlace fun i hi => hs i (by omega)) hshift heq
  | @stay k _ _ _ h hshift hstep =>
    obtain ⟨heq, -⟩ := Config.step_atPlace hshift ((Place.mk s 1 0).after (k + 1))
    rw [hstep] at heq
    exact .stay (h.atPlace fun i hi => hs i (by omega)) hshift heq

open TokenSource in
/-- After the same answers a run stands on the same line. -/
theorem after_eq_of_answer_eq {s : τ} (hs : ∀ i < n, answer i s = answer i source) :
    (Place.mk s 1 0).after n =
      ⟨after n s, ((Place.mk source 1 0).after n).line, ((Place.mk source 1 0).after n).pulled⟩ := by
  obtain ⟨hline, hpulled⟩ := Place.after_congr (p := ⟨source, 1, 0⟩) (q := ⟨s, 1, 0⟩) hs rfl rfl
  rw [← hline, ← hpulled, ← Place.after_source n ⟨s, 1, 0⟩]

open TokenSource in
/-- From a source that begins with the same answers the automaton comes to the same
configuration. -/
theorem Launched.withSource (h : Launched t source k c look) {s : τ}
    (hs : ∀ i ≤ k, answer i s = answer i source) :
    Launched t s k (c.withSource (after (k + 1) s)) look := by
  rw [Config.withSource_eq h.place_eq,
    ← after_eq_of_answer_eq fun i hi => hs i (Nat.le_of_lt_succ hi)]
  exact h.atPlace fun i hi => lookAt_congr fun j hj => hs j (Nat.le_trans hj hi)

open TokenSource in
/-- **Only answers matter**: from a source that begins with the same answers the automaton
comes to the same end. -/
theorem Ends.withSource (h : Ends t source n o) {s : τ}
    (hs : ∀ i < n, answer i s = answer i source) : Ends t s n (o.withSource (after n s)) := by
  rw [Outcome.withSource, Config.withSource_eq h.place_eq, ← after_eq_of_answer_eq hs]
  exact h.atPlace fun i hi => lookAt_congr fun j hj => hs j (Nat.lt_of_le_of_lt hj hi)

/-! ### Ends and steps -/

theorem Launched.next {c' : Config σ} {look' : Token} (h : Launched t source k c look)
    (hstep : Config.step t c look = .next c' look') : ∃ k', Launched t source k' c' look' := by
  by_cases hs : Config.Shifts t c look
  · exact ⟨k + 1, .shift h hs hstep⟩
  · exact ⟨k, .stay h hs hstep⟩

theorem Launched.halt (h : Launched t source k c look) (hstep : Config.step t c look = .halt o) :
    ∃ n, Ends t source n o := by
  by_cases hs : Config.Shifts t c look
  · exact ⟨k + 2, .shift h hs hstep⟩
  · exact ⟨k + 1, .stay h hs hstep⟩

/-- What steps lead to from a place of the run belongs to the run. -/
theorem Launched.reaches {c' : Config σ} {look' : Token} (h : Launched t source k c look)
    (h' : Config.Reaches t c look c' look') : ∃ k', Launched t source k' c' look' := by
  induction h' generalizing k with
  | refl => exact ⟨k, h⟩
  | head hstep _ ih =>
    obtain ⟨k', h⟩ := h.next hstep
    exact ih h

theorem Launched.exists_reaches (h : Launched t source k c look) :
    ∃ c₀ look₀, Config.launch source = .next c₀ look₀ ∧ Config.Reaches t c₀ look₀ c look := by
  have hstep : ∀ {c c' : Config σ} {look look' : Token}, Config.step t c look = .next c' look' →
      (∃ c₀ look₀, Config.launch source = .next c₀ look₀ ∧ Config.Reaches t c₀ look₀ c look) →
      ∃ c₀ look₀, Config.launch source = .next c₀ look₀ ∧ Config.Reaches t c₀ look₀ c' look' := by
    rintro c c' look look' h ⟨c₀, look₀, hl, hr⟩
    exact ⟨c₀, look₀, hl, hr.trans (.head h (.refl ..))⟩
  induction h with
  | first h => exact ⟨_, _, h, .refl ..⟩
  | shift _ _ h ih => exact hstep h ih
  | stay _ _ h ih => exact hstep h ih

/-- The automaton comes to an end exactly if it comes there with some number of answers. -/
theorem haltsWith_iff_ends : t.HaltsWith source o ↔ ∃ n, Ends t source n o := by
  cases hl : (Config.launch source : Step σ) with
  | next c₀ look₀ =>
    simp only [Table.HaltsWith, hl]
    rw [Config.run_eq_some_iff]
    constructor
    · rintro ⟨c, look, hr, hstep⟩
      obtain ⟨k, hk⟩ := (Launched.first hl).reaches hr
      exact hk.halt hstep
    · have hend : ∀ {k : Nat} {c : Config σ} {look : Token}, Launched t source k c look →
          Config.step t c look = .halt o →
          ∃ c look, Config.Reaches t c₀ look₀ c look ∧ Config.step t c look = .halt o := by
        intro k c look h hstep
        obtain ⟨c₁, look₁, hl', hr⟩ := h.exists_reaches
        rw [hl] at hl'
        cases hl'
        exact ⟨c, look, hr, hstep⟩
      rintro ⟨n, h | ⟨h, -, hstep⟩ | ⟨h, -, hstep⟩⟩
      · rw [hl] at h
        cases h
      · exact hend h hstep
      · exact hend h hstep
  | halt o' =>
    simp only [Table.HaltsWith, hl]
    constructor
    · rintro rfl
      exact ⟨1, .first hl⟩
    · rintro ⟨n, h | ⟨h, -, -⟩ | ⟨h, -, -⟩⟩
      · rw [hl] at h
        cases h
        rfl
      all_goals
        obtain ⟨_, _, hl', -⟩ := h.exists_reaches
        rw [hl] at hl'
        cases hl'

end Runs

end CatAndMouse
