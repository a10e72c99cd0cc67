import CatAndMouse.Proofs.Automaton.Consistency
import CatAndMouse.Proofs.Automaton.Tables
import CatAndMouse.Proofs.EarliestError
import CatAndMouse.Proofs.Table.Following
import CatAndMouse.Proofs.Table.Written

/-!
# What an error expects

When the standard table refuses a token, it reports the terminals that its state allows. Are these
the terminals that continue what was read before to a program? `standard_expected_exact` says that
they are, but for two states.

A token that a state allows continues what has been read (`Path.viable_of_actionAt`): before it,
rules are used until it is shifted, and what has been shifted always begins a program. The
exception are the states after a semicolon. All lists of statements share them, so both tokens that
end lists are allowed there, though only one of them fits.

A token that continues what has been read is allowed (`Launched.actionAt_ne_error`), even though the
state may have been reached by a rule that was used because of the token that is refused. Only a
list can have been completed in this way. The rule would have been used before the other token as
well, and then the automaton would have refused that token in the same state.
-/

namespace CatAndMouse

/-! ### What a state allows -/

theorem Table.mem_standard_expected_iff {s : Nat} {k : Kind} :
    k.symbol ∈ standard.expected s ↔ actionAt s k ≠ .error := by
  rw [standard_sound.shownBy_lines.expected_eq, List.mem_filter, standard_actionOf]
  have hmem : k.symbol ∈ standard.symbols.terminals := List.mem_map_of_mem k.mem_all
  simp [hmem]

theorem Table.exists_kind_of_mem_expected {s : Nat} {x : String}
    (h : x ∈ standard.expected s) : ∃ k : Kind, k.symbol = x := by
  obtain ⟨k, -, hk⟩ := List.mem_map.1 ((standard.expected_sublist s).subset h)
  exact ⟨k, hk⟩

theorem standardTerminals_nodup : standardTerminals.Nodup := by decide

/-! ### Allowed tokens continue a program -/

/-- **What is allowed continues a program**: a token that is no error in the last state of a path
begins, after what has been read as the parts of the path, the rest of a program. After a semicolon
this is said only of tokens that end no list. -/
theorem Path.viable_of_actionAt {frames : List Frame} {xs : List Part} {rs : List Nat}
    {ts : List Token} {vs : List Node} {k : Kind} (hpath : Path frames xs)
    (hparse : Parses xs.reverse rs ts vs) (ha : actionAt (topState frames) k ≠ .error)
    (hk : AfterStatement (topState frames) → k ≠ .halt ∧ k ≠ .done) :
    Viable (symbolsOf ts ++ [k.symbol]) := by
  obtain ⟨us, hus⟩ := Token.exists_leaves_sample k
  have hgood : ∀ t ∈ ts ++ [Token.sample k], ∃ us, t.leaves = .ok us := by
    intro t ht
    rcases List.mem_append.1 ht with ht | ht
    · exact hparse.exists_leaves t ht
    · exact ⟨us, List.mem_singleton.1 ht ▸ hus⟩
  rw [show k.symbol = (Token.sample k).kind.symbol from rfl, ← symbolsOf_concat,
    viable_symbolsOf_iff hgood]
  -- each rule that is used is one more, and there are no more rules than tokens
  obtain ⟨n, hn⟩ : ∃ n, ts.length < n + rs.length := ⟨ts.length + 1, by omega⟩
  induction n generalizing frames xs rs vs with
  | zero =>
    have hle := hparse.length_rules_le
    omega
  | succ n ih =>
    cases hact : actionAt (topState frames) k with
    | error => exact absurd hact ha
    | shift s =>
      have hpath' : Path (⟨k.symbol, s⟩ :: frames) (.token k :: xs) :=
        .cons (x := .token k) hpath (edge_token_eq_some_iff.2 hact)
      have hparse' := hparse.snoc_token hus
      rw [← List.reverse_cons] at hparse'
      exact .inl (hpath'.viable hparse')
    | accept =>
      obtain ⟨hstate, rfl⟩ := eq_of_accept hact
      rw [hpath.eq_program_of_topState hstate] at hparse
      obtain ⟨root, rfl⟩ := hparse.exists_root
      exact .inr ⟨ts, _, rfl, rfl, rs, root, hparse⟩
    | reduce m =>
      obtain ⟨r, hr, rfl, _, _, _, -, -, hgoto, _, hpath', _, _, _, -, -, hparse'⟩ :=
        hpath.reduce hparse hact
      refine ih hpath' hparse' (fun herr => ?_) (fun hafter => ?_) ?_
      · -- the token is refused only after a list, and then it ends one
        obtain ⟨hlist, hends⟩ := eq_of_actionAt_target hgoto (mem_follow_of_reduce hr hact) herr
        obtain ⟨hhalt, hdone⟩ := hk (afterStatement_of_reduce hr hact hlist)
        exact hends.elim hhalt hdone
      · exact absurd (eq_semicolon_of_edge (x := .phrase r.phrase) hgoto hafter) nofun
      · rw [List.length_append, List.length_singleton]
        omega

/-! ### Tokens that continue a program are allowed -/

/-- Whatever token comes after the tokens `before`, the automaton meets it with the frames. -/
def Waits (before : List Token) (frames : List Frame) : Prop :=
  ∀ look, (∃ us, look.leaves = .ok us) →
    ∃ c, Launched Table.standard (before ++ [look]) before.length c look ∧ c.frames = frames

theorem Waits.launch : Waits [] [] := by
  rintro look ⟨us, hus⟩
  rcases Reading.launch [look] with ⟨c, look', hlaunch, h, -⟩ | ⟨c, t, e, -, ht, he⟩
  · obtain rfl : look' = look := h.look_eq
    exact ⟨c, h.launched, Config.frames_eq_of_launch hlaunch⟩
  · cases ht
    rw [hus] at he
    cases he

/-- The automaton shifts a token before it asks for the next. -/
theorem Launched.waits_shift {ts : List Token} {k s : Nat} {c : Config (List Token)} {look : Token}
    (h : Launched Table.standard ts k c look) (ha : actionAt c.state look.kind = .shift s) :
    Waits (ts.take (k + 1)) (⟨look.kind.symbol, s⟩ :: c.frames) := by
  rintro next ⟨us, hus⟩
  obtain ⟨xs, values, hread⟩ := h.exists_reading
  have hlt : k < ts.length := (List.getElem?_eq_some_iff.1 (hread.getElem?_of_shift ha)).1
  have hlen : (ts.take (k + 1)).length = k + 1 := by
    rw [List.length_take]
    omega
  have hsame : ∀ i ≤ k, TokenSource.answer i (ts.take (k + 1) ++ [next]) =
      TokenSource.answer i ts := by
    intro i hi
    rw [TokenSource.answer_list, TokenSource.answer_list,
      List.getElem?_append_left (by omega), List.getElem?_take_of_lt (by omega)]
  have h' := h.withSource hsame
  set c₀ := c.withSource (TokenSource.after (k + 1) (ts.take (k + 1) ++ [next]))
  have hahead : c₀.ahead = next := by
    rw [h'.ahead_list, List.getElem?_append_right (by omega), hlen, Nat.sub_self]
    rfl
  obtain ⟨c', hstep, hframes, -⟩ := Config.shift_of_leaves (hahead ▸ hus : c₀.ahead.leaves = _)
    look s
  have ha₀ : actionAt c₀.state look.kind = .shift s := ha
  have hstep₀ : Config.step Table.standard c₀ look = .next c' next := by
    rw [Config.step_standard, ha₀, ← hahead]
    exact hstep
  rw [hlen]
  exact ⟨c', .shift h' (Config.shifts_standard_iff.2 ⟨s, ha₀⟩) hstep₀, hframes⟩

/-- Wherever a run comes, the automaton has these frames before any other token that might have
come next, or it has just used a rule. -/
theorem Launched.waits_or_reduces {ts : List Token} {k : Nat} {c : Config (List Token)}
    {look : Token} (h : Launched Table.standard ts k c look) :
    Waits (ts.take k) c.frames ∨
      ∃ c₀ n, Launched Table.standard ts k c₀ look ∧ Config.Reduces Table.standard c₀ look n c := by
  cases h with
  | first h =>
    rw [Config.frames_eq_of_launch h]
    exact .inl .launch
  | shift h hshifts hstep =>
    obtain ⟨s, ha⟩ := Config.shifts_standard_iff.1 hshifts
    rw [Config.step_standard, ha] at hstep
    rw [Config.frames_eq_of_shift hstep]
    exact .inl (h.waits_shift ha)
  | stay h hshifts hstep =>
    rcases Config.step_eq_next hstep with ⟨s, ha, -⟩ | ⟨rfl, n, hred⟩
    · exact absurd ⟨s, ha⟩ hshifts
    · exact .inr ⟨_, n, h, hred⟩

/-- What a rule of the standard table leaves. -/
theorem Config.Reduces.exists_target {c c' : Config (List Token)} {look : Token} {n : Nat}
    (h : Reduces Table.standard c look n c') :
    ∃ r ∈ phraseRules, r.number = n ∧ actionAt c.state look.kind = .reduce n ∧
      ∃ below, gotoAt (topState below) r.phrase = some c'.state := by
  obtain ⟨haction, hrule, -, -, hgoto⟩ := h
  rw [Table.standard_actionOf] at haction
  have ha := Except.ok.inj haction
  obtain ⟨-, r, hr, rfl, -⟩ := underway_of_reduce ha
  rw [Table.standard_rule (mem_standardProductions_iff.2 ⟨r, hr, rfl, rfl⟩)] at hrule
  cases hrule
  rw [show r.production.rule.lhs = r.phrase.symbol from rfl, Table.standard_gotoOf] at hgoto
  exact ⟨r, hr, rfl, ha, _, Except.ok.inj hgoto⟩

/-- A token that is refused continues no program. -/
theorem Launched.not_viable {before : List Token} {c : Config (List Token)} {look : Token}
    (h : Launched Table.standard (before ++ [look]) before.length c look)
    (ha : actionAt c.state look.kind = .error) :
    ¬ Viable (symbolsOf before ++ [look.kind.symbol]) := by
  obtain ⟨xs, values, hread⟩ := h.exists_reading
  obtain ⟨us, hus, -⟩ := hread.leaves
  have hshifts : ¬ Config.Shifts Table.standard c look := by
    rw [Config.shifts_standard_iff, ha]
    nofun
  have hstep : Config.step Table.standard c look =
      Config.unexpected Table.standard c.recordStack look := by
    rw [Config.step_standard, ha]
  have hnot := not_viable_of_unexpected (.stay h hshifts hstep) nofun ⟨_, h.look_list⟩
    hread.parse.exists_leaves ⟨us, hus⟩
  rwa [List.take_left, symbolsOf_concat] at hnot

/-- A token that is refused after a rule was used comes after a semicolon, and this rule is the only
one used since. -/
theorem Launched.waits_of_reduces {ts : List Token} {k n : Nat} {c c' : Config (List Token)}
    {look : Token} (h : Launched Table.standard ts k c look)
    (hred : Config.Reduces Table.standard c look n c')
    (ha : actionAt c'.state look.kind = .error) :
    AfterStatement c.state ∧ Waits (ts.take k) c.frames := by
  obtain ⟨r, hr, rfl, hact, below, hgoto⟩ := hred.exists_target
  obtain ⟨hlist, -⟩ := eq_of_actionAt_target hgoto (mem_follow_of_reduce hr hact) ha
  have hafter := afterStatement_of_reduce hr hact hlist
  refine ⟨hafter, h.waits_or_reduces.resolve_right ?_⟩
  rintro ⟨c₀, n₀, -, hred₀⟩
  obtain ⟨r₀, -, -, -, below₀, hgoto₀⟩ := hred₀.exists_target
  exact absurd (eq_semicolon_of_edge (x := .phrase r₀.phrase) hgoto₀ hafter) nofun

/-- **What continues a program is allowed**: where a token is refused, a token that would have
continued what was read before is no error. -/
theorem Launched.actionAt_ne_error {ts : List Token} {k : Nat} {c : Config (List Token)}
    {look : Token} {x : Kind} (h : Launched Table.standard ts k c look)
    (ha : actionAt c.state look.kind = .error)
    (hx : Viable (symbolsOf (ts.take k) ++ [x.symbol])) : actionAt c.state x ≠ .error := by
  intro herr
  have hgood := Token.exists_leaves_sample x
  -- in the same state the automaton would refuse the other token
  have hnever : ∀ d, Launched Table.standard (ts.take k ++ [.sample x]) (ts.take k).length d
      (.sample x) → d.frames ≠ c.frames := by
    intro d hd hframes
    have hstate : d.state = c.state := congrArg topState hframes
    exact hd.not_viable (hstate ▸ herr) hx
  rcases h.waits_or_reduces with hwaits | ⟨c₀, n, h₀, hred⟩
  · obtain ⟨d, hd, hframes⟩ := hwaits _ hgood
    exact hnever d hd hframes
  · obtain ⟨hafter, hwaits⟩ := h₀.waits_of_reduces hred ha
    obtain ⟨d₀, hd₀, hframes₀⟩ := hwaits _ hgood
    have hstate₀ : d₀.state = c₀.state := congrArg topState hframes₀
    obtain ⟨r, hr, -, hact⟩ := actionAt_of_afterStatement hafter
    by_cases hfollow : x ∈ follow .list
    · -- the rule is used before the other token, too
      have hxact : actionAt d₀.state x = .reduce r.number := by
        rw [hstate₀, hact, if_pos hfollow]
      have hn : n = r.number := by
        obtain ⟨-, -, -, hlook, -⟩ := hred.exists_target
        rw [hact] at hlook
        split at hlook
        · exact (Action.reduce.inj hlook).symm
        · cases hlook
      subst hn
      obtain ⟨xs, values, hread⟩ := hd₀.exists_reading
      obtain ⟨d, _, _, hstep, hread', -⟩ := hread.reduce hxact
      have haction : Table.standard.actionOf d₀.state (Token.sample x).kind.symbol =
          .ok (.reduce r.number) := by
        rw [Table.standard_actionOf]
        exact congrArg Except.ok hxact
      have hred' := (Config.reduce_eq_next haction (by rwa [Config.step, haction] at hstep)).2
      exact hnever d hread'.launched (hred.frames_eq hred' hframes₀)
    · -- the other token is refused after the semicolon
      have hxact : actionAt d₀.state x = .error := by rw [hstate₀, hact, if_neg hfollow]
      exact hd₀.not_viable hxact hx

/-! ### The error -/

/-- Where the standard table refuses a token. -/
theorem Ends.exists_refused {ts : List Token} {n : Nat} {o : Outcome (List Token)} {look : Token}
    {state : Nat} {expected : List String} (h : Ends Table.standard ts n o)
    (hv : o.verdict = .failed (.unexpected look state expected)) :
    ∃ k, n = k + 1 ∧ ∃ c, Launched Table.standard ts k c look ∧
      actionAt c.state look.kind = .error ∧ state = c.state ∧
      expected = Table.standard.expected c.state ∧ o.config.line = c.line := by
  cases h with
  | first h => exact absurd hv (Config.launch_ne_unexpected h)
  | shift h hshifts hstep =>
    obtain ⟨s, ha⟩ := Config.shifts_standard_iff.1 hshifts
    rw [Config.step_standard, ha] at hstep
    exact absurd hv (Config.shift_ne_unexpected hstep)
  | @stay k c look' _ h hshifts hstep =>
    cases ha : actionAt c.state look'.kind with
    | shift s => exact absurd (Config.shifts_standard_iff.2 ⟨s, ha⟩) hshifts
    | reduce n =>
      rw [Config.step_standard, ha] at hstep
      exact absurd hv (Config.reduce_ne_unexpected hstep)
    | accept =>
      obtain ⟨xs, values, hread⟩ := h.exists_reading
      obtain ⟨root, hstep', -⟩ := hread.accept ha
      rw [hstep] at hstep'
      cases hstep'
      cases hv
    | error =>
      rw [Config.step_standard, ha] at hstep
      cases hstep
      cases hv
      exact ⟨k, rfl, c, h, ha, rfl, rfl, rfl⟩

/-- After a semicolon a statement has just been read, with its semicolon. -/
theorem Reading.exists_statement {ts : List Token} {k : Nat} {c : Config (List Token)}
    {look : Token} {xs : List Part} {values : List Node} (h : Reading ts k c look xs values)
    (hs : AfterStatement c.state) :
    ∃ before statement semicolon, ts.take k = before ++ statement ++ [semicolon] ∧
      Derives (standardProductions.map (·.2)) [Phrase.statement.symbol] (symbolsOf statement) ∧
      semicolon.kind = .semicolon := by
  obtain ⟨r, hr, hu, ys, hparts⟩ := underway_of_afterStatement hs
  obtain ⟨-, -, zs, -, -, rfl, -⟩ := h.path.pop hr hu
  have hparse := h.parse
  rw [List.take_length, List.reverse_append, List.reverse_reverse, hparts,
    show zs.reverse ++ (ys ++ [.phrase .statement, .token .semicolon]) =
      zs.reverse ++ ys ++ [.phrase .statement] ++ [.token .semicolon] by simp] at hparse
  obtain ⟨_, _, _, _, _, _, -, htake, -, hparse, hsemicolon⟩ := hparse.split
  obtain ⟨_, _, before, statement, _, _, -, rfl, -, -, hstatement⟩ := hparse.split
  obtain ⟨semicolon, rfl, hkind⟩ := hsemicolon.exists_eq_singleton
  exact ⟨before, statement, semicolon, htake, hstatement.derives, hkind⟩

/-- **What an error expects**: let the standard table refuse a token in a state, after it has
shifted `k` tokens. The token is not among the terminals that are expected. These come in the order
of the columns, each of them once, and all terminals that continue the `k` tokens to a sentence are
among them.

They are exactly these, unless the state is one of two. Then a statement and its semicolon have
just been read, the token can never follow a list of statements, and both terminals that can end
such a list are expected, besides those that continue the tokens. -/
theorem standard_expected_exact {ts : List Token} {o : Outcome (List Token)} {look : Token}
    {state : Nat} {expected : List String} (ho : Table.standard.derive? ts = some o)
    (hv : o.verdict = .failed (.unexpected look state expected)) :
    ∃ k ≤ ts.length, Ends Table.standard ts (k + 1) o ∧
      look = ts[k]?.getD (.endAt o.config.line) ∧
      look.kind.symbol ∉ expected ∧
      (∀ x, Viable (symbolsOf (ts.take k) ++ [x]) → x ∈ expected) ∧
      expected.Sublist standardTerminals ∧ expected.Nodup ∧
      (¬ (state = 16 ∨ state = 23) →
        ∀ x, x ∈ expected ↔ Viable (symbolsOf (ts.take k) ++ [x])) ∧
      (state = 16 ∨ state = 23 →
        (∀ x, x ∈ expected ↔
          Viable (symbolsOf (ts.take k) ++ [x]) ∨ x = "HALT" ∨ x = "END") ∧
        (∃ before statement semicolon, ts.take k = before ++ statement ++ [semicolon] ∧
          Derives (standardProductions.map (·.2)) ["_STATEMENT"] (symbolsOf statement) ∧
          semicolon.kind = .semicolon) ∧
        ∀ before after, ¬ Derives (standardProductions.map (·.2)) [programSymbol, endSymbol]
          (before ++ "_LIST" :: look.kind.symbol :: after)) := by
  obtain ⟨n, hends⟩ := haltsWith_iff_ends.1 (Table.haltsWith_of_derive? ho)
  obtain ⟨k, rfl, c, h, ha, rfl, rfl, hline⟩ := hends.exists_refused hv
  obtain ⟨xs, values, hread⟩ := h.exists_reading
  have hsublist := Table.standard.expected_sublist c.state
  have hviable : ∀ x, Viable (symbolsOf (ts.take k) ++ [x]) →
      x ∈ Table.standard.expected c.state := by
    intro x hx
    obtain ⟨x, rfl⟩ := hx.exists_kind (x := x) (by simp)
    exact Table.mem_standard_expected_iff.2 (h.actionAt_ne_error ha hx)
  refine ⟨k, hread.le, hends, by rw [hline]; exact h.look_list, ?_, hviable, hsublist,
    hsublist.nodup standardTerminals_nodup, fun hstate x => ⟨fun hx => ?_, hviable x⟩,
    fun hstate => ⟨fun x => ⟨fun hx => ?_, ?_⟩, hread.exists_statement hstate, ?_⟩⟩
  · exact fun hmem => Table.mem_standard_expected_iff.1 hmem ha
  · obtain ⟨x, rfl⟩ := Table.exists_kind_of_mem_expected hx
    exact hread.path.viable_of_actionAt hread.parse (Table.mem_standard_expected_iff.1 hx)
      (absurd · hstate)
  · obtain ⟨x, rfl⟩ := Table.exists_kind_of_mem_expected hx
    by_cases hend : x = .halt ∨ x = .done
    · rcases hend with rfl | rfl
      · exact .inr (.inl rfl)
      · exact .inr (.inr rfl)
    · exact .inl (hread.path.viable_of_actionAt hread.parse (Table.mem_standard_expected_iff.1 hx)
        fun _ => not_or.1 hend)
  · obtain ⟨r, -, -, hact⟩ := actionAt_of_afterStatement hstate
    rintro (hx | rfl | rfl)
    · exact hviable x hx
    · exact Table.mem_standard_expected_iff (k := .halt).2 (by rw [hact]; nofun)
    · exact Table.mem_standard_expected_iff (k := .done).2 (by rw [hact]; nofun)
  · intro before after hderives
    obtain ⟨r, -, -, hact⟩ := actionAt_of_afterStatement hstate
    rw [hact, if_pos (mem_follow_of_derives (p := .list) hderives)] at ha
    cases ha

/-- A program in which a name stands where a statement should begin. -/
def namedStatement : List Token :=
  [.size, .integer, .integer, .start, .hole, .integer, .integer, .semicolon, .name].map Token.sample

/-- After the first statement of a program `END` is expected, too, though no loop has begun. -/
theorem standard_expected_exact_namedStatement :
    ∃ o expected, Table.standard.derive? namedStatement = some o ∧
      o.verdict = .failed (.unexpected (.sample .name) 16 expected) ∧
      expected = ["HALT", "CAT", "MOUSE", "HOLE", "MOVE", "CLOCKWISE", "REPEAT", "END"] ∧
      ∀ x, x ∈ expected ↔
        Viable (symbolsOf (namedStatement.take 8) ++ [x]) ∨ x = "HALT" ∨ x = "END" := by
  have hrun : (Table.standard.derive? namedStatement).map Outcome.verdict =
      some (.failed (.unexpected (.sample .name) 16
        ["HALT", "CAT", "MOUSE", "HOLE", "MOVE", "CLOCKWISE", "REPEAT", "END"])) := by rfl
  obtain ⟨o, ho, hv⟩ := Option.map_eq_some_iff.1 hrun
  obtain ⟨k, hk, -, hlook, -, -, -, -, -, hafter⟩ := standard_expected_exact ho hv
  have hk : k = 8 := by
    have hkind : Kind.name = (namedStatement[k]?.getD (.endAt o.config.line)).kind :=
      congrArg Token.kind hlook
    have hk : k ≤ 9 := hk
    interval_cases k <;> first | rfl | cases hkind
  subst hk
  exact ⟨o, _, ho, hv, rfl, (hafter (.inl rfl)).1⟩

end CatAndMouse
