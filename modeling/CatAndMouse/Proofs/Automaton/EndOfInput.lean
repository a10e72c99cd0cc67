import CatAndMouse.Proofs.Automaton.Reading
import CatAndMouse.Proofs.Language

/-!
# The end of the input

A list of tokens need not say where it ends. When it has run dry the automaton looks at the end of
the input on the line of the last token, so a list that says so itself shows it the same tokens
(`lookAt_append_endAt`), and the run is the same, for any table. What follows the end of the input
is not read by a table that does not shift it: all tokens that are taken stand before the first
end, but for that end itself (`Ends.le_of_endOfInput`).
-/

namespace CatAndMouse

open TokenSource

/-! ### Runs that look at the same tokens -/

section Runs

variable {σ τ : Type} [TokenSource σ] [TokenSource τ]

/-- Over sources that show the same tokens forever the automaton comes to the same end. -/
theorem exists_haltsWith_of_lookAt {t : Table} {s : σ} {s' : τ}
    (hs : ∀ i, lookAt i s' = lookAt i s) {o : Outcome σ} (ho : t.HaltsWith s o) :
    ∃ p, t.HaltsWith s' (o.atPlace p) := by
  obtain ⟨n, hn⟩ := haltsWith_iff_ends.1 ho
  exact ⟨_, haltsWith_iff_ends.2 ⟨n, hn.atPlace fun i _ => hs i⟩⟩

end Runs

/-! ### A list that says where it ends -/

/-- The line on which a list of tokens ends. An empty list ends on the first line. -/
def lastLine (ts : List Token) : Int := (ts.getLast?.map Token.line).getD 1

/-- Said or not, the end of the input is on the line of the last token, and goes on forever. -/
theorem lookAt_append_endAt (ts : List Token) (i : Nat) :
    lookAt i (ts ++ [Token.endAt (lastLine ts)]) = lookAt i ts := by
  rw [lookAt_list, lookAt_list]
  by_cases hi : i < ts.length
  · -- the token is one of the list
    rw [List.getElem?_append_left hi, List.getElem?_eq_getElem hi, Option.getD_some,
      Option.getD_some]
  · have htake : ts.take i = ts := List.take_of_length_le (Nat.le_of_not_lt hi)
    rw [List.getElem?_eq_none (Nat.le_of_not_lt hi), htake, Option.getD_none]
    by_cases hlen : i = ts.length
    · rw [hlen, List.getElem?_concat_length, Option.getD_some, lastLine]
    · have hlt : (ts ++ [Token.endAt (lastLine ts)]).length ≤ i := by
        rw [List.length_append, List.length_singleton]
        omega
      rw [List.getElem?_eq_none hlt, List.take_of_length_le hlt, List.getLast?_concat,
        Option.getD_none]
      rfl

/-! ### Nothing is read after the end -/

/-- The table has no entry that shifts the end of the input. -/
def Table.KeepsEnd (t : Table) : Prop :=
  ∀ s s' : Nat, t.actionOf s Kind.endOfInput.symbol ≠ .ok (.shift s')

theorem Table.keepsEnd_standard : Table.standard.KeepsEnd := by
  intro s s' h
  rw [standard_actionOf] at h
  have hedge := edge_token_eq_some_iff.2 (Except.ok.inj h)
  rw [edge_endOfInput] at hedge
  cases hedge

section KeepsEnd

variable {t : Table} {ts : List Token} {e : Token} {m k n : Nat} {c : Config (List Token)}
  {look : Token} {o : Outcome (List Token)}

/-- The end of the input stays the token looked at. -/
theorem Launched.ne_of_shifts (ht : t.KeepsEnd) (he : ts[m]? = some e)
    (hkind : e.kind = .endOfInput) (h : Launched t ts k c look) (hs : Config.Shifts t c look) :
    k ≠ m := by
  rintro rfl
  obtain ⟨s', hs'⟩ := hs
  rw [h.look_list, he, Option.getD_some, hkind] at hs'
  exact ht _ _ hs'

/-- No token is shifted from the end of the input on. -/
theorem Launched.le_of_endOfInput (ht : t.KeepsEnd) (he : ts[m]? = some e)
    (hkind : e.kind = .endOfInput) (h : Launched t ts k c look) : k ≤ m := by
  induction h with
  | first => exact Nat.zero_le m
  | shift h hs _ ih => exact Nat.lt_of_le_of_ne ih (h.ne_of_shifts ht he hkind hs)
  | stay _ _ _ ih => exact ih

/-- **Nothing after the end**: no token is taken that stands after an end of the input. -/
theorem Ends.le_of_endOfInput (ht : t.KeepsEnd) (he : ts[m]? = some e)
    (hkind : e.kind = .endOfInput) (h : Ends t ts n o) : n ≤ m + 1 := by
  cases h with
  | first => exact Nat.succ_le_succ (Nat.zero_le m)
  | shift h hs _ =>
    have hle := h.le_of_endOfInput ht he hkind
    have hne := h.ne_of_shifts ht he hkind hs
    omega
  | stay h _ _ => exact Nat.succ_le_succ (h.le_of_endOfInput ht he hkind)

/-- Lists with the same tokens up to an end of the input lead to the same end. -/
theorem exists_haltsWith_of_endOfInput {us : List Token} (ht : t.KeepsEnd)
    (he : ts[m]? = some e) (hkind : e.kind = .endOfInput) (hus : ∀ i ≤ m, us[i]? = ts[i]?)
    (ho : t.HaltsWith ts o) : ∃ s, t.HaltsWith us (o.withSource s) := by
  obtain ⟨n, hn⟩ := haltsWith_iff_ends.1 ho
  have hle := hn.le_of_endOfInput ht he hkind
  refine ⟨_, haltsWith_iff_ends.2 ⟨n, hn.withSource fun i hi => ?_⟩⟩
  rw [answer_list, answer_list, hus i (by omega)]

end KeepsEnd

/-! ### The end may be left out -/

/-- The runs end alike: in the same verdict, by the same rules, with the same report. -/
structure Outcome.Alike (o o' : Outcome (List Token)) : Prop where
  verdict : o'.verdict = o.verdict
  rules : o'.rules = o.rules
  events : o'.events = o.events

/-- `t.EndsAlike R ts us`: over `ts` and over `us` the automaton comes to ends that `R` relates, or
it comes to an end over neither. -/
structure Table.EndsAlike (t : Table) (R : Outcome (List Token) → Outcome (List Token) → Prop)
    (ts us : List Token) : Prop where
  there : ∀ o, t.HaltsWith ts o → ∃ o', t.HaltsWith us o' ∧ R o o'
  back : ∀ o', t.HaltsWith us o' → ∃ o, t.HaltsWith ts o ∧ R o o'

/-- **The end may be left out**, for any table: a list of tokens leads where it leads with the end
of the input put after it, on the line of its last token. And what follows an end of the input does
not matter, to a table that does not shift it: with other tokens after it the run ends alike, and
as many tokens are taken. -/
theorem end_may_be_implicit (t : Table) (ts : List Token) :
    t.EndsAlike Outcome.Alike ts (ts ++ [Token.endAt (lastLine ts)]) ∧
    (t.KeepsEnd → ∀ (e : Token) (rest : List Token), e.kind = .endOfInput →
      t.EndsAlike (fun o o' => o.Alike o' ∧ o'.config.pulled = o.config.pulled)
        (ts ++ [e]) (ts ++ e :: rest)) := by
  constructor
  · constructor
    · intro o ho
      obtain ⟨p, hp⟩ := exists_haltsWith_of_lookAt (lookAt_append_endAt ts) ho
      exact ⟨_, hp, rfl, rfl, rfl⟩
    · intro o ho
      obtain ⟨p, hp⟩ := exists_haltsWith_of_lookAt (fun i => (lookAt_append_endAt ts i).symm) ho
      exact ⟨_, hp, rfl, rfl, rfl⟩
  · intro ht e rest hkind
    have hend : ∀ us, (ts ++ e :: us)[ts.length]? = some e := fun us => by
      rw [List.getElem?_append_right (Nat.le_refl _), Nat.sub_self, List.getElem?_cons_zero]
    have hsame : ∀ us, ∀ i ≤ ts.length, (ts ++ e :: us)[i]? = (ts ++ [e])[i]? := by
      intro us i hi
      rw [List.append_cons, List.getElem?_append_left]
      rw [List.length_append, List.length_singleton]
      omega
    constructor
    · intro o ho
      obtain ⟨s, hs⟩ := exists_haltsWith_of_endOfInput ht (hend []) hkind (hsame rest) ho
      exact ⟨_, hs, ⟨rfl, rfl, rfl⟩, rfl⟩
    · intro o ho
      obtain ⟨s, hs⟩ := exists_haltsWith_of_endOfInput ht (hend rest) hkind
        (fun i hi => (hsame rest i hi).symm) ho
      exact ⟨_, hs, ⟨rfl, rfl, rfl⟩, rfl⟩

/-- A program is read to its end, though another one follows. -/
theorem end_may_be_implicit_holeProgram :
    Table.standard.EndsAlike Outcome.Alike holeProgram (holeProgram ++ [.endAt 1]) ∧
    Table.standard.KeepsEnd ∧ (Token.endAt 1).kind = .endOfInput ∧
    ∃ o, Table.standard.HaltsWith (holeProgram ++ .endAt 1 :: holeProgram) o ∧
      o.rules = [6, 2, 1] ∧ o.config.pulled = 10 := by
  obtain ⟨himplicit, hrest⟩ := end_may_be_implicit Table.standard holeProgram
  have hline : lastLine holeProgram = 1 := by rfl
  rw [hline] at himplicit
  have hrun : (Table.standard.derive? (holeProgram ++ [.endAt 1])).map
      (fun o => (o.rules, o.config.pulled)) = some ([6, 2, 1], 10) := by rfl
  obtain ⟨o, ho, hpair⟩ := Option.map_eq_some_iff.1 hrun
  obtain ⟨hrules, hpulled⟩ := Prod.mk.inj hpair
  obtain ⟨o', ho', halike, hpulled'⟩ :=
    (hrest Table.keepsEnd_standard (.endAt 1) holeProgram rfl).there o
      (Table.haltsWith_of_derive? ho)
  exact ⟨himplicit, Table.keepsEnd_standard, rfl, o', ho', halike.rules.trans hrules,
    hpulled'.trans hpulled⟩

end CatAndMouse
