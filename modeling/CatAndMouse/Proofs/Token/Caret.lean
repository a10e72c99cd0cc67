import CatAndMouse.Proofs.Text.Lines
import CatAndMouse.Proofs.Token.Protocol

/-!
# What a scan error shows

The message of a scan error says line and column in numbers, and shows a line of the text with a
caret below it. Scanner and snippet come to them in ways of their own: the one counts on from the
start of the text, the other looks for line ends around an offset. They agree. The line shown is the
one with the number said, and the caret is below the character that is to blame
(`caret_stands_at_fault`): where the error is said to be, or, if a number goes on as a word, as many
characters further on as it has digits.
-/

namespace CatAndMouse

open Text

variable {ids : Text.IdentClasses}

/-! ### One text -/

/-- The error comes up in the response: as the response itself, or as an answer to the automaton. -/
inductive Response.Raises (e : ScanError) : Response → Prop where
  | error : Raises e (.error e)
  | ended {answers : List Answer} (o : Outcome Unit) (h : .error e ∈ answers) :
      Raises e (.ended answers o)

theorem TokenStream.error_of_answer {d : TokenStream} {i : Nat} {e : ScanError}
    (h : d.answer i = .error e) : d.error = some e := by
  unfold answer at h
  split at h <;> cases h
  assumption

theorem Response.raises_ofAnswer {e : ScanError} {atEnd : Response} {a : Answer}
    (h : Raises e (.ofAnswer atEnd a)) (hend : ¬ Raises e atEnd) : a = .error e := by
  rcases a with _ | _ | t
  · cases h
    rfl
  · exact absurd h hend
  · cases h

namespace Cursor

variable {c c' : Cursor} {call : Call} {response : Response} {tr : Transcript} {e : ScanError}

/-- Unless it is reset a cursor stays in its stream, and no error comes up but that of the
stream. -/
theorem Does.keeps_stream (h : Does ids c call response c') (hcall : ∀ t p, call ≠ .reset t p) :
    c'.stream = c.stream ∧ (response.Raises e → c.stream.error = some e) := by
  have hnothing : ¬ Response.Raises e .nothing := nofun
  have hstop : ¬ Response.Raises e .stop := nofun
  cases h with
  | peek =>
    exact ⟨rfl, fun h => TokenStream.error_of_answer (Response.raises_ofAnswer h hnothing)⟩
  | next =>
    exact ⟨rfl, fun h => TokenStream.error_of_answer (Response.raises_ofAnswer h hnothing)⟩
  | iterate => exact ⟨rfl, fun h => TokenStream.error_of_answer (Response.raises_ofAnswer h hstop)⟩
  | reset t p => exact absurd rfl (hcall t p)
  | derive =>
    refine ⟨rfl, ?_⟩
    rintro ⟨⟩
    next h =>
      obtain ⟨i, -, hi⟩ := List.mem_map.1 h
      exact TokenStream.error_of_answer hi

theorem error_of_session (h : Session (Does ids) c tr c')
    (hreset : ∀ t p, Call.reset t p ∉ tr.map Prod.fst) (hmem : (call, response) ∈ tr)
    (he : response.Raises e) : c.stream.error = some e := by
  induction h with
  | nil => cases hmem
  | cons first _ ih =>
    simp only [List.map_cons, List.mem_cons, not_or] at hreset
    obtain ⟨hstream, herror⟩ := first.keeps_stream (e := e) fun t p h => (hreset t p).1 h.symm
    rcases List.mem_cons.1 hmem with heq | hmem
    · cases heq
      exact herror he
    · rw [← hstream]
      exact ih (fun t p => (hreset t p).2) hmem

end Cursor

/-- Whatever a scanner is called upon to do with its text, its errors stand in the text. -/
theorem Scanner.exists_standsAt_of_session {text : String} {p : Position} {tr : Transcript}
    {s : Scanner ids} {call : Call} {response : Response} {e : ScanError}
    (h : Session Scanner.Does (.startAt ids text p) tr s)
    (hreset : ∀ t q, Call.reset t q ∉ tr.map Prod.fst) (hmem : (call, response) ∈ tr)
    (he : response.Raises e) : ∃ o, e.StandsAt ids p text.toList o := by
  obtain ⟨c, hc, -⟩ := h.simulate Follows.exists_cursor (Follows.startAt ids text p)
  have herror : (Cursor.startAt ids text p).stream.error = some e :=
    Cursor.error_of_session hc hreset hmem he
  rcases hall : (Scanner.startAt ids text p).all with ⟨ts, e?, last⟩
  rw [Cursor.startAt, TokenStream.ofText, hall] at herror
  obtain ⟨os, hos⟩ := (Scanner.counted_startAt text p).exists_placedFrom rfl rfl hall
  obtain ⟨o, hstands, -⟩ := hos.error e herror
  exact ⟨o, hstands⟩

/-! ### One line -/

/-- Counting from one, an offset is in the line that comes after as many line ends, and in the
column that comes after as much of this line. -/
theorem Position.IsAt.eq_lastLine {cs : List Char} {o : Nat} {p : Position}
    (h : IsAt ⟨1, 1⟩ cs o p) :
    p.line = ((cs.take o).count '\n' : Nat) + 1 ∧
      p.col = ((Text.lastLine (cs.take o)).length : Nat) + 1 := by
  have hlength := List.length_take_of_le h.le
  have hnot := lineEnd_not_mem_lastLine (cs.take o)
  refine ⟨h.line.trans (Int.add_comm _ _), ?_⟩
  rcases eq_lastLine_or (cs.take o) with hone | ⟨ds, hds⟩
  · rw [hone] at hnot ⊢
    rw [h.first hnot, hlength]
    exact Int.add_comm _ _
  · generalize Text.lastLine (cs.take o) = l at hds hnot ⊢
    have ho : o = ds.length + 1 + l.length := by
      rw [← hlength, hds, List.length_append, List.length_cons]
      omega
    have hend : cs[ds.length]? = some '\n' := by
      rw [← List.getElem?_take_of_lt (show ds.length < o by omega), hds]
      simp
    have hrest : (cs.take o).drop (ds.length + 1) = l := by
      rw [hds]
      simp
    rw [h.later ds.length (by omega) hend (by rwa [hrest])]
    omega

theorem ScanFault.lineEnd_not_mem_message (f : ScanFault) : '\n' ∉ f.message.toList := by
  cases f with
  | malformedInteger =>
    have h : '\n' ∉ "malformed integer".toList := by decide
    exact h
  | unexpected c =>
    have h : '\n' ∉ ("unexpected character " ++ quoted (String.singleton c)).toList := by
      rw [String.toList_append, List.mem_append, not_or]
      exact ⟨by decide, lineEnd_not_mem_quoted _⟩
    exact h

/-- A message is one line above the snippet. -/
theorem ScanError.exists_pieces_message (e : ScanError) :
    ∃ first, pieces '\n' e.message = first :: pieces '\n' e.snippet := by
  have hfault := e.fault.lineEnd_not_mem_message
  have hline := lineEnd_not_mem_toString e.line
  have hcol := lineEnd_not_mem_toString e.col
  let first := "Lexing error: " ++ e.fault.message ++ " at " ++ toString e.line ++ ":" ++
    toString e.col
  have hfirst : '\n' ∉ first.toList := by
    simp only [first, String.toList_append, List.mem_append, not_or]
    exact ⟨⟨⟨⟨⟨by decide, hfault⟩, by decide⟩, hline⟩, by decide⟩, hcol⟩
  have hmessage : e.message = first ++ String.singleton '\n' ++ e.snippet := rfl
  exact ⟨first, by rw [hmessage, pieces_append, pieces_of_not_mem hfirst, List.singleton_append]⟩

/-- The line with an error in it: what comes before the error, what of it can be read, and from
where it goes wrong. -/
theorem ScanError.StandsAt.exists_line {text : String} {e : ScanError} {o : Nat}
    (h : e.StandsAt ids ⟨1, 1⟩ text.toList o) :
    ∃ (row : Nat) (before l : List Char) (c : Char) (after rest : List Char) (first : String),
      e.line = row + 1 ∧ e.col = before.length + 1 ∧ Unreadable ids e.fault l (c :: rest) ∧
      (pieces '\n' text)[row]? = some (String.ofList (before ++ l ++ c :: after)) ∧
      pieces '\n' e.message = [first, String.ofList (before ++ l ++ c :: after),
        String.ofList (List.replicate (before ++ l).length ' ' ++ ['^'])] := by
  obtain ⟨hplace, l, bad, hdrop, hunreadable, hsnippet⟩ := h
  obtain ⟨c, cs, rfl, hc⟩ := hunreadable.exists_cons
  have hl : '\n' ∉ l := fun hmem => hunreadable.ne_lineEnd _ hmem rfl
  obtain ⟨first, hmessage⟩ := e.exists_pieces_message
  obtain ⟨hline, hcol⟩ := hplace.eq_lastLine
  have htext : text.toList = text.toList.take o ++ l ++ c :: cs := by
    rw [List.append_assoc, ← hdrop, List.take_append_drop]
  have hlength : (text.toList.take o ++ l).length = o + l.length := by
    rw [List.length_append, List.length_take_of_le hplace.le]
  generalize text.toList.take o = before at hline hcol htext hlength
  -- what can be read is in the last line of what comes before the faulty character
  have hlast : Text.lastLine (before ++ l) = Text.lastLine before ++ l := lastLine_append hl before
  have hfirst : firstLine (c :: cs) = c :: firstLine cs := by simp [firstLine, hc]
  have hcount : (before ++ l).count '\n' = before.count '\n' := by
    rw [List.count_append, List.count_eq_zero_of_not_mem hl, Nat.add_zero]
  refine ⟨before.count '\n', Text.lastLine before, l, c, firstLine cs, cs, first, hline, hcol,
    hunreadable, ?_, ?_⟩
  · rw [← hlast, ← hfirst, pieces, List.getElem?_map, htext, ← hcount, getElem?_splitAt_count]
    rfl
  · rw [← hlast, ← hfirst, hmessage, hsnippet, ← hlength, htext, pieces_caretSnippet]

/-- `e.ShownIn ids text`: the message of the error has three lines. The second is the line of the
text with the number that the error says, counted from one. The third is a caret after some blanks:
one less than the column that the error says, and then it is below the unexpected character; or as
many more as a run of digits has that begins in this column, and then it is below the character
which makes the run malformed. -/
def ScanError.ShownIn (ids : Text.IdentClasses) (text : String) (e : ScanError) : Prop :=
  ∃ (row col blanks : Nat) (first line : String) (c : Char),
    e.line = row + 1 ∧ e.col = col + 1 ∧ (pieces '\n' text)[row]? = some line ∧
    pieces '\n' e.message = [first, line, String.ofList (List.replicate blanks ' ' ++ ['^'])] ∧
    line.toList[blanks]? = some c ∧
    match e.fault with
    | .unexpected d => blanks = col ∧ c = d
    | .malformedInteger =>
      let digits := (line.toList.drop col).takeWhile isAsciiDigit
      digits ≠ [] ∧ blanks = col + digits.length ∧
        ids.isContinue c = true ∧ isAsciiDigit c = false

/-- **Place and caret agree.** Whatever is done with a scanner of a text, unless it is reset: an
error that comes up is shown in the text, in the line and at the column that it says. -/
theorem caret_stands_at_fault {text : String} {tr : Transcript} {s : Scanner ids} {call : Call}
    {response : Response} {e : ScanError} (h : Session Scanner.Does (.ofText ids text) tr s)
    (hreset : ∀ t p, Call.reset t p ∉ tr.map Prod.fst) (hmem : (call, response) ∈ tr)
    (he : response.Raises e) : e.ShownIn ids text := by
  obtain ⟨o, hstands⟩ := Scanner.exists_standsAt_of_session h hreset hmem he
  obtain ⟨row, before, l, c, after, rest, first, hline, hcol, hunreadable, hrow, hmessage⟩ :=
    hstands.exists_line
  refine ⟨row, before.length, (before ++ l).length, first, _, c, hline, hcol, hrow, hmessage,
    ?_, ?_⟩
  · rw [String.toList_ofList, List.getElem?_append_right (Nat.le_refl _), Nat.sub_self]
    rfl
  · rw [String.toList_ofList, List.append_assoc, List.drop_left]
    generalize e.fault = f at hunreadable
    cases hunreadable with
    | unexpected => exact ⟨by rw [List.append_nil], rfl⟩
    | malformedInteger hne hdigits hc hdigit =>
      have hrun : (l ++ c :: after).takeWhile isAsciiDigit = l := by
        rw [List.takeWhile_append_of_pos hdigits, List.takeWhile_cons_of_neg (by simp [hdigit]),
          List.append_nil]
      simp only [hrun]
      exact ⟨hne, List.length_append, hc, hdigit⟩

/-- A word is taken, and a look at the second line shows a number that goes on as a word. -/
theorem caret_stands_at_fault_in_second_line :
    ∃ s, Session Scanner.Does (.ofText .unicode14 "size\n12a")
        [(.next, .token ⟨.size, "size", 1, 1⟩),
          (.peek, .error ⟨.malformedInteger, 2, 1, "12a\n  ^"⟩)] s ∧
      ScanError.ShownIn .unicode14 "size\n12a" ⟨.malformedInteger, 2, 1, "12a\n  ^"⟩ := by
  have htoken : (Scanner.ofText .unicode14 "size\n12a").next.1 =
      .ok (some ⟨.size, "size", 1, 1⟩) := by rfl
  have herror : (Scanner.ofText .unicode14 "size\n12a").next.2.peek.1 =
      .error ⟨.malformedInteger, 2, 1, "12a\n  ^"⟩ := by rfl
  have hnext := Scanner.Does.next (.ofText .unicode14 "size\n12a")
  have hpeek := Scanner.Does.peek (Scanner.ofText .unicode14 "size\n12a").next.2
  rw [htoken] at hnext
  rw [herror] at hpeek
  have hsession := Session.cons hnext (.cons hpeek (.nil _))
  have hmem : (Call.peek, Response.error ⟨.malformedInteger, 2, 1, "12a\n  ^"⟩) ∈
      [(.next, .token ⟨.size, "size", 1, 1⟩),
        (.peek, .error ⟨.malformedInteger, 2, 1, "12a\n  ^"⟩)] := by simp
  exact ⟨_, hsession, caret_stands_at_fault hsession (by simp) hmem .error⟩

end CatAndMouse
