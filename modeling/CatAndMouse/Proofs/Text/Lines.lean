import CatAndMouse.Proofs.Text.Pieces
import CatAndMouse.Proofs.Tree.Leaf
import CatAndMouse.Text.Line
import CatAndMouse.Text.Quoted

/-!
# Lines

The lines of a text are its pieces between LFs. The line that holds an offset is found in two ways:
by counting the line ends before it, and by looking for the nearest ones on both sides. Both
find the same (`getElem?_splitAt_count`), so the snippet that looks for them shows a line of the
text, with the caret as far to the right as the offset stands in it (`caretSnippet_append`).

Texts that are quoted, and numbers that are written, stand in one line.
-/

namespace CatAndMouse

namespace Text

/-! ### The line at an offset -/

theorem lineEnd_not_mem_lastLine (cs : List Char) : '\n' ∉ lastLine cs := by
  intro h
  rw [lastLine, List.mem_reverse] at h
  have hne := List.all_eq_true.1 List.all_takeWhile '\n' h
  simp at hne

theorem lineEnd_not_mem_firstLine (cs : List Char) : '\n' ∉ firstLine cs := by
  intro h
  have hne := List.all_eq_true.1 List.all_takeWhile '\n' h
  simp at hne

/-- A text is its last line, or this comes after a line end. -/
theorem eq_lastLine_or (cs : List Char) :
    lastLine cs = cs ∨ ∃ ds, cs = ds ++ '\n' :: lastLine cs := by
  have hsplit := List.takeWhile_append_dropWhile (p := (· ≠ '\n')) (l := cs.reverse)
  cases hrest : cs.reverse.dropWhile (· ≠ '\n') with
  | nil =>
    rw [hrest, List.append_nil] at hsplit
    exact .inl (by rw [lastLine, hsplit, List.reverse_reverse])
  | cons c ds =>
    have hc := List.head?_dropWhile_not (fun c : Char => decide (c ≠ '\n')) cs.reverse
    rw [hrest] at hc hsplit
    obtain rfl : c = '\n' := by simpa using hc
    have hreverse := congrArg List.reverse hsplit
    rw [List.reverse_append, List.reverse_cons, List.append_assoc, List.reverse_reverse] at hreverse
    exact .inr ⟨ds.reverse, hreverse.symm⟩

theorem lastLine_append {l : List Char} (hl : '\n' ∉ l) (cs : List Char) :
    lastLine (cs ++ l) = lastLine cs ++ l := by
  have hne : ∀ c ∈ l.reverse, decide (c ≠ '\n') = true := by
    intro c hc
    rw [decide_eq_true_eq]
    rintro rfl
    exact hl (List.mem_reverse.1 hc)
  rw [lastLine, List.reverse_append, List.takeWhile_append_of_pos hne, List.reverse_append,
    List.reverse_reverse, lastLine]

/-- **The line at an offset** is that with as many lines before it as there are line ends. -/
theorem getElem?_splitAt_count (before after : List Char) :
    (splitAt '\n' (before ++ after))[before.count '\n']? =
      some (lastLine before ++ firstLine after) := by
  have hfirst : ∀ l : List Char, '\n' ∉ l →
      (splitAt '\n' (l ++ after))[0]? = some (l ++ firstLine after) := by
    intro l hl
    have hne : ∀ c ∈ l, decide (c ≠ '\n') = true := by
      intro c hc
      rw [decide_eq_true_eq]
      rintro rfl
      exact hl hc
    rw [← List.head?_eq_getElem?, head?_splitAt, List.takeWhile_append_of_pos hne, firstLine]
  have hnot := lineEnd_not_mem_lastLine before
  rcases eq_lastLine_or before with hone | ⟨ds, hds⟩
  · rw [hone] at hnot ⊢
    rw [List.count_eq_zero_of_not_mem hnot]
    exact hfirst before hnot
  · -- as many pieces stand before the last line end as the count says
    have hcount : before.count '\n' = (splitAt '\n' ds).length := by
      rw [length_splitAt, hds, List.count_append, List.count_cons_self,
        List.count_eq_zero_of_not_mem hnot]
    have hpieces : splitAt '\n' (before ++ after) =
        splitAt '\n' ds ++ splitAt '\n' (lastLine before ++ after) := by
      rw [← splitAt_append_cons, ← List.cons_append, ← List.append_assoc, ← hds]
    rw [hpieces, hcount, List.getElem?_append_right (Nat.le_refl _), Nat.sub_self]
    exact hfirst _ hnot

/-- The snippet shows the line that holds the offset, and the caret stands under the offset. -/
theorem caretSnippet_append (before after : List Char) :
    caretSnippet (before ++ after) before.length =
      lastLine before ++ firstLine after ++
        '\n' :: (List.replicate (lastLine before).length ' ' ++ ['^']) := by
  have hcut : cutAt (before ++ after).length before.length = before.length := by
    simp [cutAt]
  have hle : (lastLine before).length ≤ before.length := by
    rw [lastLine, List.length_reverse]
    exact Nat.le_trans (List.takeWhile_sublist _).length_le (Nat.le_of_eq List.length_reverse)
  have hcolumn : (caretColumn (before ++ after) before.length).toNat =
      (lastLine before).length := by
    rw [caretColumn, hcut, List.take_left]
    omega
  simp only [caretSnippet, hcut, hcolumn, List.take_left, List.drop_left, List.append_assoc,
    List.cons_append]

/-- The snippet is two lines. -/
theorem pieces_caretSnippet (before after : List Char) :
    pieces '\n' (String.ofList (caretSnippet (before ++ after) before.length)) =
      [String.ofList (lastLine before ++ firstLine after),
        String.ofList (List.replicate (lastLine before).length ' ' ++ ['^'])] := by
  have hline : '\n' ∉ lastLine before ++ firstLine after := by
    rw [List.mem_append, not_or]
    exact ⟨lineEnd_not_mem_lastLine before, lineEnd_not_mem_firstLine after⟩
  have hcaret : '\n' ∉ List.replicate (lastLine before).length ' ' ++ ['^'] := by
    simp [List.mem_replicate]
  rw [pieces, String.toList_ofList, caretSnippet_append, splitAt_append_cons,
    splitAt_of_not_mem hline, splitAt_of_not_mem hcaret]
  rfl

/-! ### Texts of one line -/

theorem lineEnd_not_mem_hexDigits (width n : Nat) : '\n' ∉ hexDigits width n := by
  induction width generalizing n with
  | zero => exact List.not_mem_nil
  | succ width ih =>
    rw [hexDigits, List.mem_append, List.mem_singleton, not_or]
    refine ⟨ih _, ?_⟩
    have hdigit : ∀ m < 16, '\n' ≠ Nat.digitChar m := by decide
    exact hdigit _ (Nat.mod_lt _ (by decide))

theorem lineEnd_not_mem_escaped {mark : Char} (hmark : mark ≠ '\n') (c : Char) :
    '\n' ∉ escaped mark c := by
  have hhex := lineEnd_not_mem_hexDigits
  unfold escaped
  grind

/-- A line end in a text is not seen when the text is quoted. -/
theorem lineEnd_not_mem_quoted (s : String) : '\n' ∉ (quoted s).toList := by
  have hmark : quoteMark s.toList ≠ '\n' := by
    unfold quoteMark
    split <;> decide
  have hnot := lineEnd_not_mem_escaped hmark
  simp only [quoted, String.toList_ofList, List.cons_append, List.mem_cons, List.mem_append,
    List.mem_flatMap]
  grind

theorem not_mem_intercalate {c : Char} {x : String} {xs : List String} (hx : c ∉ x.toList)
    (h : ∀ y ∈ xs, c ∉ y.toList) : c ∉ (String.intercalate x xs).toList := by
  rw [String.toList_intercalate]
  induction xs with
  | nil => exact List.not_mem_nil
  | cons y ys ih =>
    have hy := h y List.mem_cons_self
    have hys := ih fun z hz => h z (List.mem_cons_of_mem _ hz)
    cases ys with
    | nil => rwa [List.map_singleton, List.intercalate_singleton]
    | cons z zs =>
      rw [List.map_cons, List.map_cons, List.intercalate_cons_cons, List.mem_append,
        List.mem_append, not_or, not_or]
      exact ⟨⟨hy, hx⟩, hys⟩

end Text

theorem lineEnd_not_mem_toString_nat (n : Nat) : '\n' ∉ (toString n).toList :=
  fun h => absurd (isAsciiDigit_of_mem_toString h) (by decide)

theorem lineEnd_not_mem_toString (i : Int) : '\n' ∉ (toString i).toList := by
  cases i with
  | ofNat n => exact lineEnd_not_mem_toString_nat n
  | negSucc n =>
    have hsign : toString (Int.negSucc n) = "-" ++ toString (n + 1) := rfl
    rw [hsign, String.toList_append, List.mem_append, not_or]
    exact ⟨by decide, lineEnd_not_mem_toString_nat (n + 1)⟩

end CatAndMouse
