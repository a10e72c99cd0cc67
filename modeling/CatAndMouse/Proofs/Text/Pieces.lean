import CatAndMouse.Text.Split

/-!
# Cutting and joining

`splitAt` cuts a list where the separator stands, as `List.splitOn` does. There is one piece more
than there are separators, and no piece holds one. So what has been joined by a separator can be
told apart again, if no part holds it (`pieces_intercalate`).
-/

namespace CatAndMouse.Text

variable {sep : Char} {cs : List Char}

/-- Cutting at a separator is the cutting of lists. -/
theorem splitAt_eq_splitOn (sep : Char) (cs : List Char) :
    splitAt sep cs = cs.splitOn sep := by
  rw [List.splitOn_eq_splitOnP]
  induction cs with
  | nil => rfl
  | cons c cs ih =>
    rw [splitAt, List.splitOnP_cons_eq_if_modifyHead, ih]
    by_cases h : c = sep
    · simp [h]
    · have hne := List.splitOnP_ne_nil (· == sep) cs
      obtain ⟨piece, pieces, heq⟩ := List.exists_cons_of_ne_nil hne
      simp [h, heq]

/-- No piece holds the separator. -/
theorem not_mem_splitAt {l : List Char} (h : l ∈ splitAt sep cs) : sep ∉ l := by
  induction cs generalizing l with
  | nil =>
    obtain rfl := List.mem_singleton.1 h
    exact List.not_mem_nil
  | cons c cs ih =>
    rw [splitAt] at h
    split at h
    · rcases List.mem_cons.1 h with rfl | h
      · exact List.not_mem_nil
      · exact ih h
    · next hc =>
      obtain ⟨piece, pieces, heq⟩ := List.exists_cons_of_ne_nil (splitAt_ne_nil sep cs)
      rw [heq] at h ih
      rcases List.mem_cons.1 h with rfl | h
      · exact List.not_mem_cons_of_ne_of_not_mem (Ne.symm hc) (ih List.mem_cons_self)
      · exact ih (List.mem_cons_of_mem _ h)

theorem splitAt_of_not_mem (h : sep ∉ cs) : splitAt sep cs = [cs] := by
  rw [splitAt_eq_splitOn]
  exact List.splitOn_eq_singleton h

/-- The pieces before a separator and those after it. -/
theorem splitAt_append_cons (sep : Char) (cs ds : List Char) :
    splitAt sep (cs ++ sep :: ds) = splitAt sep cs ++ splitAt sep ds := by
  simp only [splitAt_eq_splitOn, List.splitOn_append_cons_self]

/-- There is one piece more than there are separators. -/
theorem length_splitAt (sep : Char) (cs : List Char) :
    (splitAt sep cs).length = cs.count sep + 1 := by
  induction cs with
  | nil => rfl
  | cons c cs ih =>
    rw [splitAt]
    split
    · next hc =>
      subst hc
      rw [List.count_cons_self, List.length_cons, ih]
    · next hc =>
      rw [List.count_cons_of_ne hc, ← ih]
      obtain ⟨piece, pieces, heq⟩ := List.exists_cons_of_ne_nil (splitAt_ne_nil sep cs)
      rw [heq]
      rfl

/-- The first piece goes up to the first separator. -/
theorem head?_splitAt (sep : Char) (cs : List Char) :
    (splitAt sep cs).head? = some (cs.takeWhile (· ≠ sep)) := by
  induction cs with
  | nil => rfl
  | cons c cs ih =>
    rw [splitAt]
    split
    · next hc =>
      subst hc
      simp
    · next hc =>
      obtain ⟨piece, pieces, heq⟩ := List.exists_cons_of_ne_nil (splitAt_ne_nil sep cs)
      rw [heq] at ih ⊢
      simpa [hc] using ih

theorem pieces_of_not_mem {x : String} (h : sep ∉ x.toList) : pieces sep x = [x] := by
  rw [pieces, splitAt_of_not_mem h, List.map_singleton, String.ofList_toList]

theorem pieces_append (sep : Char) (x y : String) :
    pieces sep (x ++ String.singleton sep ++ y) = pieces sep x ++ pieces sep y := by
  rw [pieces, String.toList_append, String.toList_append, String.toList_singleton,
    List.append_assoc, List.singleton_append, splitAt_append_cons, List.map_append, pieces, pieces]

/-- **Joined texts** are the pieces of the whole. -/
theorem pieces_intercalate {xs : List String} (h : ∀ x ∈ xs, sep ∉ x.toList) (hne : xs ≠ []) :
    pieces sep (String.intercalate (String.singleton sep) xs) = xs := by
  have hsep : ∀ l ∈ xs.map String.toList, sep ∉ l := by
    intro l hl
    obtain ⟨x, hx, rfl⟩ := List.mem_map.1 hl
    exact h x hx
  rw [pieces, String.toList_intercalate, splitAt_eq_splitOn, String.toList_singleton,
    List.splitOn_intercalate sep hsep (by simpa using hne)]
  simp [Function.comp_def]

end CatAndMouse.Text
