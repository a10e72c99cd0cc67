import CatAndMouse.Tree.Leaf
import CatAndMouse.Tree.WellFormed

/-!
# The leaf of a token

When a token is read its leaf goes onto the fragments. `Token.leaves` is what is
added: one leaf, or nothing for a token without a value. Only an integer token
can fail here, and `Token.exists_leaves_iff` says when: its text must be a run
of 1 to 4300 ASCII digits.
-/

namespace CatAndMouse

/-! ### Numerals -/

/-- A text that an integer token can have. -/
def IsNumeral (text : String) : Prop :=
  1 ≤ text.toList.length ∧ text.toList.length ≤ 4300
    ∧ ∀ c ∈ text.toList, Text.isAsciiDigit c = true

instance (text : String) : Decidable (IsNumeral text) :=
  decidable_of_iff (1 ≤ text.toList.length ∧ text.toList.length ≤ 4300
    ∧ text.toList.all Text.isAsciiDigit = true) (by rw [IsNumeral, List.all_eq_true])

namespace Text

theorem digitValue?_of_isAsciiDigit {c : Char} (h : isAsciiDigit c = true) :
    digitValue? c = some (c.toNat - 48) := by
  simp [digitValue?, zeroDigits, isAsciiDigit_iff.1 h]

theorem mapM_digitValue? {cs : List Char} (h : ∀ c ∈ cs, isAsciiDigit c = true) :
    cs.mapM digitValue? = some (cs.map fun c => c.toNat - 48) := by
  induction cs with
  | nil => rfl
  | cons c cs ih =>
    rw [List.mapM_cons, digitValue?_of_isAsciiDigit (h c (by simp)),
      ih fun d hd => h d (by simp [hd])]
    rfl

/-- A run of ASCII digits is read digit by digit. -/
theorem asciiRun?_of_digits {cs : List Char} (hne : cs ≠ [])
    (h : ∀ c ∈ cs, isAsciiDigit c = true) :
    asciiRun? cs = some (cs.map fun c => c.toNat - 48) := by
  rw [asciiRun?, if_pos (List.all_eq_true.2 h)]
  cases cs with
  | nil => exact absurd rfl hne
  | cons c cs => exact mapM_digitValue? h

theorem digits_of_asciiRun? {cs : List Char} {ds : List Nat} (h : asciiRun? cs = some ds) :
    cs ≠ [] ∧ (∀ c ∈ cs, isAsciiDigit c = true) ∧ ds = cs.map fun c => c.toNat - 48 := by
  have hall : ∀ c ∈ cs, isAsciiDigit c = true := by
    rw [asciiRun?] at h
    split at h
    · next hall => exact List.all_eq_true.1 hall
    · cases h
  have hne : cs ≠ [] := by
    rintro rfl
    cases h
  rw [asciiRun?_of_digits hne hall, Option.some.injEq] at h
  exact ⟨hne, hall, h.symm⟩

end Text

/-- The number that a numeral shows. -/
def numeralValue (text : String) : Nat := Text.ofDigits (text.toList.map fun c => c.toNat - 48)

namespace Text

theorem ofDigits_append (ds : List Nat) (d : Nat) :
    ofDigits (ds ++ [d]) = 10 * ofDigits ds + d := by
  rw [ofDigits, List.foldl_append]
  rfl

theorem ofDigits_lt {cs : List Char} (h : ∀ c ∈ cs, isAsciiDigit c = true) :
    ofDigits (cs.map fun c => c.toNat - 48) < Nat.pow 10 cs.length := by
  rw [← List.reverse_reverse cs] at h ⊢
  generalize cs.reverse = cs at h ⊢
  induction cs with
  | nil => decide
  | cons c cs ih =>
    rw [List.reverse_cons] at h ⊢
    have hc := isAsciiDigit_iff.1 (h c (by simp))
    have hcs := ih fun d hd => h d (by simp [List.mem_reverse.1 hd])
    rw [List.map_append, List.map_singleton, ofDigits_append, List.length_append,
      List.length_singleton,
      show Nat.pow 10 (cs.reverse.length + 1) = Nat.pow 10 cs.reverse.length * 10 from rfl]
    omega

/-- The least number that is not written, without working it out. -/
theorem exists_writeBound_eq : ∃ k, digitLimit = k + 1 ∧ writeBound = Nat.pow 10 (k + 1) := by
  obtain ⟨k, hk⟩ : ∃ k, digitLimit = k + 1 := ⟨4299, rfl⟩
  refine ⟨k, hk, ?_⟩
  unfold writeBound
  rw [hk]

end Text

theorem isAsciiDigit_of_mem_toString {n : Nat} {c : Char} (h : c ∈ (toString n).toList) :
    Text.isAsciiDigit c = true := by
  rw [Nat.toString_eq_ofList_toDigits, String.toList_ofList] at h
  have hdigit := Nat.isDigit_of_mem_toDigits (by decide) (by decide) h
  simpa [Char.isDigit, Text.isAsciiDigit, Char.le_def] using hdigit

theorem toString_ne_nil (n : Nat) : (toString n).toList ≠ [] := by
  rw [Nat.toString_eq_ofList_toDigits, String.toList_ofList]
  exact Nat.toDigits_ne_nil

/-- A number that is written is a numeral, unless it has too many digits. -/
theorem isNumeral_toString {n : Nat} (h : n < Text.writeBound) : IsNumeral (toString n) := by
  refine ⟨List.length_pos_iff.2 (toString_ne_nil n), ?_, fun c => isAsciiDigit_of_mem_toString⟩
  obtain ⟨k, hk, hbound⟩ := Text.exists_writeBound_eq
  rw [hbound] at h
  rw [Nat.toString_eq_ofList_toDigits, String.toList_ofList, show 4300 = k + 1 from hk]
  exact (Nat.length_toDigits_le_iff (by decide) (Nat.succ_pos k)).2 h

/-- A number that is written shows itself. -/
theorem numeralValue_toString (n : Nat) : numeralValue (toString n) = n := by
  rw [numeralValue, Text.ofDigits, List.foldl_map, Nat.toString_eq_ofList_toDigits,
    String.toList_ofList]
  exact Nat.ofDigitChars_toDigits (by decide) (by decide)

/-- **Numerals and numbers**: the numbers that numerals show are those that can be written. -/
theorem exists_isNumeral_iff {n : Nat} :
    (∃ cs, IsNumeral (String.ofList cs) ∧ numeralValue (String.ofList cs) = n) ↔
      n < Text.writeBound := by
  constructor
  · rintro ⟨cs, ⟨-, hlen, hcs⟩, rfl⟩
    obtain ⟨k, hk, hbound⟩ := Text.exists_writeBound_eq
    rw [String.toList_ofList, show 4300 = k + 1 from hk] at hlen
    rw [String.toList_ofList] at hcs
    rw [numeralValue, String.toList_ofList, hbound]
    exact Nat.lt_of_lt_of_le (Text.ofDigits_lt hcs) (Nat.pow_le_pow_right (by decide) hlen)
  · intro hn
    refine ⟨(toString n).toList, ?_⟩
    rw [String.ofList_toList]
    exact ⟨isNumeral_toString hn, numeralValue_toString n⟩

/-! ### Leaves -/

theorem Node.ofToken_of_isNumeral {t : Token} (hk : t.kind = .integer) (h : IsNumeral t.text) :
    Node.ofToken t = .ok (.number (numeralValue t.text) t.line) := by
  obtain ⟨hpos, hlen, hall⟩ := h
  have hrun := Text.asciiRun?_of_digits (List.ne_nil_of_length_pos hpos) hall
  simp only [Node.ofToken, hk, hrun, Text.readDigits, List.length_map, Text.digitLimit, hlen]
  rfl

theorem isNumeral_of_ofToken {t : Token} {v : Node} (hk : t.kind = .integer)
    (h : Node.ofToken t = .ok v) : IsNumeral t.text := by
  simp only [Node.ofToken, hk] at h
  split at h
  · cases h
  · next ds hds =>
    obtain ⟨hne, hall, rfl⟩ := Text.digits_of_asciiRun? hds
    split at h
    · next n hn =>
      simp only [Text.readDigits, List.length_map, Text.digitLimit] at hn
      split at hn
      · next hlen => exact ⟨List.length_pos_iff.2 hne, hlen, hall⟩
      · cases hn
    · cases h

theorem Node.ofToken_name {t : Token} (hk : t.kind = .name) :
    Node.ofToken t = .ok (.name t.text t.line) := by
  simp only [ofToken, hk]

theorem Node.ofToken_heading {t : Token} {h : Heading} (hk : t.kind = .heading h) :
    Node.ofToken t = .ok (.facing h t.line) := by
  simp only [ofToken, hk]

/-- What a token adds to the fragments when it is read: its leaf, or nothing. -/
def Token.leaves (t : Token) : Except LeafError (List Node) :=
  if t.kind.isLeaf then (Node.ofToken t).map fun v => [v] else .ok []

namespace Token

theorem leaves_of_not_isLeaf {t : Token} (h : t.kind.isLeaf = false) : t.leaves = .ok [] := by
  simp [leaves, h]

theorem leaves_of_ofToken {t : Token} {v : Node} (hk : t.kind.isLeaf = true)
    (h : Node.ofToken t = .ok v) : t.leaves = .ok [v] := by
  simp [leaves, hk, h, Except.map]

theorem leaves_eq_ok_iff {t : Token} {us : List Node} :
    t.leaves = .ok us ↔ (t.kind.isLeaf = false ∧ us = []) ∨
      (t.kind.isLeaf = true ∧ ∃ v, Node.ofToken t = .ok v ∧ us = [v]) := by
  cases hk : t.kind.isLeaf with
  | false => simp [leaves, hk, eq_comm]
  | true => cases hv : Node.ofToken t <;> simp [leaves, hk, hv, Except.map, eq_comm]

/-- A token has at most one leaf. -/
theorem reverse_leaves {t : Token} {us : List Node} (h : t.leaves = .ok us) : us.reverse = us := by
  rcases leaves_eq_ok_iff.1 h with ⟨-, rfl⟩ | ⟨-, _, -, rfl⟩ <;> rfl

/-- Only an integer token can lack the leaf that it should have. -/
theorem leaves_eq_error_iff {t : Token} {e : LeafError} :
    t.leaves = .error e ↔ t.kind = .integer ∧ Node.ofToken t = .error e := by
  cases hk : t.kind with
  | integer => cases hv : Node.ofToken t <;> simp [leaves, hk, hv, Kind.isLeaf, Except.map]
  | name => simp [leaves, hk, Kind.isLeaf, Node.ofToken_name hk, Except.map]
  | heading h => simp [leaves, hk, Kind.isLeaf, Node.ofToken_heading hk, Except.map]
  | _ => simp [leaves, hk, Kind.isLeaf]

/-- **Good tokens**: a token can be read unless it is an integer whose text is no numeral. -/
theorem exists_leaves_iff {t : Token} :
    (∃ us, t.leaves = .ok us) ↔ (t.kind = .integer → IsNumeral t.text) := by
  constructor
  · rintro ⟨us, hus⟩ hk
    rcases leaves_eq_ok_iff.1 hus with ⟨hleaf, -⟩ | ⟨-, v, hv, -⟩
    · rw [hk] at hleaf
      cases hleaf
    · exact isNumeral_of_ofToken hk hv
  · intro h
    cases he : t.leaves with
    | ok us => exact ⟨us, rfl⟩
    | error e =>
      obtain ⟨hk, hv⟩ := leaves_eq_error_iff.1 he
      rw [Node.ofToken_of_isNumeral hk (h hk)] at hv
      cases hv

end Token

end CatAndMouse
