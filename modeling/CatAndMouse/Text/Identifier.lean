import CatAndMouse.Text.Digit
import CatAndMouse.Text.Identifier.Start
import CatAndMouse.Text.Identifier.Continue

/-!
# Identifier characters

A word begins with a letter (`XID_Start`) or an underscore and goes on with
letters, digits, marks and connectors (`XID_Continue`). Each version of Unicode
adds characters to these two classes, so a scanner has them as a parameter:
`IdentClasses` is a pair of classes together with what holds of them in every
version. `IdentClasses.unicode14` is the pair of Unicode 14.0.
-/

namespace CatAndMouse.Text

/-- An ASCII letter. -/
def isAsciiLetter (c : Char) : Bool := ('a' ≤ c && c ≤ 'z') || ('A' ≤ c && c ≤ 'Z')

/-- The characters that part words: those of gaps, and the semicolon. -/
def wordSeparators : List Char := [' ', '\t', '\r', '\n', '\x0c', '#', ';']

/-- The characters of words. -/
structure IdentClasses where
  /-- A character of the property `XID_Start`. -/
  isStart : Char → Bool
  /-- A character of the property `XID_Continue`. -/
  isContinue : Char → Bool
  /-- So the keywords are words. -/
  letter_start : ∀ c, isAsciiLetter c = true → isStart c = true
  digit_not_start : ∀ c, isAsciiDigit c = true → isStart c = false
  start_continue : ∀ c, isStart c = true → isContinue c = true
  digit_continue : ∀ c, isAsciiDigit c = true → isContinue c = true
  underscore_continue : isContinue '_' = true
  separator_not_continue : ∀ c ∈ wordSeparators, isContinue c = false

namespace IdentClasses

variable (ids : IdentClasses)

/-- A character that begins a word. -/
def isWordStart (c : Char) : Bool := ids.isStart c || c == '_'

/-- What begins a word also continues one. -/
theorem continue_of_wordStart {c : Char} (h : ids.isWordStart c = true) :
    ids.isContinue c = true := by
  rcases Bool.or_eq_true_iff.1 h with hstart | hc
  · exact ids.start_continue c hstart
  · rw [beq_iff_eq.1 hc]
    exact ids.underscore_continue

/-- A text that is a single identifier character. -/
def isContinueText (s : String) : Bool :=
  match s.toList with
  | [c] => ids.isContinue c
  | _ => false

end IdentClasses

/-! ### Unicode 14.0 -/

/-- A character of the property `XID_Start`. ASCII is written out; beyond it the table decides. -/
def isIdentStart (c : Char) : Bool :=
  if c.toNat < 0x80 then isAsciiLetter c else inRanges identStartRanges c

/-- A character of the property `XID_Continue`. -/
def isIdentContinue (c : Char) : Bool :=
  if c.toNat < 0x80 then isAsciiLetter c || isAsciiDigit c || c == '_'
  else inRanges identStartRanges c || inRanges identExtraRanges c

/-- Letters come after the digits, and before the tables. -/
theorem toNat_of_isAsciiLetter {c : Char} (h : isAsciiLetter c = true) :
    58 ≤ c.toNat ∧ c.toNat < 0x80 := by
  simp only [isAsciiLetter, Bool.or_eq_true, Bool.and_eq_true, decide_eq_true_eq, Char.le_def,
    UInt32.le_iff_toNat_le] at h
  have htoNat : c.toNat = c.val.toNat := rfl
  have ha : ('a' : Char).val.toNat = 97 := rfl
  have hz : ('z' : Char).val.toNat = 122 := rfl
  have hA : ('A' : Char).val.toNat = 65 := rfl
  have hZ : ('Z' : Char).val.toNat = 90 := rfl
  omega

/-- The classes of Unicode 14.0. -/
def IdentClasses.unicode14 : IdentClasses where
  isStart := isIdentStart
  isContinue := isIdentContinue
  letter_start c h := by
    rw [isIdentStart, if_pos (toNat_of_isAsciiLetter h).2, h]
  digit_not_start c h := by
    obtain ⟨-, hlt⟩ := isAsciiDigit_iff.1 h
    rw [isIdentStart, if_pos (Nat.lt_trans hlt (by decide)), ← Bool.not_eq_true]
    intro hletter
    exact absurd (toNat_of_isAsciiLetter hletter).1 (Nat.not_le.2 hlt)
  start_continue c h := by
    unfold isIdentStart at h
    unfold isIdentContinue
    split at h <;> simp [*]
  digit_continue c h := by
    rw [isIdentContinue, if_pos (Nat.lt_trans (isAsciiDigit_iff.1 h).2 (by decide)), h]
    simp
  underscore_continue := by decide
  separator_not_continue c hc := by
    have hall : (wordSeparators.all fun c => !isIdentContinue c) = true := by decide
    exact Bool.not_eq_eq_eq_not.1 (List.all_eq_true.1 hall c hc)

end CatAndMouse.Text
