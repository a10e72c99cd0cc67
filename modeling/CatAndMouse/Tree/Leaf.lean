import CatAndMouse.Text.Numeral
import CatAndMouse.Token
import CatAndMouse.Tree

/-!
# Leaves from tokens

An integer, a name or a heading becomes a leaf of the tree. An integer token
built by hand may hold any text, so its text is checked again here.
-/

namespace CatAndMouse

/-- Why a token is no leaf. -/
inductive LeafError where
  /-- The text of an integer is not a run of ASCII digits. -/
  | malformed (text : String)
  /-- The text of an integer is too long. -/
  | tooLong (e : Text.TooManyDigits)
  /-- The token carries no value. -/
  | noValue (t : Token)
deriving DecidableEq

/-- The wording of the error. -/
def LeafError.message : LeafError → String
  | .malformed text => "malformed integer literal " ++ Text.quoted text
  | .tooLong e => e.message
  | .noValue t => s!"token {t.describe} carries no semantic value"

/-- The leaf of a token that carries a value. -/
def Node.ofToken (t : Token) : Except LeafError Node :=
  match t.kind with
  | .integer =>
    match Text.asciiRun? t.text.toList with
    | none => .error (.malformed t.text)
    | some digits =>
      match Text.readDigits digits with
      | .ok n => .ok (.number n t.line)
      | .error e => .error (.tooLong e)
  | .name => .ok (.name t.text t.line)
  | .heading h => .ok (.facing h t.line)
  | _ => .error (.noValue t)

end CatAndMouse
