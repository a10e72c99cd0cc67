import CatAndMouse.Token.Scanner

/-!
# Sources of tokens

A parser takes tokens from a source, one at a time. A list of tokens is a source
that never fails; a scanner is a source that reads its text as it goes.
-/

namespace CatAndMouse

/-- Something that tokens are taken from. -/
class TokenSource (σ : Type) where
  /-- The next token, nothing at the end, or an error; and the source after that. -/
  next : σ → Except ScanError (Option Token) × σ
  /-- No more tokens than this are to come. -/
  bound : σ → Nat

/-- Take the first token of a list. -/
def takeToken : List Token → Except ScanError (Option Token) × List Token
  | [] => (.ok none, [])
  | t :: ts => (.ok (some t), ts)

instance : TokenSource (List Token) where
  next := takeToken
  bound := List.length

instance {ids : Text.IdentClasses} : TokenSource (Scanner ids) where
  next := Scanner.next
  bound := Scanner.bound

end CatAndMouse
