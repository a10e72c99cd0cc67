/-!
# Reading UTF-8

`Utf8.decode` reads bytes as UTF-8 or reports the first bad sequence: its
bytes are the longest start of a well-formed character, at least one byte, and
the reason says what went wrong there.
-/

namespace CatAndMouse.Text.Utf8

/-- What is wrong with a sequence of bytes. -/
inductive Reason where
  /-- No character begins with this byte. -/
  | start
  /-- The byte after the sequence does not continue it. -/
  | continuation
  /-- The bytes end within a character. -/
  | ended
deriving DecidableEq

/-- The bad sequence: the offsets of its first and last byte, its first byte and the reason. -/
structure Fault where
  first : Nat
  last : Nat
  byte : UInt8
  reason : Reason
deriving DecidableEq

/-- The wording of a reason. -/
def Reason.message : Reason → String
  | .start => "invalid start byte"
  | .continuation => "invalid continuation byte"
  | .ended => "unexpected end of data"

/-- A byte as two hexadecimal digits in lower case. -/
def hexByte (b : UInt8) : String :=
  String.ofList [Nat.digitChar (b.toNat / 16), Nat.digitChar (b.toNat % 16)]

/-- The wording of a fault. -/
def Fault.message (f : Fault) : String :=
  let place :=
    if f.first = f.last then s!"byte 0x{hexByte f.byte} in position {f.first}"
    else s!"bytes in position {f.first}-{f.last}"
  s!"'utf-8' codec can't decode {place}: {f.reason.message}"

/-- A character of which the first bytes have been read: where it began and with which
byte, how many bytes it still needs, the least and the greatest next byte, and
the bits read so far. -/
structure Pending where
  first : Nat
  byte : UInt8
  owed : Nat
  low : Nat
  high : Nat
  bits : Nat

/-- What a first byte from `0x80` on announces, at offset `pos`. -/
def Pending.ofByte? (pos : Nat) (b : UInt8) : Option Pending :=
  let n := b.toNat
  if 0xC2 ≤ n ∧ n ≤ 0xDF then some ⟨pos, b, 1, 0x80, 0xBF, n % 0x20⟩
  else if n = 0xE0 then some ⟨pos, b, 2, 0xA0, 0xBF, n % 0x10⟩
  else if n = 0xED then some ⟨pos, b, 2, 0x80, 0x9F, n % 0x10⟩
  else if 0xE1 ≤ n ∧ n ≤ 0xEF then some ⟨pos, b, 2, 0x80, 0xBF, n % 0x10⟩
  else if n = 0xF0 then some ⟨pos, b, 3, 0x90, 0xBF, n % 0x08⟩
  else if n = 0xF4 then some ⟨pos, b, 3, 0x80, 0x8F, n % 0x08⟩
  else if 0xF1 ≤ n ∧ n ≤ 0xF3 then some ⟨pos, b, 3, 0x80, 0xBF, n % 0x08⟩
  else none

/-- The bits of a pending character with those of its next byte. -/
def Pending.bitsWith (p : Pending) (b : UInt8) : Nat := p.bits * 0x40 + b.toNat % 0x40

/-- Read on from offset `pos`, with the characters read so far, last one first. -/
def decodeFrom (pos : Nat) (done : List Char) (pending : Option Pending) :
    List UInt8 → Except Fault (List Char)
  | [] =>
    match pending with
    | none => .ok done.reverse
    | some p => .error ⟨p.first, pos - 1, p.byte, .ended⟩
  | b :: bs =>
    match pending with
    | none =>
      if b.toNat < 0x80 then decodeFrom (pos + 1) (Char.ofNat b.toNat :: done) none bs
      else
        match Pending.ofByte? pos b with
        | some p => decodeFrom (pos + 1) done (some p) bs
        | none => .error ⟨pos, pos, b, .start⟩
    | some p =>
      if p.low ≤ b.toNat ∧ b.toNat ≤ p.high then
        if p.owed ≤ 1 then decodeFrom (pos + 1) (Char.ofNat (p.bitsWith b) :: done) none bs
        else
          decodeFrom (pos + 1) done
            (some ⟨p.first, p.byte, p.owed - 1, 0x80, 0xBF, p.bitsWith b⟩) bs
      else .error ⟨p.first, pos - 1, p.byte, .continuation⟩

/-- The text that the bytes encode, or the first bad sequence. -/
def decode (bytes : List UInt8) : Except Fault String :=
  (decodeFrom 0 [] none bytes).map String.ofList

end CatAndMouse.Text.Utf8
