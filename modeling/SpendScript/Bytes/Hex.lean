import SpendScript.Bytes
/-!
# Byte strings as hexadecimal text

What this file fixes:

* `Hex.encode` -- two lower-case digits per byte.
* `Hex.decode` -- reads text given by its own bytes, in either letter case. Text of odd length is
  refused before any digit is looked at; otherwise the first byte that is no digit is reported
  with its position.
* `Hex.Malformed.message` -- the wording of both refusals. An offending byte is shown as the
  character of that number between quotes, escaped where it has no glyph of its own.
* `decode_encode` -- reading what was written gives the bytes back.
-/

namespace SpendScript.Hex

/-! ## 1. Writing -/

/-- The digit of a number below sixteen. -/
def digit (n : Nat) : Char := if n < 10 then Char.ofNat (48 + n) else Char.ofNat (87 + n)

/-- The two digits of a byte. -/
def ofByte (b : UInt8) : List Char := [digit (b.toNat / 16), digit (b.toNat % 16)]

/-- Two lower-case digits per byte, in order. -/
def encode (bs : Bytes) : String := String.ofList (bs.flatMap ofByte)

/-! ## 2. Reading -/

/-- Why text is not the hexadecimal form of a byte string. -/
inductive Malformed where
  | oddLength
  | invalidCharacter (byte : UInt8) (position : Nat)
  deriving DecidableEq, Repr

/-- The value of a digit, in either letter case. -/
def value? (c : UInt8) : Option Nat :=
  if 48 ≤ c ∧ c ≤ 57 then some (c.toNat - 48)
  else if 97 ≤ c ∧ c ≤ 102 then some (c.toNat - 87)
  else if 65 ≤ c ∧ c ≤ 70 then some (c.toNat - 55)
  else none

/-- Reads pairs of digits; `position` is where the text starts in the whole. -/
def decodePairs (position : Nat) : Bytes → Except Malformed Bytes
  | [] => .ok []
  | [_] => .error .oddLength
  | high :: low :: rest =>
    match value? high, value? low with
    | none, _ => .error (.invalidCharacter high position)
    | some _, none => .error (.invalidCharacter low (position + 1))
    | some h, some l => (decodePairs (position + 2) rest).map (UInt8.ofNat (16 * h + l) :: ·)

/-- The bytes that a text spells; an odd length is refused first. -/
def decode (text : Bytes) : Except Malformed Bytes :=
  if text.length % 2 = 1 then .error .oddLength else decodePairs 0 text

/-! ## 3. Wording -/

/-- The lower-case hexadecimal digits of a byte, without a leading zero. -/
def shortest (b : UInt8) : String :=
  String.ofList (if b.toNat < 16 then [digit b.toNat] else ofByte b)

/-- A byte shown as the character of that number. Characters without a glyph are escaped. -/
def glyph (b : UInt8) : String :=
  if b = 0 then "\\0"
  else if b = 9 then "\\t"
  else if b = 10 then "\\n"
  else if b = 13 then "\\r"
  else if b = 39 then "\\'"
  else if b = 92 then "\\\\"
  else if (32 ≤ b ∧ b ≤ 126) ∨ (161 ≤ b ∧ b ≠ 173) then String.singleton (Char.ofNat b.toNat)
  else "\\u\x7b" ++ shortest b ++ "\x7d"

/-- The wording of a refusal. -/
def Malformed.message : Malformed → String
  | .oddLength => "Odd number of digits"
  | .invalidCharacter byte position =>
    "Invalid character '" ++ glyph byte ++ "' at position " ++ toString position

/-! ## 4. Reading what was written -/

theorem value?_digit : ∀ n < 16, value? (digit n).toUInt8 = some n := by decide

/-- **Text written by `ofByte` reads back**, whatever follows it. -/
theorem decodePairs_ofByte (position : Nat) (bs : Bytes) :
    decodePairs position ((bs.flatMap ofByte).map Char.toUInt8) = .ok bs := by
  induction bs generalizing position with
  | nil => rfl
  | cons b bs ih =>
    have hb : b.toNat < 256 := b.toNat_lt
    have high := value?_digit (b.toNat / 16) (by omega)
    have low := value?_digit (b.toNat % 16) (by omega)
    have back : UInt8.ofNat (16 * (b.toNat / 16) + b.toNat % 16) = b := by
      rw [Nat.div_add_mod]; exact UInt8.ofNat_toNat
    simp [ofByte, decodePairs, high, low, ih, back, Except.map]

theorem decode_encode (bs : Bytes) :
    decode ((bs.flatMap ofByte).map Char.toUInt8) = .ok bs := by
  have even : ((bs.flatMap ofByte).map Char.toUInt8).length % 2 = 0 := by
    induction bs with
    | nil => rfl
    | cons b bs ih => simp [ofByte] at ih ⊢; omega
  rw [decode, if_neg (by omega)]
  exact decodePairs_ofByte 0 bs

end SpendScript.Hex
