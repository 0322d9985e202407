import SpendScript.Bytes
/-!
# Strict DER

A signature is the byte 48, the length of what follows, and two numbers, each as the byte 2, its
length and its digits, most significant first. A number is as short as it can be and does not read
as negative. The hash type byte is not part of it.

What this file fixes:

* `StrictDer.checkNumber` -- the rule for the digits of a number.
* `StrictDer.body`, `StrictDer.numberHead` -- the rules for the frame around them.
* `StrictDer.check` -- frame and numbers. The tag of the second number is looked at before the
  digits of the first, and these before the length of the second.
* `StrictDer.encode` -- two numbers written by these rules. The checker never calls it; it says the
  same format from the other side.
* the messages of all refusals.
-/

namespace SpendScript.StrictDer

/-! ## 1. Refusals -/

/-- What is wrong with a number. -/
inductive NumberError where
  | notANumber
  | wrongLength (actual expected : Nat)
  | empty
  | leadingZero
  | negative
  deriving DecidableEq, Repr

def NumberError.message : NumberError → String
  | notANumber => "missing the 0x02 integer encoding byte"
  | wrongLength actual expected =>
    s!"the integer was expected to be {expected} bytes, but it was {actual} bytes"
  | empty => "integers can’t be zero-length"
  | leadingZero =>
    "leading 0x00 bytes are disallowed, unless it would otherwise be interpreted as a negative number."
  | negative => "integers can’t be negative"

/-- The two numbers of a signature. -/
inductive Component where
  | r
  | s
  deriving DecidableEq, Repr

def Component.name : Component → String
  | r => "r"
  | s => "s"

/-- What is wrong with a signature. A bad number is given with its digits where it has any. -/
inductive Malformed where
  | wrongType
  | tooLong
  | wrongLength (actual expected : Nat)
  | badNumber (component : Component) (digits : Option Bytes) (error : NumberError)
  deriving DecidableEq, Repr

/-- Bytes in brackets, each as a decimal number. -/
def decimals (bytes : Bytes) : String :=
  "[" ++ ", ".intercalate (bytes.map fun b => toString b.toNat) ++ "]"

def Malformed.message : Malformed → String
  | wrongType => "didn’t start with 0x30, or was missing the length"
  | tooLong => "the signature can’t be longer than 70 bytes"
  | wrongLength actual expected =>
    s!"the signature was expected to be {expected} bytes, but it was {actual} bytes"
  | badNumber component digits error =>
    let value := match digits with
      | some bytes => "(" ++ decimals bytes ++ ") "
      | none => ""
    "the " ++ component.name ++ " component " ++ value ++ "failed: " ++ error.message

/-! ## 2. The rules -/

/-- The digits of a number: at least one, not negative, and a leading zero only where the next
digit would read as a sign. -/
def checkNumber : Bytes → Except NumberError Unit
  | [] => .error .empty
  | [first] => if first &&& 0x80 = 0 then .ok () else .error .negative
  | first :: next :: _ =>
    if first = 0 then
      if next &&& 0x80 ≠ 0 then .ok () else .error .leadingZero
    else if first &&& 0x80 = 0 then .ok () else .error .negative

/-- The length of a number and what follows it. -/
def numberHead (component : Component) : Bytes → Except Malformed (Nat × Bytes)
  | 2 :: length :: rest => .ok (length.toNat, rest)
  | _ => .error (.badNumber component none .notANumber)

/-- The bytes after the head of a signature, checked against the length that it states. -/
def body : Bytes → Except Malformed Bytes
  | 48 :: length :: rest =>
    if 70 < length.toNat then .error .tooLong
    else if length.toNat ≠ rest.length then .error (.wrongLength rest.length length.toNat)
    else .ok rest
  | _ => .error .wrongType

/-- The digits of a number under the rule for them. -/
def checkDigits (component : Component) (digits : Bytes) : Except Malformed Unit :=
  (checkNumber digits).mapError (.badNumber component (some digits))

/-- Whether a byte string is a signature in strict DER. -/
def check (bytes : Bytes) : Except Malformed Unit := do
  let content ← body bytes
  let (rLength, afterHead) ← numberHead .r content
  if afterHead.length < rLength then
    throw (.badNumber .r (some afterHead) (.wrongLength afterHead.length rLength))
  let r := afterHead.take rLength
  let (sLength, s) ← numberHead .s (afterHead.drop rLength)
  checkDigits .r r
  if sLength ≠ s.length then
    throw (.badNumber .s (some s) (.wrongLength s.length sLength))
  checkDigits .s s

/-! ## 3. Writing -/

/-- The digits of a number: as few as leave the top bit free, and one for zero. -/
def digits (n : Nat) : Bytes := Bytes.ofNatBE (max 1 (Bytes.signedWidth n)) n

@[simp] theorem length_digits (n : Nat) : (digits n).length = max 1 (Bytes.signedWidth n) := by
  simp [digits]

/-- A number with its tag and its length. -/
def encodeNumber (n : Nat) : Bytes := 2 :: UInt8.ofNat (digits n).length :: digits n

/-- Two numbers as a signature. The format has room for a content of 70 bytes. -/
def encode (r s : Nat) : Bytes :=
  let content := encodeNumber r ++ encodeNumber s
  48 :: UInt8.ofNat content.length :: content

end SpendScript.StrictDer
