import SpendScript.Bytes.Hex
/-!
# Numbers on the stack

A number is written in sign and magnitude, least significant byte first: the top bit of the last
byte is the sign, the encoding is as short as it can be, and the empty string is zero.

What this file fixes:

* `ScriptNumber.encode` -- the shortest encoding of an integer.
* `ScriptNumber.decode` -- the integer of a byte string, refused when it is longer than the caller
  allows, when it is longer than the caller asks for (`isMinimal`), or when it does not fit 64 bits.
* `ScriptNumber.ofInt?` -- the test for 64 bits that all arithmetic ends with, and the operations
  `add?`, `sub?`, `neg?`, `abs?` built on it; `add`, `sub`, `neg` name what overflowed instead.
-/

namespace SpendScript.ScriptNumber

/-! ## 1. Encoding -/

/-- The shortest encoding of an integer. -/
def encode (v : Int) : Bytes :=
  let k := Bytes.signedWidth v.natAbs
  Bytes.ofNatLE k (v.natAbs + if v < 0 then 2 ^ (8 * k - 1) else 0)

@[simp] theorem encode_zero : encode 0 = [] := by decide

@[simp] theorem length_encode (v : Int) : (encode v).length =
    Bytes.signedWidth v.natAbs := by
  simp [encode]

/-! ## 2. Decoding -/

/-- Why a byte string is not a number. -/
inductive Malformed where
  | notMinimal (bytes : Bytes)
  | tooLong (maximum actual : Nat)
  deriving DecidableEq, Repr

/-- The integer whose sign and magnitude the bytes spell. -/
def signMagnitude (bytes : Bytes) : Int :=
  let n := bytes.toNatLE
  let signBit := 2 ^ (8 * bytes.length - 1)
  if n < signBit then (n : Int) else -((n - signBit : Nat) : Int)

/-- Whether no byte could be left out: the last byte holds more than the sign, or it is there
because the byte before it uses its own top bit. -/
def isMinimal (bytes : Bytes) : Bool :=
  match bytes.reverse with
  | [] => true
  | [last] => last &&& 0x7f != 0
  | last :: next :: _ => last &&& 0x7f != 0 || next &&& 0x80 != 0

/-- The least number of 64 bits, which needs nine bytes. -/
def least : Int := -2 ^ 63

/-- The only nine bytes that decode. -/
def leastEncoding : Bytes := [0, 0, 0, 0, 0, 0, 0, 0x80, 0x80]

/-- The default limit on the length of an operand. -/
def defaultMaxSize : Nat := 4

/-- The number that a byte string of at most `maxSize` bytes encodes. -/
def decode (bytes : Bytes) (minimal : Bool) (maxSize : Nat) : Except Malformed Int :=
  if maxSize < bytes.length then .error (.tooLong maxSize bytes.length)
  else if minimal && !isMinimal bytes then .error (.notMinimal bytes)
  else if bytes = leastEncoding then .ok least
  else if 8 < bytes.length then .error (.tooLong 8 bytes.length)
  else .ok (signMagnitude bytes)

@[simp] theorem decode_nil (minimal : Bool) (maxSize : Nat) : decode [] minimal maxSize = .ok 0 := by
  cases minimal <;> simp [decode, isMinimal, leastEncoding, signMagnitude]

/-- Bytes in brackets, each in two digits. -/
def bracketed (bytes : Bytes) : String :=
  "[" ++ ", ".intercalate (bytes.map fun b => String.ofList (Hex.ofByte b)) ++ "]"

/-- The wording of a refusal. -/
def Malformed.message : Malformed → String
  | .notMinimal bytes => "non-minimal encoding of script number: " ++ bracketed bytes
  | .tooLong maximum actual =>
    s!"script number overflow: max: {maximum}, actual: {actual}"

/-! ## 3. Arithmetic in 64 bits -/

/-- Whether an integer fits 64 bits. -/
def Fits (v : Int) : Prop := least ≤ v ∧ v < 2 ^ 63

instance (v : Int) : Decidable (Fits v) := inferInstanceAs (Decidable (_ ∧ _))

/-- The integer, if it fits 64 bits. -/
def ofInt? (v : Int) : Option Int := if Fits v then some v else none

def add? (a b : Int) : Option Int := ofInt? (a + b)

def sub? (a b : Int) : Option Int := ofInt? (a - b)

def neg? (a : Int) : Option Int := ofInt? (-a)

def abs? (a : Int) : Option Int := ofInt? a.natAbs

theorem ofInt?_eq_some_iff {v w : Int} : ofInt? v = some w ↔ Fits v ∧ v = w := by
  unfold ofInt?
  split <;> simp_all

/-- An operation whose result does not fit. -/
inductive Overflow where
  | add (a b : Int)
  | sub (a b : Int)
  | negLeast
  deriving DecidableEq, Repr

def Overflow.message : Overflow → String
  | .add a b => s!"{a} + {b} overflows a script number"
  | .sub a b => s!"{a} - {b} overflows a script number"
  | .negLeast => "can’t negate i64::MIN"

/-- The sum, or which sum overflowed. -/
def add (a b : Int) : Except Overflow Int := (add? a b).elim (.error (.add a b)) .ok

/-- The difference, or which difference overflowed. -/
def sub (a b : Int) : Except Overflow Int := (sub? a b).elim (.error (.sub a b)) .ok

/-- The negation, which only the least number lacks. -/
def neg (a : Int) : Except Overflow Int := (neg? a).elim (.error .negLeast) .ok

end SpendScript.ScriptNumber
