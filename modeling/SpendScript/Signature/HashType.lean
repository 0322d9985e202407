import SpendScript.Bytes.Hex
/-!
# The byte at the end of a signature

What this file fixes:

* `SignedOutputs` -- which outputs of the transaction a signature covers.
* `HashType` -- that, and whether other inputs may be added.
* `HashType.ofByte` -- read from the byte. Under the strict rule only three values are defined,
  each with or without the top bit; without it every byte means something.
-/

namespace SpendScript

/-- Which outputs a signature covers. -/
inductive SignedOutputs where
  | all
  | single
  | none
  deriving DecidableEq, Repr

/-- What a signature covers. -/
structure HashType where
  outputs : SignedOutputs
  anyoneCanPay : Bool
  deriving DecidableEq, Repr

namespace HashType

/-- A byte that the strict rule leaves undefined. -/
structure Undefined where
  byte : UInt8
  deriving DecidableEq, Repr

def Undefined.message (e : Undefined) : String :=
  "undefined hash type 0x" ++ String.ofList (Hex.ofByte e.byte)

/-- Whether the byte without its top bit is 1, 2 or 3. -/
def IsDefined (byte : UInt8) : Prop := 1 ≤ byte &&& 0x7f ∧ byte &&& 0x7f ≤ 3

instance (byte : UInt8) : Decidable (IsDefined byte) := inferInstanceAs (Decidable (_ ∧ _))

/-- What a byte covers: the low five bits say which outputs, the top bit whether inputs may be
added. -/
def ofByte (byte : UInt8) (strict : Bool) : Except Undefined HashType :=
  if strict && !decide (IsDefined byte) then .error ⟨byte⟩
  else
    let outputs :=
      if byte &&& 0x1f = 2 then SignedOutputs.none
      else if byte &&& 0x1f = 3 then SignedOutputs.single
      else SignedOutputs.all
    .ok ⟨outputs, byte &&& 0x80 != 0⟩

end HashType

end SpendScript
