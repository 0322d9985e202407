import SpendScript.Signature.HashType
import SpendScript.Signature.StrictDer
import SpendScript.Curve.Ecdsa
/-!
# What the rules on encodings ask of signatures and keys

A signature on the stack is DER followed by its hash type byte. The empty signature passes every
rule: it is the short way to give a signature that fails.

What this file fixes:

* `Encoding.checkSignature` -- strict DER, then the low `s`, then the hash type, each as far as the
  rules in force ask for it.
* `Encoding.checkPublicKey` -- the form of a key.
* `DecodedSignature` -- a signature ready for verification, read leniently and with the low `s`.

How a signature is read leniently is not fixed here: whatever reads one is given the reader.
-/

namespace SpendScript

namespace Encoding

/-- Which rules are in force. -/
structure Rules where
  der : Bool
  lowS : Bool
  strict : Bool
  deriving DecidableEq, Repr

/-- The rule that an encoding breaks. -/
inductive Violation where
  | hashType (e : HashType.Undefined)
  | der (e : StrictDer.Malformed)
  | highS
  | publicKeyType
  deriving DecidableEq, Repr

def Violation.message : Violation → String
  | hashType e => "signature hash type error: " ++ e.message
  | der e => "signature DER encoding error: " ++ e.message
  | highS => "signature s value is too high"
  | publicKeyType => "public key is neither compressed nor uncompressed"

/-- Whether a signature without its hash type reads leniently with a low `s`. -/
def hasLowS (reader : Ecdsa.Reader) (der : Bytes) : Bool :=
  match reader der with
  | some sig => sig.isLowS
  | none => false

/-- A signature with its hash type byte, under the rules in force. -/
def checkSignature (reader : Ecdsa.Reader) (rules : Rules) (sig : Bytes) :
    Except Violation Unit :=
  match sig.getLast? with
  | none => .ok ()
  | some hashType => do
    let der := sig.dropLast
    if rules.der || rules.lowS || rules.strict then
      (StrictDer.check der).mapError .der
    if rules.lowS && !hasLowS reader der then
      throw .highS
    if rules.strict then
      discard ((HashType.ofByte hashType true).mapError .hashType)

/-- The rules on a signature that is not empty are three checks in a row. -/
theorem checkSignature_eq_bind {sig : Bytes} {hashType : UInt8}
    (hlast : sig.getLast? = some hashType) (reader : Ecdsa.Reader) (rules : Rules) :
    checkSignature reader rules sig = (do
      (if rules.der || rules.lowS || rules.strict then
        (StrictDer.check sig.dropLast).mapError Violation.der else .ok ())
      (if rules.lowS && !hasLowS reader sig.dropLast then .error .highS else .ok ())
      (if rules.strict then
        discard ((HashType.ofByte hashType true).mapError Violation.hashType)
        else .ok ())) := by
  unfold checkSignature
  rw [hlast]
  dsimp only
  split <;> split <;> rfl

/-- A key, which only the strict rule looks at. -/
def checkPublicKey (strict : Bool) (key : Bytes) : Except Violation Unit :=
  if strict && !Curve.PublicKey.isCompressedOrUncompressed key then .error .publicKeyType
  else .ok ()

end Encoding

/-- A signature ready for verification. -/
structure DecodedSignature where
  signature : Ecdsa.Signature
  hashType : UInt8

/-- Reads a signature with its hash type byte. The reading is lenient, because the rules on
encodings are checked on their own, and the result has the low `s`. -/
def DecodedSignature.ofBytes? (reader : Ecdsa.Reader) (sig : Bytes) :
    Option DecodedSignature := do
  let hashType ← sig.getLast?
  let signature ← reader sig.dropLast
  return ⟨signature.normalized, hashType⟩

end SpendScript
