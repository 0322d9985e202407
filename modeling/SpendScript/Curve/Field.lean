/-!
# The numbers of the curve secp256k1

What this file fixes:

* `Curve.fieldPrime` -- coordinates are numbers below this prime.
* `Curve.order` -- the number of points; secrets, nonces and the two halves of a signature are
  numbers below it.
* `powMod`, `inverseMod` -- powers by repeated squaring, and inverses as the power that the little
  theorem of Fermat gives, both modulo a prime.
-/

namespace SpendScript.Curve

/-- The prime below which coordinates lie. -/
def fieldPrime : Nat := 0xfffffffffffffffffffffffffffffffffffffffffffffffffffffffefffffc2f

/-- The number of points of the curve. -/
def order : Nat := 0xfffffffffffffffffffffffffffffffebaaedce6af48a03bbfd25e8cd0364141

/-- The largest number that counts as the low one of a pair `s`, `order - s`. -/
def halfOrder : Nat := (order - 1) / 2

/-- `base ^ exponent` modulo `modulus`, by repeated squaring. -/
def powMod (modulus base exponent : Nat) : Nat :=
  if exponent = 0 then 1 % modulus
  else
    let half := powMod modulus (base * base % modulus) (exponent / 2)
    if exponent % 2 = 1 then base * half % modulus else half
termination_by exponent

/-- The inverse of a number modulo a prime; zero has the inverse zero. -/
def inverseMod (prime a : Nat) : Nat := powMod prime a (prime - 2)

/-- The difference of two coordinates. -/
def subMod (a b : Nat) : Nat := (a + (fieldPrime - b % fieldPrime)) % fieldPrime

/-- The square root of a coordinate that is a square. The prime leaves remainder three by four, so
a power gives it; for a number that is no square the result is not a root. -/
def sqrtMod (a : Nat) : Nat := powMod fieldPrime a ((fieldPrime + 1) / 4)

end SpendScript.Curve
