import SpendScript.Curve.PublicKey
/-!
# Signatures on the curve

What this file fixes:

* `Ecdsa.Signature` -- a pair of numbers below the order of the curve; `Signature.zero` stands for
  every encoding that is readable and out of range, and verifies nothing.
* `Signature.normalized` -- the signature with the low one of `s` and `order - s`. Both verify
  alike, so the low one is the canonical choice (`isLowS_normalized`).
* `Ecdsa.Reader` -- a lenient reading of serialized signatures. Everything that reads signatures
  takes one, so that what is proved of it holds whatever the reading is.
* `Ecdsa.verify` -- whether a signature fits a digest and a key.
-/

namespace SpendScript.Ecdsa

open Curve

/-- A pair of numbers below the order of the curve. -/
structure Signature where
  r : Nat
  s : Nat
  r_lt : r < order
  s_lt : s < order

namespace Signature

/-- The pair of zeros. -/
def zero : Signature := ⟨0, 0, by decide, by decide⟩

/-- Reads a pair of numbers; a number out of range gives the pair of zeros. -/
def ofPair (r s : Nat) : Signature :=
  if h : r < order ∧ s < order then ⟨r, s, h.1, h.2⟩ else zero

/-- Both numbers in 32 bytes each, most significant byte first. -/
def compact (sig : Signature) : Bytes := Bytes.ofNatBE 32 sig.r ++ Bytes.ofNatBE 32 sig.s

/-- Whether `s` is the low one of `s` and `order - s`. -/
def isLowS (sig : Signature) : Bool := sig.s ≤ halfOrder

/-- The signature with the low one of `s` and `order - s`. -/
def normalized (sig : Signature) : Signature :=
  if h : sig.s ≤ halfOrder then sig
  else ⟨sig.r, order - sig.s, sig.r_lt, by have := sig.s_lt; omega⟩

/-- A signature that is low already is its own canonical choice. -/
@[simp] theorem normalized_of_isLowS {sig : Signature} (h : sig.isLowS = true) :
    sig.normalized = sig := by
  simp only [isLowS, decide_eq_true_eq] at h
  simp [normalized, h]

/-- The canonical choice is low. -/
@[simp] theorem isLowS_normalized (sig : Signature) : sig.normalized.isLowS = true := by
  unfold normalized
  split
  · next h => simp [isLowS, h]
  · next h =>
    have hlt := sig.s_lt
    simp only [halfOrder, order] at h hlt
    refine decide_eq_true ?_
    simp only [halfOrder, order]
    omega

end Signature

/-- A reading of serialized signatures, without their hash type. Nothing is promised of it: which
encodings are taken is a matter of the library that reads them. -/
abbrev Reader := (der : Bytes) → Option Signature

/-- Whether a signature fits a 32-byte digest and the point of a key. With `w` the inverse of `s`,
the point `digest · w · generator + r · w · key` has to exist and have `r` as its `x`, all modulo
the order. -/
def verifyPoint (digest : Bytes) (sig : Signature) (key : Point) : Bool :=
  if sig.r = 0 ∨ sig.s = 0 then false
  else
    let w := inverseMod order sig.s
    let u1 := Bytes.toNatBE digest % order * w % order
    let u2 := sig.r * w % order
    let sum := Projective.add ((Projective.ofPoint generator).times u1)
      ((Projective.ofPoint key).times u2)
    match sum.toPoint? with
    | none => false
    | some q => q.x % order == sig.r

/-- Whether a signature fits a digest and a serialized key; a key that is none fits nothing. -/
def verify (digest : Bytes) (sig : Signature) (key : Bytes) : Bool :=
  match PublicKey.point? key with
  | none => false
  | some q => verifyPoint digest sig q

end SpendScript.Ecdsa
