import SpendScript.Hash.Hmac
import SpendScript.Curve.Ecdsa
import SpendScript.Signature.StrictDer
/-!
# Signing

What this file fixes:

* `Signing.Generator` -- the deterministic source of nonces of RFC 6979, keyed by the secret and
  the digest, so that a signature needs no randomness and the same call gives the same signature.
* `Signing.sign?` -- the signature of a digest by a secret, with the low `s`.
* `Signing.der` -- a signature in strict DER.
* `Signing.publicKey?` -- the compressed public key of a secret.
-/

namespace SpendScript.Signing

open Curve

/-! ## 1. Nonces -/

/-- The state of the generator: a key and a value of 32 bytes each. -/
structure Generator where
  key : Bytes
  value : Bytes

namespace Generator

/-- Stirs data into the state. -/
def stir (g : Generator) (data : Bytes) : Generator :=
  let key := Sha256.hmac g.key (g.value ++ data)
  ⟨key, Sha256.hmac key g.value⟩

/-- The state after the seed is stirred in twice. -/
def seeded (seed : Bytes) : Generator :=
  let start : Generator := ⟨List.replicate 32 0, List.replicate 32 1⟩
  (start.stir (0 :: seed)).stir (1 :: seed)

/-- The state whose value is the next candidate. -/
def draw (g : Generator) : Generator := ⟨g.key, Sha256.hmac g.key g.value⟩

/-- The state after a candidate was refused. -/
def refuse (g : Generator) : Generator := g.stir [0]

end Generator

/-! ## 2. Signatures -/

/-- The signature with a given nonce, if the nonce is usable. -/
def withNonce? (secret digest nonce : Nat) : Option Ecdsa.Signature :=
  if nonce = 0 ∨ order ≤ nonce then none
  else
    match generator.times? nonce with
    | none => none
    | some q =>
      let r := q.x % order
      let s := inverseMod order nonce * (digest + r * secret) % order
      if r = 0 ∨ s = 0 then none else some (Ecdsa.Signature.ofPair r s).normalized

/-- The first usable candidate among `tries`. A candidate is unusable with a chance of about one
in `2 ^ 127`. -/
def search? (secret digest : Nat) : Nat → Generator → Option Ecdsa.Signature
  | 0, _ => none
  | tries + 1, g =>
    let g := g.draw
    match withNonce? secret digest (Bytes.toNatBE g.value) with
    | some sig => some sig
    | none => search? secret digest tries g.refuse

/-- The signature of a 32-byte digest by a 32-byte secret. -/
def sign? (secret digest : Bytes) : Option Ecdsa.Signature :=
  let reduced := Bytes.toNatBE digest % order
  search? (Bytes.toNatBE secret) reduced 64 (Generator.seeded (secret ++ Bytes.ofNatBE 32 reduced))

/-- The compressed public key of a secret. -/
def publicKey? (secret : Bytes) : Option Bytes :=
  (generator.times? (Bytes.toNatBE secret)).map PublicKey.compressed

/-- A signature in strict DER. -/
def der (sig : Ecdsa.Signature) : Bytes := StrictDer.encode sig.r sig.s

end SpendScript.Signing
