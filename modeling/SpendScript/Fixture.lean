import SpendScript.Checker
import SpendScript.Flags
import SpendScript.Template
import SpendScript.Signature.Signing
/-!
# A spend to try things on

What this file fixes: one pay-to-script-hash spend that was confirmed on the chain, with its three
scripts, its digest and its lock time; one secret with its public key; and signatures by it.
-/

namespace SpendScript.Fixture

/-! ## 1. A confirmed spend -/

/-- One byte more than a script may have. -/
def overflowScriptSize : Nat := ({} : Limits).maxScriptSize + 1

/-- The lock time of the spending transaction. -/
def lockTime : Int := 2410374

/-- The three keys, of which two have to sign. -/
def keys : List Bytes :=
  [Bytes.ofNatBE 33 0x03b2cc71d23eb30020a4893982a1e2d352da0d20ee657fa02901c432758909ed8f,
   Bytes.ofNatBE 33 0x029d1e9a9354c0d2aee9ffd0f0cea6c39bbf98c4066cf143115ba2279d0ba7dabe,
   Bytes.ofNatBE 33 0x03e32096b63fd57f3308149d238dcbb24d8d28aad95c0e4e74e3e5e6a11b61bcc4]

/-- The two signatures, each with its hash type byte. -/
def signatures : List Bytes :=
  [Bytes.ofNatBE 72 0x3045022100d2ab3e6258fe244fa442cfb38f6cef9ac9a18c54e70b2f508e83fa87e20d040502200eead947521de943831d07a350e45af8e36c2166984a8636f0a8811ff03ed09401,
   Bytes.ofNatBE 71 0x3044022013e15d865010c257eef133064ef69a780b4bc7ebe6eda367504e806614f940c3022062fdbc8c2d049f91db2042d6c9771de6f1ef0b3b1fea76c1ab5542e44ed29ed801]

/-- The script that the output commits to. -/
def redeemScript : Program :=
  Template.multisigOf 2 (keys.map fun key => .data ⟨.direct, key⟩) false

/-- The output script. -/
def scriptPubKey : Program := Template.payToScriptHash .standard redeemScript

/-- The signature script. -/
def scriptSig : Program :=
  .push (Template.pushNumber 0) ::
    (signatures.map fun sig => .push (.data ⟨.direct, sig⟩)) ++
    [.push (.data ⟨.pushData1, redeemScript.encode⟩)]

/-- The digest that the signatures cover. -/
def digest : Bytes :=
  Bytes.ofNatBE 32 0xe8c7bdac77f6bb1f3aba2eaa1fada551a9c8b3b5ecd1ef86e6e58a5f1aab952c

/-- A digest that they do not cover. -/
def otherDigest : Bytes :=
  Bytes.ofNatBE 32 0x08c7bdac77f6bb1f3aba2eaa1fada551a9c8b3b5ecd1ef86e6e58a5f1aab952c

/-- The digest of the spend, whatever is signed. -/
def sighash (_code : Bytes) (_hashType : UInt8) : Option Bytes := some digest

/-- The other digest, whatever is signed. -/
def invalidSighash (_code : Bytes) (_hashType : UInt8) : Option Bytes := some otherDigest

/-- No digest at all. -/
def missingSighash (_code : Bytes) (_hashType : UInt8) : Option Bytes := none

/-! ## 2. A secret -/

/-- The secret. -/
def secretKey : Bytes := List.replicate 32 0x11

/-- Its public key. -/
def publicKey : Bytes :=
  Bytes.ofNatBE 33 0x034f355bdcb7cc0af728ef3cceb9615d90684bb5b2ca5f859ab0f0b704075871aa

/-- The signature of a digest by a secret, as it stands on the stack. -/
def signWith? (secret digest : Bytes) (hashType : UInt8) : Option Bytes :=
  (Signing.sign? secret digest).map fun sig => Signing.der sig ++ [hashType]

/-- The signature of a digest by the secret of this file. -/
def sign? (digest : Bytes) (hashType : UInt8) : Option Bytes := signWith? secretKey digest hashType

/-- The signature script that spends to the public key of this file. -/
def publicKeyHashSig? (digest : Bytes) (hashType : UInt8) : Option Program := do
  let sig ← Push.element? (← sign? digest hashType)
  let key ← Push.element? publicKey
  return [.push sig, .push key]

end SpendScript.Fixture
