import SpendScript.Hash.Sha256
/-!
# Keyed SHA-256

`hmac key message` is the digest of the outer pad and the digest of the inner pad and the message.
A key of more than a block is replaced by its digest, a shorter one is filled up with zeros.
-/

namespace SpendScript.Sha256

/-- The key in exactly one block. -/
def keyBlock (key : Bytes) : Bytes :=
  let key := if 64 < key.length then digest key else key
  key ++ List.replicate (64 - key.length) 0

/-- The keyed digest of a message. -/
def hmac (key message : Bytes) : Bytes :=
  let block := keyBlock key
  digest (block.map (· ^^^ 0x5c) ++ digest (block.map (· ^^^ 0x36) ++ message))

@[simp] theorem length_hmac (key message : Bytes) : (hmac key message).length = 32 := by
  simp [hmac]

end SpendScript.Sha256
