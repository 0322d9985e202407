import SpendScript.Hash.Sha1
import SpendScript.Hash.Sha256
import SpendScript.Hash.Ripemd160
/-!
# The digest functions that scripts call

What this file fixes:

* `Hashes` -- three digest functions with the lengths of their digests. Everything that evaluates
  or builds scripts takes one, so that what is proved of it holds whatever the functions are.
* `Hashes.standard` -- SHA-1, SHA-256 and RIPEMD-160.
* `Hashes.hash160`, `Hashes.hash256` -- the two compositions that scripts use.
-/

namespace SpendScript

/-- Three digest functions, of which only the lengths of the digests are promised. -/
structure Hashes where
  sha1 : Bytes → Bytes
  sha256 : Bytes → Bytes
  ripemd160 : Bytes → Bytes
  length_sha1 : ∀ message, (sha1 message).length = 20
  length_sha256 : ∀ message, (sha256 message).length = 32
  length_ripemd160 : ∀ message, (ripemd160 message).length = 20

namespace Hashes

/-- The functions of the standards. -/
def standard : Hashes where
  sha1 := Sha1.digest
  sha256 := Sha256.digest
  ripemd160 := Ripemd160.digest
  length_sha1 := Sha1.length_digest
  length_sha256 := Sha256.length_digest
  length_ripemd160 := Ripemd160.length_digest

attribute [simp] length_sha1 length_sha256 length_ripemd160

/-- The RIPEMD-160 of the SHA-256: what outputs commit to. -/
def hash160 (h : Hashes) (data : Bytes) : Bytes := h.ripemd160 (h.sha256 data)

/-- The SHA-256 of the SHA-256. -/
def hash256 (h : Hashes) (data : Bytes) : Bytes := h.sha256 (h.sha256 data)

@[simp] theorem length_hash160 (h : Hashes) (data : Bytes) : (h.hash160 data).length = 20 := by
  simp [hash160]

@[simp] theorem length_hash256 (h : Hashes) (data : Bytes) : (h.hash256 data).length = 32 := by
  simp [hash256]

end Hashes

end SpendScript
