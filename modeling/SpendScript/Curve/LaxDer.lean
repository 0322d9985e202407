import SpendScript.Curve.Ecdsa
/-!
# The lenient reading of a signature

Before strict encoding was a rule, signatures entered the chain in many variations of DER. The
lenient reading accepts them all: the length of the whole is not looked at, lengths may be written
in more bytes than needed, numbers may carry leading zeros, and what follows the second number is
ignored.

What this file fixes:

* `LaxDer.length?` -- a length, in one byte or in up to seven significant ones.
* `LaxDer.number?` -- a number with its tag and its length.
* `LaxDer.signature?` -- the whole, which is the reader of the chain. Numbers that do not fit the
  curve are not a failure: they give the pair of zeros, which verifies nothing.
-/

namespace SpendScript.LaxDer

/-- A length and what follows it. From 128 on, the first byte says how many bytes spell the
length; their leading zeros are skipped and at most seven may remain. -/
def length? : Bytes → Option (Nat × Bytes)
  | [] => none
  | first :: rest =>
    if first < 128 then some (first.toNat, rest)
    else
      let count := first.toNat - 128
      if rest.length < count then none
      else
        let digits := Bytes.dropZeros (rest.take count)
        if 8 ≤ digits.length then none else some (Bytes.toNatBE digits, rest.drop count)

/-- The bytes of a number, tagged 2 and preceded by their count, and what follows them. -/
def number? : Bytes → Option (Bytes × Bytes)
  | [] => none
  | tag :: rest =>
    if tag = 2 then
      match length? rest with
      | none => none
      | some (count, body) =>
        if body.length < count then none else some (body.take count, body.drop count)
    else none

/-- What follows the head of the sequence: the tag 48 and a length that is skipped unread. -/
def body? : Bytes → Option Bytes
  | tag :: first :: rest =>
    if tag = 48 then
      if first < 128 then some rest
      else if rest.length < first.toNat - 128 then none
      else some (rest.drop (first.toNat - 128))
    else none
  | _ => none

/-- The pair that two numbers spell, or the pair of zeros when one does not fit. -/
def pair (r s : Bytes) : Ecdsa.Signature :=
  let r := Bytes.dropZeros r
  let s := Bytes.dropZeros s
  if 32 < r.length ∨ 32 < s.length then .zero
  else .ofPair (Bytes.toNatBE r) (Bytes.toNatBE s)

/-- The signature that a byte string stands for, or nothing where it runs out of bytes or a tag is
missing. -/
def signature? : Ecdsa.Reader := fun bytes => do
  let body ← body? bytes
  let (r, rest) ← number? body
  let (s, _) ← number? rest
  return pair r s

end SpendScript.LaxDer
