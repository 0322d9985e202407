import SpendScript.Curve.LaxDer
import SpendScript.Signature.Encoding
/-!
# Who is asked about signatures and lock times

Evaluation knows nothing of the transaction. Whether a signature fits and whether a lock time has
come are questions, and a checker answers them.

What this file fixes:

* `Checker` -- the two answers, as functions of the question.
* `Query` -- a question with the answer it got.
* `Checker.rejecting`, `Checker.table` -- checkers that need no transaction.
* `SpendContext` -- what a real transaction contributes, and the checker made from it.
-/

namespace SpendScript

/-- Answers about signatures and lock times. A signature still carries its hash type byte, and
the code is the part of the script that the signature covers. -/
structure Checker where
  signature : (sig key code : Bytes) → Bool
  lockTime : Int → Bool

/-- A question to a checker, with its answer. -/
inductive Query where
  | signature (sig key code : Bytes) (answer : Bool)
  | lockTime (n : Int) (answer : Bool)
  deriving DecidableEq, Repr

/-- Rejects every signature and every lock time. -/
def Checker.rejecting : Checker := ⟨fun _ _ _ => false, fun _ => false⟩

/-- Accepts the signatures and keys of a list of pairs, in which a missing side stands for anything,
and the lock times up to a limit. -/
def Checker.table (pairs : List (Option Bytes × Option Bytes)) (maxLock : Int) : Checker where
  signature := fun sig key _ =>
    pairs.any fun (s, k) => s.all (· == sig) && k.all (· == key)
  lockTime := fun n => n ≤ maxLock

/-- Below this number a lock time is a height, and from it on a time. -/
def lockTimeThreshold : Int := 500000000

/-- What the spending transaction contributes: the digest that a signature covers, given the code
and the hash type byte, its lock time, and whether the input opts out of lock times. Beside it
stands the reader of signatures. -/
structure SpendContext where
  digest : (code : Bytes) → (hashType : UInt8) → Option Bytes
  lockTime : Int
  isFinal : Bool
  reader : Ecdsa.Reader := LaxDer.signature?

namespace SpendContext

/-- A signature fits if the key is there, the signature can be read, the transaction has a digest
for its hash type, and signature and key fit that digest. -/
def checkSignature (c : SpendContext) (sig key code : Bytes) : Bool :=
  if key.isEmpty then false
  else
    match DecodedSignature.ofBytes? c.reader sig with
    | none => false
    | some decoded =>
      match c.digest code decoded.hashType with
      | none => false
      | some digest => Ecdsa.verify digest decoded.signature key

/-- A lock time has come if it is of the same sort as the transaction's own, is not above it, and
the input does not opt out. -/
def checkLockTime (c : SpendContext) (n : Int) : Bool :=
  if c.lockTime < lockTimeThreshold ∧ lockTimeThreshold ≤ n
      ∨ lockTimeThreshold ≤ c.lockTime ∧ n < lockTimeThreshold
      ∨ c.lockTime < n then
    false
  else !c.isFinal

/-- The checker of a transaction. -/
def checker (c : SpendContext) : Checker := ⟨c.checkSignature, c.checkLockTime⟩

end SpendContext

end SpendScript
