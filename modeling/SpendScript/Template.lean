import SpendScript.Hash
import SpendScript.Program
/-!
# Scripts with holes

What this file fixes: the pieces that standard scripts are made of, and the scripts themselves. The
diagrams show the stack with its top on the right, before and after.

* `pushNumber`, `pushScript?`, `pushHash` -- shortest pushes of numbers, scripts and hashes.
* `branch`, `equals`, `checkSig`, `checkMultisig?`, `checkLockTime` -- pieces.
* `payToPublicKey`, `payToPublicKeyHash`, `payToScriptHash`, `hashTimeLock` -- whole scripts.

A key longer than a stack element may be fits no script; pieces that need one say so
(`KeyTooLong`).
-/

namespace SpendScript.Template

/-! ## 1. Pushes -/

/-- The shortest push of a number of 64 bits. -/
def pushNumber (v : Int) : Push :=
  match SmallValue.ofInt? v with
  | some small => .small small
  | none => .data ⟨.direct, ScriptNumber.encode v⟩

/-- The shortest push of a script, unless it is longer than a stack element may be. -/
def pushScript? (script : Program) : Option Push := Push.element? script.encode

/-- The push of a hash of 20 bytes. -/
def pushHash (hash : Bytes) : Push := .data ⟨.direct, hash⟩

/-! ## 2. Pieces -/

/-- Both branches of a conditional: `b --` and then one of them -/
def branch (onTrue onFalse : Program) : Program :=
  .control .opIf :: onTrue ++ .control .opElse :: onFalse ++ [.control .opEndIf]

/-- `x -- b`, whether `x` is what was expected; the verifying form fails instead -/
def equals (expected : Push) (verifying : Bool) : Program :=
  [.push expected, .operation (if verifying then .equalVerify else .equal)]

/-- A key that is longer than a stack element may be. -/
structure KeyTooLong where
  key : Bytes
  deriving DecidableEq, Repr

def KeyTooLong.message (_ : KeyTooLong) : String := "each pubkey is no more than 65 bytes"

/-- `sig -- b`, whether the signature fits the key; the verifying form fails instead -/
def checkSig (key : Bytes) (verifying : Bool) : Except KeyTooLong Program :=
  match Push.element? key with
  | none => .error ⟨key⟩
  | some push =>
    .ok [.push push, .operation (if verifying then .checkSigVerify else .checkSig)]

/-- `spare sigs -- b`, whether that many signatures fit keys in the same order, given the pushes
of the keys -/
def multisigOf (sigCount : Nat) (keys : List Push) (verifying : Bool) : Program :=
  .push (pushNumber sigCount) :: keys.map .push ++
    [.push (pushNumber keys.length),
     .operation (if verifying then .checkMultisigVerify else .checkMultisig)]

/-- The same, given the keys; there may be twenty of them, none longer than a stack element. -/
def checkMultisig? (sigCount : UInt8) (keys : List Bytes) (verifying : Bool) : Option Program :=
  if Program.maxPubKeyCount < keys.length then none
  else (keys.mapM Push.element?).map fun pushes => multisigOf sigCount.toNat pushes verifying

/-- `--`, and fails before a lock time -/
def checkLockTime (lockTime : UInt32) : Program :=
  [.push (pushNumber lockTime.toNat), .operation .checkLockTimeVerify, .operation .drop]

/-! ## 3. Whole scripts -/

/-- `sig -- b` -/
def payToPublicKey (key : Bytes) : Except KeyTooLong Program := checkSig key false

/-- `sig key -- b` for a key of the given hash -/
def payToPublicKeyHash (hashes : Hashes) (key : Bytes) : Program :=
  .operation .dup :: .operation .hash160 :: equals (pushHash (hashes.hash160 key)) true ++
    [.operation .checkSig]

/-- `script -- b` for a script of the given hash -/
def payToScriptHash (hashes : Hashes) (script : Program) : Program :=
  .operation .hash160 :: equals (pushHash (hashes.hash160 script.encode)) false

/-- `sig true -- b` for the sender after a lock time, and `sig preimage false -- b` for the
recipient, who shows what was hashed -/
def hashTimeLock (lockTime : UInt32) (sender recipientHash recipient : Bytes) :
    Except KeyTooLong Program := do
  let reclaim ← checkSig sender false
  let claim ← checkSig recipient false
  return branch (checkLockTime lockTime ++ reclaim)
    (.operation .hash160 :: equals (pushHash recipientHash) true ++ claim)

end SpendScript.Template
