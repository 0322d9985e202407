import SpendScript.Program
import SpendScript.Signature.Encoding
/-!
# Failures

What this file fixes:

* `FailureKind` -- the 32 kinds with their stable codes, names and wording. The first stands for
  success, which tables of expected results need.
* `FailureDetail` -- what more was known where the failure arose, as data; `message` words it.
* `Failure` -- a kind and perhaps a detail. A malformed number, a script that cannot be read and a
  bad encoding become failures by `ofNumber`, `ofRead` and `ofViolation`.
-/

namespace SpendScript

/-! ## 1. Kinds -/

/-- What went wrong. The order of the constructors is that of the codes. -/
inductive FailureKind where
  | ok
  | unknownError
  | evalFalse
  | opReturn
  | scriptSize
  | pushSize
  | opCount
  | stackSize
  | sigCount
  | pubKeyCount
  | verify
  | equalVerify
  | checkMultisigVerify
  | checkSigVerify
  | numEqualVerify
  | badOpcode
  | disabledOpcode
  | invalidStackOperation
  | invalidAltstackOperation
  | unbalancedConditional
  | negativeLockTime
  | unsatisfiedLockTime
  | sigHashType
  | sigDer
  | minimalData
  | sigPushOnly
  | sigHighS
  | sigNullDummy
  | pubKeyType
  | cleanStack
  | discourageUpgradableNops
  | scriptNum
  deriving DecidableEq, Repr

namespace FailureKind

/-- All kinds, by ascending code. -/
def all : List FailureKind :=
  [ok, unknownError, evalFalse, opReturn, scriptSize, pushSize, opCount, stackSize, sigCount,
   pubKeyCount, verify, equalVerify, checkMultisigVerify, checkSigVerify, numEqualVerify, badOpcode,
   disabledOpcode, invalidStackOperation, invalidAltstackOperation, unbalancedConditional,
   negativeLockTime, unsatisfiedLockTime, sigHashType, sigDer, minimalData, sigPushOnly, sigHighS,
   sigNullDummy, pubKeyType, cleanStack, discourageUpgradableNops, scriptNum]

/-- The code of a kind, from 0 to 31. -/
def code (k : FailureKind) : Nat := all.idxOf k

/-- The name of a kind. -/
def name : FailureKind → String
  | ok => "Ok"
  | unknownError => "UnknownError"
  | evalFalse => "EvalFalse"
  | opReturn => "OpReturn"
  | scriptSize => "ScriptSize"
  | pushSize => "PushSize"
  | opCount => "OpCount"
  | stackSize => "StackSize"
  | sigCount => "SigCount"
  | pubKeyCount => "PubKeyCount"
  | verify => "Verify"
  | equalVerify => "EqualVerify"
  | checkMultisigVerify => "CheckMultisigVerify"
  | checkSigVerify => "CheckSigVerify"
  | numEqualVerify => "NumEqualVerify"
  | badOpcode => "BadOpcode"
  | disabledOpcode => "DisabledOpcode"
  | invalidStackOperation => "InvalidStackOperation"
  | invalidAltstackOperation => "InvalidAltstackOperation"
  | unbalancedConditional => "UnbalancedConditional"
  | negativeLockTime => "NegativeLockTime"
  | unsatisfiedLockTime => "UnsatisfiedLockTime"
  | sigHashType => "SigHashType"
  | sigDer => "SigDER"
  | minimalData => "MinimalData"
  | sigPushOnly => "SigPushOnly"
  | sigHighS => "SigHighS"
  | sigNullDummy => "SigNullDummy"
  | pubKeyType => "PubKeyType"
  | cleanStack => "CleanStack"
  | discourageUpgradableNops => "DiscourageUpgradableNOPs"
  | scriptNum => "ScriptNum"

/-- The wording of a kind. -/
def message : FailureKind → String
  | ok => "Ok"
  | unknownError => "unknown error"
  | evalFalse => "script evaluation failed"
  | opReturn => "OP_RETURN encountered"
  | scriptSize => "script size exceeded maximum"
  | pushSize => "push size exceeded maximum"
  | opCount => "operation count exceeded maximum"
  | stackSize => "stack size exceeded maximum"
  | sigCount => "signature count exceeded maximum"
  | pubKeyCount => "public key count exceeded maximum"
  | verify => "verify operation failed"
  | equalVerify => "equal verify operation failed"
  | checkMultisigVerify => "check multisig verify operation failed"
  | checkSigVerify => "check sig verify operation failed"
  | numEqualVerify => "num equal verify operation failed"
  | badOpcode => "bad opcode encountered"
  | disabledOpcode => "disabled opcode encountered"
  | invalidStackOperation => "invalid stack operation encountered"
  | invalidAltstackOperation => "invalid altstack operation encountered"
  | unbalancedConditional => "unbalanced conditional encountered"
  | negativeLockTime => "negative lock time encountered"
  | unsatisfiedLockTime => "unsatisfied locktime condition"
  | sigHashType => "signature hash type error"
  | sigDer => "signature DER encoding error"
  | minimalData => "minimal data requirement not met"
  | sigPushOnly => "signature push only requirement not met"
  | sigHighS => "signature s value is too high"
  | sigNullDummy => "signature null dummy error"
  | pubKeyType => "public key type error"
  | cleanStack => "clean stack requirement not met"
  | discourageUpgradableNops => "discouraged upgradable NOPs encountered"
  | scriptNum => "script number error"

/-- The kind with a name. -/
def ofName? (text : String) : Option FailureKind := all.find? (·.name == text)

theorem mem_all (k : FailureKind) : k ∈ all := by cases k <;> decide

theorem code_le (k : FailureKind) : k.code ≤ 31 := by cases k <;> decide

/-- **Codes tell kinds apart.** -/
theorem getElem?_code (k : FailureKind) : all[k.code]? = some k := by cases k <;> decide

end FailureKind

/-! ## 2. Details -/

/-- What more is known of a failure. -/
inductive FailureDetail where
  /-- a size over its limit -/
  | size (bytes : Nat)
  /-- a push in a form that cannot say its length -/
  | illFormedPush (bytes : Nat)
  /-- the chunk that failed -/
  | chunk (c : Chunk)
  /-- fewer elements than an operation takes -/
  | needed (count length : Nat)
  /-- no element that far from the top -/
  | access (index length : Nat)
  /-- no place that far from the top -/
  | insertion (index length : Nat)
  | popFromEmpty
  | emptyStack
  /-- an index taken from the stack itself -/
  | indexOutOfRange (index : Int) (length : Nat)
  | number (e : ScriptNumber.Malformed)
  | arithmeticOverflow
  | reading (e : ReadError)
  | encoding (e : Encoding.Violation)
  | cleanStackWithoutP2sh
  | elementsRemain (count : Nat)
  /-- words of an extension's own -/
  | text (words : String)
  deriving DecidableEq, Repr

/-- The wording of a script that cannot be read. -/
def ReadError.parsingMessage (e : ReadError) : String := "during parsing: " ++ e.message

/-- The wording of a detail. -/
def FailureDetail.message : FailureDetail → String
  | size bytes => s!"{bytes} bytes"
  | illFormedPush bytes => s!"a push of {bytes} bytes doesn’t fit its encoding"
  | chunk c => c.asm
  | needed count length => s!"needed {count} elements, but the stack has {length}"
  | access index length =>
    s!"tried to access element {index} from the top of a stack with {length} elements"
  | insertion index length =>
    s!"tried to insert at {index} from the top of a stack with {length} elements"
  | popFromEmpty => "tried to pop from an empty stack"
  | emptyStack => "the stack is empty"
  | indexOutOfRange index length =>
    s!"index {index} is out of range for a stack with {length} elements"
  | number e => e.message
  | arithmeticOverflow => "arithmetic overflow"
  | reading e => e.parsingMessage
  | encoding e => e.message
  | cleanStackWithoutP2sh => "CLEANSTACK requires P2SH"
  | elementsRemain count => s!"{count} elements remain"
  | text words => words

/-! ## 3. Failures -/

/-- A kind of failure, and perhaps what more is known. -/
structure Failure where
  kind : FailureKind
  detail : Option FailureDetail
  deriving DecidableEq, Repr

namespace Failure

/-- A failure of which the kind says all. -/
def plain (kind : FailureKind) : Failure := ⟨kind, none⟩

/-- A failure with a detail. -/
def detailed (kind : FailureKind) (detail : FailureDetail) : Failure := ⟨kind, some detail⟩

/-- A stack operation that found too little. -/
def onStack (detail : FailureDetail) : Failure := detailed .invalidStackOperation detail

def ofNumber (e : ScriptNumber.Malformed) : Failure := detailed .scriptNum (.number e)

def ofRead (e : ReadError) : Failure := detailed .badOpcode (.reading e)

def ofViolation (e : Encoding.Violation) : Failure :=
  let kind := match e with
    | .hashType _ => FailureKind.sigHashType
    | .der _ => .sigDer
    | .highS => .sigHighS
    | .publicKeyType => .pubKeyType
  detailed kind (.encoding e)

/-- The wording of a failure: its kind, and its detail after a colon. -/
def message (e : Failure) : String :=
  match e.detail with
  | some detail => e.kind.message ++ ": " ++ detail.message
  | none => e.kind.message

end Failure

end SpendScript
