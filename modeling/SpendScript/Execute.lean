import SpendScript.Execute.Shuffle
import SpendScript.Execute.Arithmetic
import SpendScript.Execute.Signatures
/-!
# What each chunk does in the branch that is taken

What this file fixes:

* `Execute.control` -- opcodes that open, switch and close branches. They are run in skipped
  branches too, and there opening a branch takes nothing off the stack.
* `Execute.operation` -- every other opcode, by the operations of the modules below this one.
* `Execute.chunk` -- any chunk.
-/

namespace SpendScript.Execute

/-- The failure of a branch that is closed or switched and was never opened, or that is opened
without a condition on the stack. -/
def unbalanced : Failure := .plain .unbalancedConditional

/-- Opens a branch whose condition is the top, or is `expected` against the top. In a skipped
branch the new one is skipped and the stack stays. -/
def openBranch (expected : Bool) (s : State) : Except Failure State :=
  if s.isActive then
    match s.stack with
    | top :: stack => .ok { s with stack, conditions := (truthy top == expected) :: s.conditions }
    | [] => .error unbalanced
  else .ok { s with conditions := false :: s.conditions }

/-- Opens, switches or closes a branch. -/
def control (op : Control) (s : State) : Except Failure State :=
  match op with
  | .opIf => openBranch true s
  | .opNotIf => openBranch false s
  | .opElse =>
    match s.conditions with
    | top :: rest => .ok { s with conditions := (!top) :: rest }
    | [] => .error unbalanced
  | .opEndIf =>
    match s.conditions with
    | _ :: conditions => .ok { s with conditions }
    | [] => .error unbalanced

/-- An opcode kept for upgrades: nothing, or a failure where its use is discouraged. -/
def upgradable (c : Context) (s : State) : Except Failure State :=
  if c.flags.discourageUpgradableNops then .error (.plain .discourageUpgradableNops) else .ok s

/-- The lock time opcode. Where it is not in force it is one of those kept for upgrades. -/
def lockTimeOpcode (c : Context) (s : State) : Run State :=
  if c.flags.checkLockTimeVerify then do
    checkLockTime c.flags c.checker s.stack
    return s
  else .ofExcept (upgradable c s)

/-- Moves the top to the other stack. -/
def toAltStack (s : State) : Except Failure State :=
  match Stack.pop s.stack with
  | .ok x stack => .ok { s with stack, alt := x :: s.alt }
  | .error e _ => .error e

/-- Moves the top of the other stack back. -/
def fromAltStack (s : State) : Except Failure State :=
  match s.alt with
  | x :: alt => .ok { s with stack := x :: s.stack, alt }
  | [] => .error (.plain .invalidAltstackOperation)

/-- What an operation does to the machine. `position` is that of its chunk in the script. -/
def operation (c : Context) (position : Nat) (s : State) : Operation → Run State
  | .nop => return s
  | .nop1 | .nop3 | .nop4 | .nop5 | .nop6 | .nop7 | .nop8 | .nop9 | .nop10 =>
    .ofExcept (upgradable c s)
  | .checkLockTimeVerify => lockTimeOpcode c s
  | .verify => .ofExcept (s.onStack verify)
  | .ret => .fail (.plain .opReturn)
  | .toAltStack => .ofExcept (toAltStack s)
  | .fromAltStack => .ofExcept (fromAltStack s)
  | .drop2 => .ofExcept (s.onStack drop2)
  | .dup2 => .ofExcept (s.onStack dup2)
  | .dup3 => .ofExcept (s.onStack dup3)
  | .over2 => .ofExcept (s.onStack over2)
  | .rot2 => .ofExcept (s.onStack rot2)
  | .swap2 => .ofExcept (s.onStack swap2)
  | .ifDup => .ofExcept (s.onStack ifDup)
  | .depth => .ofExcept (s.onStack depth)
  | .drop => .ofExcept (s.onStack drop)
  | .dup => .ofExcept (s.onStack dup)
  | .nip => .ofExcept (s.onStack nip)
  | .over1 => .ofExcept (s.onStack over1)
  | .pick => .ofExcept (s.onStack (pick c))
  | .roll => .ofExcept (s.onStack (roll c))
  | .rot => .ofExcept (s.onStack rot)
  | .swap => .ofExcept (s.onStack swap)
  | .tuck => .ofExcept (s.onStack tuck)
  | .size => .ofExcept (s.onStack size)
  | .equal => .ofExcept (s.onStack equal)
  | .equalVerify => .ofExcept (s.onStack equalVerify)
  | .add1 => .ofExcept (s.onStack (unary c fun a => ScriptNumber.add? a 1))
  | .sub1 => .ofExcept (s.onStack (unary c fun a => ScriptNumber.sub? a 1))
  | .negate => .ofExcept (s.onStack (unary c ScriptNumber.neg?))
  | .abs => .ofExcept (s.onStack (unary c ScriptNumber.abs?))
  | .not => .ofExcept (s.onStack (unaryTest c fun a => a == 0))
  | .notEqual0 => .ofExcept (s.onStack (unaryTest c fun a => a != 0))
  | .add => .ofExcept (s.onStack (binary c ScriptNumber.add?))
  | .sub => .ofExcept (s.onStack (binary c ScriptNumber.sub?))
  | .boolAnd => .ofExcept (s.onStack (binaryTest c fun a b => a != 0 && b != 0))
  | .boolOr => .ofExcept (s.onStack (binaryTest c fun a b => a != 0 || b != 0))
  | .numEqual => .ofExcept (s.onStack (binaryTest c fun a b => a == b))
  | .numEqualVerify => .ofExcept (s.onStack (numEqualVerify c))
  | .numNotEqual => .ofExcept (s.onStack (binaryTest c fun a b => a != b))
  | .lessThan => .ofExcept (s.onStack (binaryTest c fun a b => a < b))
  | .greaterThan => .ofExcept (s.onStack (binaryTest c fun a b => a > b))
  | .lessThanOrEqual => .ofExcept (s.onStack (binaryTest c fun a b => a ≤ b))
  | .greaterThanOrEqual => .ofExcept (s.onStack (binaryTest c fun a b => a ≥ b))
  | .min => .ofExcept (s.onStack (binary c fun a b => some (min a b)))
  | .max => .ofExcept (s.onStack (binary c fun a b => some (max a b)))
  | .within => .ofExcept (s.onStack (within c))
  | .ripemd160 => .ofExcept (s.onStack (digest c.hashes.ripemd160))
  | .sha1 => .ofExcept (s.onStack (digest c.hashes.sha1))
  | .sha256 => .ofExcept (s.onStack (digest c.hashes.sha256))
  | .hash160 => .ofExcept (s.onStack (digest c.hashes.hash160))
  | .hash256 => .ofExcept (s.onStack (digest c.hashes.hash256))
  | .codeSeparator => return { s with beginCode := position + 1 }
  | .checkSig => checkSig c none s
  | .checkSigVerify => checkSig c (some .checkSigVerify) s
  | .checkMultisig => checkMultisig c none s
  | .checkMultisigVerify => checkMultisig c (some .checkMultisigVerify) s

/-- A push, which a rule may ask to be the shortest one. -/
def push (c : Context) (p : Push) (s : State) : Except Failure State :=
  if c.flags.minimalData && !p.isMinimal then
    .error (.detailed .minimalData (.chunk (.push p)))
  else .ok { s with stack := p.value :: s.stack }

/-- What a chunk does to the machine. -/
def chunk (c : Context) (position : Nat) (s : State) : Chunk → Run State
  | .push p => .ofExcept (push c p s)
  | .control op => .ofExcept (control op s)
  | .operation op => operation c position s op
  | .disabled d => .fail (.detailed .disabledOpcode (.chunk (.disabled d)))
  | .bad b => .fail (.detailed .badOpcode (.chunk (.bad b)))

end SpendScript.Execute
