import SpendScript.State
/-!
# Opcodes that ask about signatures and lock times

What this file fixes:

* `checkLockTime` -- the lock time opcode: the top has to be a number of at most five bytes, not
  negative, and a lock time that has come. The stack stays as it is.
* `checkSig` -- one signature and one key.
* `checkMultisig` -- several of both. Its counters are bytes: a layout of more than 255 elements
  fails (`MultisigLayout.read`). The signatures are matched to the keys in order by `pairUp`, which
  gives a key up as soon as it does not fit the signature that is due, and gives up altogether when
  there are fewer keys left than signatures.
* Before any question is asked, signature and key pass the rules on encodings (`vet`); the order of
  these two checks shows in the failure.
-/

namespace SpendScript.Execute

/-! ## 1. Lock times -/

/-- How many bytes a lock time may have. Five hold every lock time of a transaction, which four
would not. -/
def lockTimeSize : Nat := 5

/-- Whether the lock time on the top has come, by the rules in force and the checker given. -/
def checkLockTime (flags : Flags) (checker : Checker) (stack : Stack Bytes) : Run Unit :=
  match Stack.last stack with
  | .error e _ => .fail e
  | .ok top _ =>
    match ScriptNumber.decode top flags.minimalData lockTimeSize with
    | .error e => .fail (.ofNumber e)
    | .ok n =>
      if n < 0 then .fail (.plain .negativeLockTime)
      else do
        if ← Run.askLockTime checker n then return ()
        else Run.fail (.plain .unsatisfiedLockTime)

/-! ## 2. One signature -/

/-- The rules on encodings that flags put in force. -/
def encodingRules (flags : Flags) : Encoding.Rules where
  der := flags.derSig || flags.lowS || flags.strictEnc
  lowS := flags.lowS
  strict := flags.strictEnc

/-- Checks the encoding of a signature, then that of a key. -/
def vet (reader : Ecdsa.Reader) (flags : Flags) (sig key : Bytes) : Except Failure Unit := do
  (Encoding.checkSignature reader (encodingRules flags) sig).mapError .ofViolation
  (Encoding.checkPublicKey flags.strictEnc key).mapError .ofViolation

/-- Asks about a signature and a key that pass the rules on encodings. -/
def askVetted (c : Context) (sig key code : Bytes) : Run Bool := do
  vet c.reader c.flags sig key
  Run.askSignature c.checker sig key code

/-- What a signature covers: the script from the last separator on, without the pushes of the
given signatures. -/
def scriptCode (c : Context) (s : State) (sigs : List Bytes) : Bytes :=
  (sigs.foldl Program.findAndDelete (c.script.subscript s.beginCode)).encode

/-- Puts an answer on the stack; the verifying form of an opcode fails at a no instead, and puts
nothing. -/
def conclude (verifying : Option FailureKind) (answer : Bool) (stack : Stack Bytes) :
    Except Failure (Stack Bytes) :=
  match verifying with
  | none => .ok (ofBool answer :: stack)
  | some kind => if answer then .ok stack else .error (.plain kind)

/-- `sig key -- b`, whether the signature fits the key -/
def checkSig (c : Context) (verifying : Option FailureKind) (s : State) : Run State :=
  match s.stack with
  | key :: sig :: below => do
    let answer ← askVetted c sig key (scriptCode c s [sig])
    let stack ← conclude verifying answer below
    return { s with stack }
  | few => .fail (.onStack (.needed 2 few.length))

/-! ## 3. Several signatures -/

/-- A sum of counters, which are bytes. -/
def addCounter (kind : FailureKind) (a b : Nat) : Except Failure Nat :=
  if a + b ≤ 255 then .ok (a + b) else .error (.plain kind)

/-- A count that the stack gives, between zero and a limit. -/
def readCount (c : Context) (kind : FailureKind) (limit : Nat) (element : Bytes) :
    Except Failure Nat := do
  let n ← c.number element
  if 0 ≤ n ∧ n ≤ limit then return n.toNat else throw (.plain kind)

/-- An operation on a stack of which only the outcome matters. -/
def peek {α : Type} (op : StackOp Bytes α) (stack : Stack Bytes) : Except Failure α :=
  match op stack with
  | .ok x _ => .ok x
  | .error e _ => .error e

/-- The element at a position counted from one at the top. -/
def elementAt (stack : Stack Bytes) (position : Nat) : Except Failure Bytes :=
  peek (Stack.get (position - 1)) stack

/-- Where the operands of a check of several signatures lie, in positions counted from one at the
top: the count of keys, the keys, the count of signatures, the signatures, a spare element. -/
structure MultisigLayout where
  keyCount : Nat
  sigCount : Nat
  firstKey : Nat
  firstSig : Nat
  /-- the position of the spare element -/
  size : Nat
  deriving DecidableEq, Repr

/-- Reads the count of keys. The keys count as operations, and this comes before anything that is
below them is looked at. -/
def readKeyCount (c : Context) (s : State) : Except Failure (Nat × State) := do
  peek (Stack.checkLen 1) s.stack
  let top ← elementAt s.stack 1
  let keyCount ← readCount c .pubKeyCount c.limits.maxPubKeyCount.toNat top
  let opCount := s.opCount + keyCount
  if c.limits.maxOpCount < opCount then throw (.plain .opCount)
  return (keyCount, { s with opCount })

/-- Reads the rest of the layout, given the count of keys. -/
def readLayout (c : Context) (stack : Stack Bytes) (keyCount : Nat) :
    Except Failure MultisigLayout := do
  let firstKey := 2
  let sigCountAt ← addCounter .pubKeyCount firstKey keyCount
  peek (Stack.checkLen sigCountAt) stack
  let sigCount ← readCount c .sigCount keyCount (← elementAt stack sigCountAt)
  let firstSig ← addCounter .pubKeyCount sigCountAt 1
  let size ← addCounter .sigCount firstSig sigCount
  peek (Stack.checkLen size) stack
  return { keyCount, sigCount, firstKey, firstSig, size }

/-- The signatures of a layout, the uppermost first. -/
def MultisigLayout.signatures (l : MultisigLayout) (stack : Stack Bytes) : List Bytes :=
  (stack.drop (l.firstSig - 1)).take l.sigCount

/-- What is due next: the positions of a signature and of a key, and how many signatures are left. -/
structure Pairing where
  sigAt : Nat
  keyAt : Nat
  sigsLeft : Nat
  deriving DecidableEq, Repr

/-- Goes on to the next key, and after a fit to the next signature. -/
def Pairing.advance (p : Pairing) (fits : Bool) : Pairing :=
  if fits then ⟨p.sigAt + 1, p.keyAt + 1, p.sigsLeft - 1⟩ else ⟨p.sigAt, p.keyAt + 1, p.sigsLeft⟩

/-- Asks whether the signature that is due fits the key that is due. -/
def askPair (c : Context) (stack : Stack Bytes) (code : Bytes) (p : Pairing) : Run Bool := do
  let sig ← elementAt stack p.sigAt
  let key ← elementAt stack p.keyAt
  askVetted c sig key code

/-- Matches signatures to the keys that are left, in order. -/
def pairUp (ask : Pairing → Run Bool) : (keysLeft : Nat) → Pairing → Run Bool
  | keysLeft, p =>
    if p.sigsLeft = 0 then return true
    else
      match keysLeft with
      | 0 => return false
      | keysLeft + 1 => do
        let next := p.advance (← ask p)
        if keysLeft < next.sigsLeft then return false else pairUp ask keysLeft next

/-- Takes the operands and the spare element off. The spare element is not looked at, unless a rule
asks that it be empty. -/
def dropOperands (c : Context) (l : MultisigLayout) (stack : Stack Bytes) :
    Except Failure (Stack Bytes) :=
  match Stack.pop (stack.drop (l.size - 1)) with
  | .error e _ => .error e
  | .ok spare below =>
    if c.flags.nullDummy && !spare.isEmpty then .error (.plain .sigNullDummy) else .ok below

/-- `spare sigs m keys n -- b`, whether the signatures fit keys in the same order -/
def checkMultisig (c : Context) (verifying : Option FailureKind) (s : State) : Run State := do
  let (keyCount, s) ← readKeyCount c s
  let l ← readLayout c s.stack keyCount
  let code := scriptCode c s (l.signatures s.stack)
  let answer ← pairUp (askPair c s.stack code) l.keyCount ⟨l.firstSig, l.firstKey, l.sigCount⟩
  let below ← dropOperands c l s.stack
  let stack ← conclude verifying answer below
  return { s with stack }

end SpendScript.Execute
