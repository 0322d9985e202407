import SpendScript.State
/-!
# Opcodes that move elements

What this file fixes: one stack operation per opcode that copies, moves, drops or measures elements.
The diagram in each comment shows the stack with its top on the right, before and after. A check of
the depth comes first wherever more than one element is touched, so that a failure reports how many
elements were needed.
-/

namespace SpendScript.Execute

open Stack

/-- `x1 x2 --` -/
def drop2 : StackOp Bytes Unit := do
  checkLen 2
  discard pop
  discard pop

/-- `x1 x2 -- x1 x2 x1 x2` -/
def dup2 : StackOp Bytes Unit := do
  checkLen 2
  repush 1
  repush 1

/-- `x1 x2 x3 -- x1 x2 x3 x1 x2 x3` -/
def dup3 : StackOp Bytes Unit := do
  checkLen 3
  repush 2
  repush 2
  repush 2

/-- `x1 x2 x3 x4 -- x1 x2 x3 x4 x1 x2` -/
def over2 : StackOp Bytes Unit := do
  checkLen 4
  repush 3
  repush 3

/-- `x1 x2 x3 x4 x5 x6 -- x3 x4 x5 x6 x1 x2` -/
def rot2 : StackOp Bytes Unit := do
  checkLen 6
  moveToTop 5
  moveToTop 5

/-- `x1 x2 x3 x4 -- x3 x4 x1 x2` -/
def swap2 : StackOp Bytes Unit := do
  checkLen 4
  moveToTop 3
  moveToTop 3

/-- `x -- x x` if `x` is true, else `x -- x` -/
def ifDup : StackOp Bytes Unit := do
  if truthy (← last) then repush 0

/-- `-- n` for a count, which has to fit 64 bits -/
def pushCount (kind : FailureKind) (count : Nat) : StackOp Bytes Unit :=
  if count < 2 ^ 63 then push (ScriptNumber.encode count) else throw (.plain kind)

/-- `-- n`, the number of elements -/
def depth : StackOp Bytes Unit := do pushCount .stackSize (← len)

/-- `x --` -/
def drop : StackOp Bytes Unit := discard pop

/-- `x -- x x` -/
def dup : StackOp Bytes Unit := repush 0

/-- `x1 x2 -- x2` -/
def nip : StackOp Bytes Unit := discard (remove 1)

/-- `x1 x2 -- x1 x2 x1` -/
def over1 : StackOp Bytes Unit := repush 1

/-- `x1 x2 x3 -- x2 x3 x1` -/
def rot : StackOp Bytes Unit := do
  checkLen 3
  moveToTop 2

/-- `x1 x2 -- x2 x1` -/
def swap : StackOp Bytes Unit := do
  checkLen 2
  Stack.swap 1 0

/-- `x1 x2 -- x2 x1 x2` -/
def tuck : StackOp Bytes Unit := do
  checkLen 2
  insert 2 (← last)

/-- `x -- x n`, the length of `x` -/
def size : StackOp Bytes Unit := do pushCount .pushSize (← last).length

/-- `xn ... x1 x0 n --` and the index: the number `n` is taken off, and has to reach an element of
what is left. -/
def popIndex (c : Context) : StackOp Bytes Nat := do
  checkLen 2
  let n ← lift (c.number (← last))
  discard pop
  let length ← len
  if 0 ≤ n ∧ n < length then return n.toNat
  else throw (.onStack (.indexOutOfRange n length))

/-- `xn ... x1 x0 n -- xn ... x1 x0 xn` -/
def pick (c : Context) : StackOp Bytes Unit := do repush (← popIndex c)

/-- `xn ... x1 x0 n -- ... x1 x0 xn` -/
def roll (c : Context) : StackOp Bytes Unit := do moveToTop (← popIndex c)

/-- `x --` if `x` is true; fails otherwise -/
def verify : StackOp Bytes Unit := do
  if truthy (← last) then discard pop
  else throw (.plain .verify)

/-- `x1 x2 -- b`, whether both are the same -/
def equal : StackOp Bytes Unit := binop fun x1 x2 => .ok (ofBool (x1 == x2))

/-- `x1 x2 --` if both are the same; fails otherwise -/
def equalVerify : StackOp Bytes Unit :=
  binfn fun x1 x2 => if x1 == x2 then .ok () else .error (.plain .equalVerify)

/-- `x -- f(x)` for a digest function -/
def digest (f : Bytes → Bytes) : StackOp Bytes Unit := unop fun x => .ok (f x)

end SpendScript.Execute
