import SpendScript.State
/-!
# Opcodes on numbers

What this file fixes: the four shapes of opcodes on numbers, each with the function that it
computes as a parameter. Operands have to decode under the context's limit; a result that does not
fit 64 bits is a failure.

* `unary`, `unaryTest` -- one operand, and a number or a truth value.
* `binary`, `binaryTest` -- two operands, the lower one first.
* `within`, `numEqualVerify` -- the two that fit none of these.
-/

namespace SpendScript.Execute

open Stack

/-- The failure of a result that does not fit 64 bits. -/
def overflow : Failure := .detailed .scriptNum .arithmeticOverflow

/-- A result that has to be there, as an element. -/
def numberResult (v : Option Int) : Except Failure Bytes :=
  match v with
  | some n => .ok (ScriptNumber.encode n)
  | none => .error overflow

/-- `a -- f(a)` -/
def unary (c : Context) (f : Int → Option Int) : StackOp Bytes Unit :=
  unop fun x => do numberResult (f (← c.number x))

/-- `a -- b`, whether `a` passes the test -/
def unaryTest (c : Context) (f : Int → Bool) : StackOp Bytes Unit :=
  unop fun x => do return ofBool (f (← c.number x))

/-- `a b -- f(a, b)` -/
def binary (c : Context) (f : Int → Int → Option Int) : StackOp Bytes Unit :=
  binop fun x1 x2 => do
    let a ← c.number x1
    let b ← c.number x2
    numberResult (f a b)

/-- `a b -- b`, whether `a` and `b` pass the test -/
def binaryTest (c : Context) (f : Int → Int → Bool) : StackOp Bytes Unit :=
  binop fun x1 x2 => do
    let a ← c.number x1
    let b ← c.number x2
    return ofBool (f a b)

/-- `a b --` if both are the same number; fails otherwise -/
def numEqualVerify (c : Context) : StackOp Bytes Unit :=
  binfn fun x1 x2 => do
    let a ← c.number x1
    let b ← c.number x2
    if a = b then return () else throw (.plain .numEqualVerify)

/-- `a low high -- b`, whether `a` is at least `low` and below `high` -/
def within (c : Context) : StackOp Bytes Unit := do
  checkLen 3
  let a ← lift (c.number (← Stack.get 2))
  let low ← lift (c.number (← Stack.get 1))
  let high ← lift (c.number (← Stack.get 0))
  discard pop
  discard pop
  discard pop
  push (ofBool (decide (low ≤ a) && decide (a < high)))

end SpendScript.Execute
