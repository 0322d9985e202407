import SpendScript.Bytes.Hex
/-!
# Opcodes that push nothing

Every byte that starts no push is exactly one opcode, and the four kinds differ in when they act.

What this file fixes:

* `Control` -- acts in skipped branches too, because it tells where they end.
* `Operation` -- acts in the branch that is taken, and only there.
* `Disabled` -- fails wherever it stands.
* `Bad` -- fails in the branch that is taken; two of them fail in skipped branches as well.
* For each kind `byte` and `name`, and `ofByte?` with its two laws: an opcode is found from its
  byte (`ofByte?_byte`), and what is found has that byte (`byte_ofByte?`).
-/

namespace SpendScript

/-! ## 1. Branches -/

/-- Opcodes that open, switch and close branches. -/
inductive Control where
  | opIf
  | opNotIf
  | opElse
  | opEndIf
  deriving DecidableEq, Repr

namespace Control

/-- The opcode byte. -/
def byte : Control → UInt8
  | opIf => 0x63
  | opNotIf => 0x64
  | opElse => 0x67
  | opEndIf => 0x68

/-- The name in assembly notation. -/
def name : Control → String
  | opIf => "OP_IF"
  | opNotIf => "OP_NOTIF"
  | opElse => "OP_ELSE"
  | opEndIf => "OP_ENDIF"

/-- All of them, by ascending byte. -/
def all : List Control :=
  [opIf, opNotIf, opElse, opEndIf]

/-- The opcode with this byte. -/
def ofByte? (b : UInt8) : Option Control := all.find? (·.byte == b)

theorem mem_all (op : Control) : op ∈ all := by cases op <;> decide

@[simp] theorem ofByte?_byte (op : Control) : ofByte? op.byte = some op := by cases op <;> rfl

theorem byte_ofByte? {b : UInt8} {op : Control} (h : ofByte? b = some op) : op.byte = b := by
  simpa using List.find?_some h

end Control

/-! ## 2. Operations -/

/-- Opcodes that act on the stacks. -/
inductive Operation where
  | nop
  | verify
  | ret
  | toAltStack
  | fromAltStack
  | drop2
  | dup2
  | dup3
  | over2
  | rot2
  | swap2
  | ifDup
  | depth
  | drop
  | dup
  | nip
  | over1
  | pick
  | roll
  | rot
  | swap
  | tuck
  | size
  | equal
  | equalVerify
  | add1
  | sub1
  | negate
  | abs
  | not
  | notEqual0
  | add
  | sub
  | boolAnd
  | boolOr
  | numEqual
  | numEqualVerify
  | numNotEqual
  | lessThan
  | greaterThan
  | lessThanOrEqual
  | greaterThanOrEqual
  | min
  | max
  | within
  | ripemd160
  | sha1
  | sha256
  | hash160
  | hash256
  | codeSeparator
  | checkSig
  | checkSigVerify
  | checkMultisig
  | checkMultisigVerify
  | nop1
  | checkLockTimeVerify
  | nop3
  | nop4
  | nop5
  | nop6
  | nop7
  | nop8
  | nop9
  | nop10
  deriving DecidableEq, Repr

namespace Operation

/-- The opcode byte. -/
def byte : Operation → UInt8
  | nop => 0x61
  | verify => 0x69
  | ret => 0x6a
  | toAltStack => 0x6b
  | fromAltStack => 0x6c
  | drop2 => 0x6d
  | dup2 => 0x6e
  | dup3 => 0x6f
  | over2 => 0x70
  | rot2 => 0x71
  | swap2 => 0x72
  | ifDup => 0x73
  | depth => 0x74
  | drop => 0x75
  | dup => 0x76
  | nip => 0x77
  | over1 => 0x78
  | pick => 0x79
  | roll => 0x7a
  | rot => 0x7b
  | swap => 0x7c
  | tuck => 0x7d
  | size => 0x82
  | equal => 0x87
  | equalVerify => 0x88
  | add1 => 0x8b
  | sub1 => 0x8c
  | negate => 0x8f
  | abs => 0x90
  | not => 0x91
  | notEqual0 => 0x92
  | add => 0x93
  | sub => 0x94
  | boolAnd => 0x9a
  | boolOr => 0x9b
  | numEqual => 0x9c
  | numEqualVerify => 0x9d
  | numNotEqual => 0x9e
  | lessThan => 0x9f
  | greaterThan => 0xa0
  | lessThanOrEqual => 0xa1
  | greaterThanOrEqual => 0xa2
  | min => 0xa3
  | max => 0xa4
  | within => 0xa5
  | ripemd160 => 0xa6
  | sha1 => 0xa7
  | sha256 => 0xa8
  | hash160 => 0xa9
  | hash256 => 0xaa
  | codeSeparator => 0xab
  | checkSig => 0xac
  | checkSigVerify => 0xad
  | checkMultisig => 0xae
  | checkMultisigVerify => 0xaf
  | nop1 => 0xb0
  | checkLockTimeVerify => 0xb1
  | nop3 => 0xb2
  | nop4 => 0xb3
  | nop5 => 0xb4
  | nop6 => 0xb5
  | nop7 => 0xb6
  | nop8 => 0xb7
  | nop9 => 0xb8
  | nop10 => 0xb9

/-- The name in assembly notation. -/
def name : Operation → String
  | nop => "OP_NOP"
  | verify => "OP_VERIFY"
  | ret => "OP_RETURN"
  | toAltStack => "OP_TOALTSTACK"
  | fromAltStack => "OP_FROMALTSTACK"
  | drop2 => "OP_2DROP"
  | dup2 => "OP_2DUP"
  | dup3 => "OP_3DUP"
  | over2 => "OP_2OVER"
  | rot2 => "OP_2ROT"
  | swap2 => "OP_2SWAP"
  | ifDup => "OP_IFDUP"
  | depth => "OP_DEPTH"
  | drop => "OP_DROP"
  | dup => "OP_DUP"
  | nip => "OP_NIP"
  | over1 => "OP_OVER"
  | pick => "OP_PICK"
  | roll => "OP_ROLL"
  | rot => "OP_ROT"
  | swap => "OP_SWAP"
  | tuck => "OP_TUCK"
  | size => "OP_SIZE"
  | equal => "OP_EQUAL"
  | equalVerify => "OP_EQUALVERIFY"
  | add1 => "OP_1ADD"
  | sub1 => "OP_1SUB"
  | negate => "OP_NEGATE"
  | abs => "OP_ABS"
  | not => "OP_NOT"
  | notEqual0 => "OP_0NOTEQUAL"
  | add => "OP_ADD"
  | sub => "OP_SUB"
  | boolAnd => "OP_BOOLAND"
  | boolOr => "OP_BOOLOR"
  | numEqual => "OP_NUMEQUAL"
  | numEqualVerify => "OP_NUMEQUALVERIFY"
  | numNotEqual => "OP_NUMNOTEQUAL"
  | lessThan => "OP_LESSTHAN"
  | greaterThan => "OP_GREATERTHAN"
  | lessThanOrEqual => "OP_LESSTHANOREQUAL"
  | greaterThanOrEqual => "OP_GREATERTHANOREQUAL"
  | min => "OP_MIN"
  | max => "OP_MAX"
  | within => "OP_WITHIN"
  | ripemd160 => "OP_RIPEMD160"
  | sha1 => "OP_SHA1"
  | sha256 => "OP_SHA256"
  | hash160 => "OP_HASH160"
  | hash256 => "OP_HASH256"
  | codeSeparator => "OP_CODESEPARATOR"
  | checkSig => "OP_CHECKSIG"
  | checkSigVerify => "OP_CHECKSIGVERIFY"
  | checkMultisig => "OP_CHECKMULTISIG"
  | checkMultisigVerify => "OP_CHECKMULTISIGVERIFY"
  | nop1 => "OP_NOP1"
  | checkLockTimeVerify => "OP_CHECKLOCKTIMEVERIFY"
  | nop3 => "OP_NOP3"
  | nop4 => "OP_NOP4"
  | nop5 => "OP_NOP5"
  | nop6 => "OP_NOP6"
  | nop7 => "OP_NOP7"
  | nop8 => "OP_NOP8"
  | nop9 => "OP_NOP9"
  | nop10 => "OP_NOP10"

/-- All of them, by ascending byte. -/
def all : List Operation :=
  [nop, verify, ret, toAltStack, fromAltStack, drop2, dup2, dup3, over2, rot2, swap2, ifDup,
   depth, drop, dup, nip, over1, pick, roll, rot, swap, tuck, size, equal, equalVerify, add1,
   sub1, negate, abs, not, notEqual0, add, sub, boolAnd, boolOr, numEqual, numEqualVerify,
   numNotEqual, lessThan, greaterThan, lessThanOrEqual, greaterThanOrEqual, min, max, within,
   ripemd160, sha1, sha256, hash160, hash256, codeSeparator, checkSig, checkSigVerify,
   checkMultisig, checkMultisigVerify, nop1, checkLockTimeVerify, nop3, nop4, nop5, nop6, nop7,
   nop8, nop9, nop10]

/-- The opcode with this byte. -/
def ofByte? (b : UInt8) : Option Operation := all.find? (·.byte == b)

theorem mem_all (op : Operation) : op ∈ all := by cases op <;> decide

@[simp] theorem ofByte?_byte (op : Operation) : ofByte? op.byte = some op := by cases op <;> rfl

theorem byte_ofByte? {b : UInt8} {op : Operation} (h : ofByte? b = some op) : op.byte = b := by
  simpa using List.find?_some h

end Operation

/-! ## 3. Disabled opcodes -/

/-- Opcodes that were withdrawn. -/
inductive Disabled where
  | cat
  | substr
  | left
  | right
  | invert
  | and
  | or
  | xor
  | mul2
  | div2
  | mul
  | div
  | mod
  | lshift
  | rshift
  deriving DecidableEq, Repr

namespace Disabled

/-- The opcode byte. -/
def byte : Disabled → UInt8
  | cat => 0x7e
  | substr => 0x7f
  | left => 0x80
  | right => 0x81
  | invert => 0x83
  | and => 0x84
  | or => 0x85
  | xor => 0x86
  | mul2 => 0x8d
  | div2 => 0x8e
  | mul => 0x95
  | div => 0x96
  | mod => 0x97
  | lshift => 0x98
  | rshift => 0x99

/-- The name in assembly notation. -/
def name : Disabled → String
  | cat => "OP_CAT"
  | substr => "OP_SUBSTR"
  | left => "OP_LEFT"
  | right => "OP_RIGHT"
  | invert => "OP_INVERT"
  | and => "OP_AND"
  | or => "OP_OR"
  | xor => "OP_XOR"
  | mul2 => "OP_2MUL"
  | div2 => "OP_2DIV"
  | mul => "OP_MUL"
  | div => "OP_DIV"
  | mod => "OP_MOD"
  | lshift => "OP_LSHIFT"
  | rshift => "OP_RSHIFT"

/-- All of them, by ascending byte. -/
def all : List Disabled :=
  [cat, substr, left, right, invert, and, or, xor, mul2, div2, mul, div, mod, lshift, rshift]

/-- The opcode with this byte. -/
def ofByte? (b : UInt8) : Option Disabled := all.find? (·.byte == b)

theorem mem_all (op : Disabled) : op ∈ all := by cases op <;> decide

@[simp] theorem ofByte?_byte (op : Disabled) : ofByte? op.byte = some op := by cases op <;> rfl

theorem byte_ofByte? {b : UInt8} {op : Disabled} (h : ofByte? b = some op) : op.byte = b := by
  simpa using List.find?_some h

end Disabled

/-! ## 4. Bytes without a meaning -/

/-- Reserved opcodes, and bytes that were never assigned. -/
inductive Bad where
  | reserved
  | ver
  | verIf
  | verNotIf
  | reserved1
  | reserved2
  | unknown (byte : UInt8)
  deriving DecidableEq, Repr

namespace Bad

/-- The opcode byte. -/
def byte : Bad → UInt8
  | reserved => 0x50
  | ver => 0x62
  | verIf => 0x65
  | verNotIf => 0x66
  | reserved1 => 0x89
  | reserved2 => 0x8a
  | unknown b => b

/-- The reserved opcode with this byte, or the byte as an unassigned one. -/
def ofByte (b : UInt8) : Bad :=
  if b = 0x50 then reserved
  else if b = 0x62 then ver
  else if b = 0x65 then verIf
  else if b = 0x66 then verNotIf
  else if b = 0x89 then reserved1
  else if b = 0x8a then reserved2
  else unknown b

/-- The name in assembly notation; an unassigned byte shows its value. -/
def name : Bad → String
  | reserved => "OP_RESERVED"
  | ver => "OP_VER"
  | verIf => "OP_VERIF"
  | verNotIf => "OP_VERNOTIF"
  | reserved1 => "OP_RESERVED1"
  | reserved2 => "OP_RESERVED2"
  | unknown b => "OP_UNKNOWN<0x" ++ String.ofList (Hex.ofByte b) ++ ">"

/-- The two that fail in a skipped branch too, because their bytes lie between those of the
opcodes that open and close branches. -/
def failsUnexecuted : Bad → Bool
  | verIf | verNotIf => true
  | _ => false

@[simp] theorem byte_ofByte (b : UInt8) : (ofByte b).byte = b := by
  unfold ofByte
  split
  · next h => rw [h]; rfl
  split
  · next h => rw [h]; rfl
  split
  · next h => rw [h]; rfl
  split
  · next h => rw [h]; rfl
  split
  · next h => rw [h]; rfl
  split
  · next h => rw [h]; rfl
  · rfl

end Bad

end SpendScript
