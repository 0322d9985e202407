/-!
# Which rules are in force

What this file fixes:

* `Flags` -- one switch per optional rule. They are ordered by `⊆` and joined by `∪`.
* `Flags.ofBits` / `Flags.toBits` -- the same as a number, one bit per switch; bits without a
  switch are dropped.
* `Flags.repaired` -- the clean-stack rule makes sense only beside redemption, and verification
  refuses it otherwise.
-/

namespace SpendScript

/-- One switch per optional rule. -/
structure Flags where
  /-- run the script that a pay-to-script-hash output commits to -/
  p2sh : Bool := false
  /-- strict encodings of signatures, hash types and keys -/
  strictEnc : Bool := false
  /-- strict encoding of signatures -/
  derSig : Bool := false
  /-- the low `s` in signatures -/
  lowS : Bool := false
  /-- the spare element under a check of several signatures has to be empty -/
  nullDummy : Bool := false
  /-- signature scripts only push -/
  sigPushOnly : Bool := false
  /-- pushes and numbers in their shortest form -/
  minimalData : Bool := false
  /-- the opcodes kept for upgrades fail -/
  discourageUpgradableNops : Bool := false
  /-- exactly one element remains -/
  cleanStack : Bool := false
  /-- the lock time opcode is in force -/
  checkLockTimeVerify : Bool := false
  deriving DecidableEq, Repr

namespace Flags

/-- No rule. -/
def empty : Flags := {}

/-- The rules of both. -/
def union (f g : Flags) : Flags where
  p2sh := f.p2sh || g.p2sh
  strictEnc := f.strictEnc || g.strictEnc
  derSig := f.derSig || g.derSig
  lowS := f.lowS || g.lowS
  nullDummy := f.nullDummy || g.nullDummy
  sigPushOnly := f.sigPushOnly || g.sigPushOnly
  minimalData := f.minimalData || g.minimalData
  discourageUpgradableNops := f.discourageUpgradableNops || g.discourageUpgradableNops
  cleanStack := f.cleanStack || g.cleanStack
  checkLockTimeVerify := f.checkLockTimeVerify || g.checkLockTimeVerify

instance : Union Flags := ⟨union⟩

/-- Every rule of the one is a rule of the other: joining it adds nothing. -/
def Subset (f g : Flags) : Prop := f ∪ g = g

instance : HasSubset Flags := ⟨Subset⟩

instance (f g : Flags) : Decidable (f ⊆ g) := inferInstanceAs (Decidable (f ∪ g = g))

/-- The switches in the order of their bits, the least significant first. -/
def toList (f : Flags) : List Bool :=
  [f.p2sh, f.strictEnc, f.derSig, f.lowS, f.nullDummy, f.sigPushOnly, f.minimalData,
   f.discourageUpgradableNops, f.cleanStack, f.checkLockTimeVerify]

/-- The number whose bits are the switches. -/
def toBits (f : Flags) : Nat := f.toList.foldr (fun b n => b.toNat + 2 * n) 0

/-- The switches that the bits of a number are. -/
def ofBits (n : Nat) : Flags where
  p2sh := n.testBit 0
  strictEnc := n.testBit 1
  derSig := n.testBit 2
  lowS := n.testBit 3
  nullDummy := n.testBit 4
  sigPushOnly := n.testBit 5
  minimalData := n.testBit 6
  discourageUpgradableNops := n.testBit 7
  cleanStack := n.testBit 8
  checkLockTimeVerify := n.testBit 9

/-- The lowest bit of a number that a switch was put in front of. -/
theorem testBit_digit_zero (b : Bool) (n : Nat) : (b.toNat + 2 * n).testBit 0 = b := by
  have hdigit : b.toNat < 2 := b.toNat_lt
  have hmod : (b.toNat + 2 * n) % 2 = b.toNat := by omega
  rw [Nat.testBit_zero, hmod]
  cases b <;> rfl

/-- The bits above it. -/
theorem testBit_digit_succ (b : Bool) (n i : Nat) :
    (b.toNat + 2 * n).testBit (i + 1) = n.testBit i := by
  have hdigit : b.toNat < 2 := b.toNat_lt
  have hdiv : (b.toNat + 2 * n) / 2 = n := by omega
  rw [Nat.testBit_succ, hdiv]

@[simp] theorem ofBits_toBits (f : Flags) : ofBits f.toBits = f := by
  cases f
  simp only [ofBits, toBits, toList, List.foldr, testBit_digit_zero, testBit_digit_succ]

@[simp] theorem union_self (f : Flags) : f ∪ f = f := by
  cases f; simp [Union.union, union]

theorem subset_refl (f : Flags) : f ⊆ f := union_self f

@[simp] theorem empty_union (f : Flags) : empty ∪ f = f := by
  cases f; simp [Union.union, union, empty]

@[simp] theorem union_empty (f : Flags) : f ∪ empty = f := by
  cases f; simp [Union.union, union, empty]

theorem union_assoc (f g h : Flags) : f ∪ g ∪ h = f ∪ (g ∪ h) := by
  cases f; cases g; cases h; simp [Union.union, union, Bool.or_assoc]

/-- The rules with redemption added where the clean-stack rule needs it. -/
def repaired (f : Flags) : Flags := if f.cleanStack then { f with p2sh := true } else f

end Flags

/-! ## Limits -/

/-- The resource limits of evaluation. -/
structure Limits where
  maxPushSize : Nat := 520
  maxOpCount : Nat := 201
  /-- both stacks together -/
  maxStackSize : Nat := 1000
  maxScriptSize : Nat := 10000
  /-- the length of an operand that is a number; lock times may always have five bytes -/
  maxNumSize : Nat := 4
  maxPubKeyCount : UInt8 := 20
  deriving DecidableEq, Repr

end SpendScript
