/-!
# Byte strings and the numbers they spell

What this file fixes:

* `Bytes` -- a byte string is a list of bytes, first byte first. Scripts, stack elements, keys,
  signatures and digests are all of this type.
* `Bytes.toNatLE` / `Bytes.toNatBE` -- the number that the bytes spell in base 256, with the least
  or the most significant byte first.
* `Bytes.ofNatLE k n` / `Bytes.ofNatBE k n` -- the last `k` base-256 digits of `n`; the length is
  `k` whatever `n` is (`length_ofNatLE`), and nothing is lost when `n < 256 ^ k`
  (`toNatLE_ofNatLE`).
* `Bytes.signedWidth` -- how many bytes a magnitude takes beside a sign bit (`signedWidth_le_iff`).
-/

namespace SpendScript

-- Powers of numbers are the core library's, also where more instances are imported beside it.
attribute [instance (2000), default_instance 20000] instPowNat

/-- A string of bytes, first byte first. -/
abbrev Bytes := List UInt8

namespace Bytes

/-! ## 1. Least significant byte first -/

/-- The number whose base-256 digits are the bytes, least significant first. -/
def toNatLE : Bytes → Nat
  | [] => 0
  | b :: bs => b.toNat + 256 * toNatLE bs

/-- The `k` low base-256 digits of a number, least significant first. -/
def ofNatLE : Nat → Nat → Bytes
  | 0, _ => []
  | k + 1, n => UInt8.ofNat n :: ofNatLE k (n / 256)

@[simp] theorem toNatLE_nil : toNatLE [] = 0 := rfl

@[simp] theorem toNatLE_cons (b : UInt8) (bs : Bytes) :
    toNatLE (b :: bs) = b.toNat + 256 * toNatLE bs := rfl

@[simp] theorem length_ofNatLE (k n : Nat) : (ofNatLE k n).length = k := by
  induction k generalizing n with
  | zero => rfl
  | succ k ih => simp [ofNatLE, ih]

theorem toNatLE_singleton (b : UInt8) : toNatLE [b] = b.toNat := rfl

/-- Bytes that follow are the higher digits. -/
theorem toNatLE_append (bs cs : Bytes) :
    toNatLE (bs ++ cs) = toNatLE bs + 256 ^ bs.length * toNatLE cs := by
  induction bs with
  | nil => simp
  | cons b bs ih =>
    simp only [List.cons_append, toNatLE_cons, List.length_cons, ih]
    rw [Nat.pow_succ, Nat.mul_comm (256 ^ bs.length) 256, Nat.mul_assoc, Nat.mul_add,
      Nat.add_assoc]

/-- A byte string spells a number below `256` to its length. -/
theorem toNatLE_lt (bs : Bytes) : toNatLE bs < 256 ^ bs.length := by
  induction bs with
  | nil => simp
  | cons b bs ih =>
    have hb : b.toNat < 256 := b.toNat_lt
    simp only [toNatLE_cons, List.length_cons, Nat.pow_succ]
    omega

/-- **Writing a number and reading it back** loses only the digits that do not fit. -/
theorem toNatLE_ofNatLE (k n : Nat) : toNatLE (ofNatLE k n) = n % 256 ^ k := by
  induction k generalizing n with
  | zero => simp [ofNatLE, Nat.mod_one]
  | succ k ih =>
    have h : n % 256 ^ (k + 1) = n % 256 + 256 * (n / 256 % 256 ^ k) := by
      rw [Nat.pow_succ, Nat.mul_comm, Nat.mod_mul]
    simp only [ofNatLE, toNatLE_cons, ih, h, UInt8.toNat_ofNat']

/-- Reading a byte string and writing it at its own length gives it back. -/
theorem ofNatLE_toNatLE (bs : Bytes) : ofNatLE bs.length (toNatLE bs) = bs := by
  induction bs with
  | nil => rfl
  | cons b bs ih =>
    have hb : b.toNat < 256 := b.toNat_lt
    have hdiv : (b.toNat + 256 * toNatLE bs) / 256 = toNatLE bs := by omega
    have hmod : UInt8.ofNat (b.toNat + 256 * toNatLE bs) = b := by
      apply UInt8.toNat_inj.mp
      rw [UInt8.toNat_ofNat']
      omega
    simp only [List.length_cons, toNatLE_cons, ofNatLE, hdiv, hmod, ih]

/-! ## 2. Most significant byte first -/

/-- The number whose base-256 digits are the bytes, most significant first. -/
def toNatBE (bs : Bytes) : Nat := toNatLE bs.reverse

/-- The `k` low base-256 digits of a number, most significant first. -/
def ofNatBE (k n : Nat) : Bytes := (ofNatLE k n).reverse

@[simp] theorem length_ofNatBE (k n : Nat) : (ofNatBE k n).length = k := by
  simp [ofNatBE]

theorem toNatBE_ofNatBE (k n : Nat) : toNatBE (ofNatBE k n) = n % 256 ^ k := by
  simp [toNatBE, ofNatBE, toNatLE_ofNatLE]

/-- The byte string without its leading zero bytes. -/
def dropZeros (bs : Bytes) : Bytes := bs.dropWhile (· == 0)

/-! ## 3. Room for a sign -/

/-- How many bytes hold a magnitude with the top bit left free, where zero takes none. -/
def signedWidth (m : Nat) : Nat := if m = 0 then 0 else (m.log2 + 1) / 8 + 1

theorem signedWidth_eq_zero_iff {m : Nat} : signedWidth m = 0 ↔ m = 0 := by
  unfold signedWidth
  split <;> simp_all

/-- **The width is the least one that leaves the top bit free.** -/
theorem signedWidth_le_iff {m k : Nat} (hk : 0 < k) : signedWidth m ≤ k ↔ m < 2 ^ (8 * k - 1) := by
  unfold signedWidth
  split
  · next h => subst h; exact ⟨fun _ => Nat.two_pow_pos _, fun _ => Nat.zero_le _⟩
  · next h => rw [← Nat.log2_lt h]; omega

end Bytes

end SpendScript
