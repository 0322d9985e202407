import SpendScript.Proofs.Conditional
import SpendScript.Proofs.Effect
import SpendScript.Proofs.NumberEncoding
/-!
# Elements as truth values and as numbers

An element is read in two ways. As a truth value its bytes are scanned, with an exception for a last
byte that is only the sign; as a number its digits are added up and the sign bit is taken off. This
file says that the two readings agree on every element that is a number: it is false if and only if
it is zero, however many zero bytes it is padded with and whatever its sign.

What this file fixes:

* `truthy_concat_iff` -- the scan, with the last byte apart.
* `truthy_iff_signMagnitude_ne_zero` -- the two readings agree on all bytes, also on those that are
  too long to be decoded.
* `ScriptNumber.truthy_iff_of_decode`, `ScriptNumber.truthy_encode_iff` -- they agree on what
  decodes, and on what is written.
* `Execute.truth_values_agree` -- with what follows for the opcodes that test for zero and the one
  that opens a branch.
-/

namespace SpendScript

/-! ## 1. Bytes that are zero -/

namespace Bytes

/-- Bytes spell zero if each of them is zero, by induction on the bytes. -/
theorem toNatLE_eq_zero_iff (bs : Bytes) : toNatLE bs = 0 ↔ ∀ b ∈ bs, b = 0 := by
  induction bs with
  | nil => exact ⟨fun _ _ hb => (List.not_mem_nil hb).elim, fun _ => rfl⟩
  | cons b bs ih =>
    rw [List.forall_mem_cons, ← ih, ← UInt8.toNat_inj, toNatLE_cons]
    show _ ↔ b.toNat = 0 ∧ _
    omega

/-- A byte without its top bit is zero if it is nothing but a sign. -/
theorem and_low_eq_zero_iff_sign (b : UInt8) : b &&& 0x7f = 0 ↔ b = 0 ∨ b = 0x80 := by
  have hb : b.toNat < 256 := b.toNat_lt
  rw [and_low_eq_zero_iff, ← UInt8.toNat_inj, ← UInt8.toNat_inj]
  show b.toNat % 128 = 0 ↔ b.toNat = 0 ∨ b.toNat = 128
  omega

end Bytes

/-! ## 2. The two readings -/

/-- What the scan calls false: zero bytes, and after them zero or only a sign. -/
theorem truthy_concat_iff (init : Bytes) (last : UInt8) :
    truthy (init ++ [last]) ↔ ¬ ((∀ b ∈ init, b = 0) ∧ (last = 0 ∨ last = 0x80)) := by
  unfold truthy
  rw [List.reverse_append]
  show (init.reverse.any (· != 0) || (last != 0 && last != 0x80)) = true ↔ _
  rw [List.any_reverse, Bool.or_eq_true, List.any_eq_true, Bool.and_eq_true,
    Decidable.not_and_iff_not_or_not, not_or]
  simp only [bne_iff_ne, ne_eq, Classical.not_forall, exists_prop]

/-- **An element is true if and only if it does not spell zero.** Both readings come to whether some
byte is left when the top bit of the last one is taken off. -/
theorem truthy_iff_signMagnitude_ne_zero (bytes : Bytes) :
    truthy bytes ↔ ScriptNumber.signMagnitude bytes ≠ 0 := by
  rcases bytes.eq_nil_or_concat with rfl | ⟨init, last, rfl⟩
  · decide
  rw [List.concat_eq_append, truthy_concat_iff, ne_eq, ← Int.natAbs_eq_zero,
    ScriptNumber.natAbs_signMagnitude_concat, Bytes.toNatLE_eq_zero_iff, List.forall_mem_append,
    List.forall_mem_singleton, Bytes.and_low_eq_zero_iff_sign]

namespace ScriptNumber

variable {bytes : Bytes} {minimal : Bool} {maxSize : Nat} {v : Int}

theorem truthy_iff_of_decode (h : decode bytes minimal maxSize = .ok v) :
    truthy bytes ↔ v ≠ 0 := by
  obtain ⟨_, _, _, rfl⟩ := decode_eq_ok_iff.mp h
  exact truthy_iff_signMagnitude_ne_zero bytes

theorem truthy_encode_iff (v : Int) : truthy (encode v) ↔ v ≠ 0 := by
  rw [truthy_iff_signMagnitude_ne_zero, signMagnitude_encode]

end ScriptNumber

/-! ## 3. Opcodes that look at either -/

namespace Execute

variable {c : Context} {s : State} {top : Bytes} {below : Stack Bytes}

/-- A test of a number puts the answer in its place. -/
theorem onStack_unaryTest {v : Int} (hstack : s.stack = top :: below) (hv : c.number top = .ok v)
    (f : Int → Bool) :
    s.onStack (unaryTest c f) = .ok { s with stack := ofBool (f v) :: below } := by
  unfold unaryTest
  rw [State.onStack_unop hstack, hv]
  rfl

/-- **Truth values and numbers agree.** What decodes, under whatever rule and limit, is true if and
only if its number is not zero, and so is what a number is written as. So on a top that decodes, the
test for zero yields true exactly where a branch that is opened on it is not taken, and the test for
a number other than zero leaves an element as true as the top. -/
theorem truth_values_agree :
    (∀ bytes minimal maxSize v, ScriptNumber.decode bytes minimal maxSize = .ok v →
      (truthy bytes ↔ v ≠ 0)) ∧
    (∀ v, truthy (ScriptNumber.encode v) ↔ v ≠ 0) ∧
    ∀ (c : Context) (position : Nat) (s : State) (top : Bytes) (below : Stack Bytes) (v : Int),
      s.stack = top :: below → s.isActive →
      ScriptNumber.decode top c.flags.minimalData c.limits.maxNumSize = .ok v →
      chunk c position s (.control .opIf)
        = pure { s with stack := below, conditions := truthy top :: s.conditions } ∧
      chunk c position s (.operation .not) = pure { s with stack := ofBool (!truthy top) :: below } ∧
      chunk c position s (.operation .notEqual0)
        = pure { s with stack := ofBool (truthy top) :: below } := by
  refine ⟨fun _ _ _ _ => ScriptNumber.truthy_iff_of_decode, ScriptNumber.truthy_encode_iff, ?_⟩
  intro c position s top below v hstack hactive hdecode
  have hnumber : c.number top = .ok v := number_of_decode hdecode
  have hnonzero : (v != 0) = truthy top := by
    rw [Bool.eq_iff_iff, bne_iff_ne, ScriptNumber.truthy_iff_of_decode hdecode]
  have hzero : (v == 0) = !truthy top := by
    rw [← hnonzero, bne, Bool.not_not]
  refine ⟨?_, ?_, ?_⟩
  · show Run.ofExcept (openBranch true s) = _
    rw [openBranch_of_active hactive hstack, beq_true]
    rfl
  · show Run.ofExcept (s.onStack _) = _
    rw [onStack_unaryTest hstack hnumber, hzero]
    rfl
  · show Run.ofExcept (s.onStack _) = _
    rw [onStack_unaryTest hstack hnumber, hnonzero]
    rfl

/-- A zero byte under nothing but a sign is zero and false; the number 128 needs a zero byte to be
positive, and is true. -/
theorem truth_values_agree_negativeZero :
    let c := Interpreter.plain.context [] .empty
    let s := State.initial [[0x00, 0x80], [7]]
    ScriptNumber.decode [0x00, 0x80] false 4 = .ok 0 ∧ truthy [0x00, 0x80] = false ∧
    ScriptNumber.encode 128 = [0x80, 0x00] ∧ truthy [0x80, 0x00] = true ∧ s.isActive ∧
    chunk c 0 s (.control .opIf) = pure { s with stack := [[7]], conditions := [false] } ∧
    chunk c 0 s (.operation .not) = pure { s with stack := [[1], [7]] } ∧
    chunk c 0 s (.operation .notEqual0) = pure { s with stack := [[], [7]] } := by
  intro c s
  obtain ⟨hdecoded, hwritten, hopcodes⟩ := truth_values_agree
  have hdecode : ScriptNumber.decode [0x00, 0x80] false 4 = .ok 0 :=
    eq_ok_of_toOption (by decide)
  have hencode : ScriptNumber.encode 128 = [0x80, 0x00] := by decide
  have hfalse : truthy [0x00, 0x80] = false :=
    Bool.eq_false_iff.mpr fun h => (hdecoded _ _ _ _ hdecode).mp h rfl
  have htrue : truthy [0x80, 0x00] = true := by
    rw [← hencode]
    exact (hwritten 128).mpr (by decide)
  obtain ⟨hopened, hnegated, hkept⟩ := hopcodes c 0 s [0x00, 0x80] [[7]] 0 rfl rfl hdecode
  rw [hfalse] at hopened hnegated hkept
  exact ⟨hdecode, hfalse, hencode, htrue, rfl, hopened, hnegated, hkept⟩

end Execute

end SpendScript
