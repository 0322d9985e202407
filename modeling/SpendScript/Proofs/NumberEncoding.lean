import SpendScript.ScriptNumber
/-!
# Every number has one shortest encoding

Signs, redundant last bytes, negative zeros and the one number of nine bytes meet in a few lines of
code. This file says what they come to: writing and reading are inverse to each other on shortest
encodings, reading without the shortest-form rule only adds longer spellings of the same numbers,
and the length of an encoding is told by the size of the number.

What this file fixes:

* `ScriptNumber.spelled` -- sign and magnitude read byte by byte, the last byte apart from its top
  bit.
* `ScriptNumber.isMinimal_iff` -- the test on the last two bytes asks for as many bytes as the
  magnitude takes.
* `ScriptNumber.signMagnitude_encode`, `ScriptNumber.encode_signMagnitude` -- the two inverses.
* `ScriptNumber.written`, `ScriptNumber.written_eq_encode` -- numbers written byte by byte, the sign
  put on at the end.
* `ScriptNumber.readWord`, `ScriptNumber.readWord_eq_signMagnitude` -- numbers read by shifts and
  masks in a word of 64 bits, which up to eight bytes loses nothing.
* `ScriptNumber.decode_eq_ok_iff` -- what is decoded, and to which number.
* `ScriptNumber.encode_canonical` -- all of it for the numbers of 64 bits.
-/

namespace SpendScript

/-! ## 1. The top bit of a byte -/

namespace Bytes

theorem toNat_and_low (b : UInt8) : (b &&& 0x7f).toNat = b.toNat % 128 := by
  rw [UInt8.toNat_and]
  exact Nat.and_two_pow_sub_one_eq_mod b.toNat 7

theorem and_low_eq_zero_iff (b : UInt8) : b &&& 0x7f = 0 ↔ b.toNat % 128 = 0 := by
  rw [← UInt8.toNat_inj, toNat_and_low]
  rfl

theorem and_high_eq_zero_iff (b : UInt8) : b &&& 0x80 = 0 ↔ b.toNat < 128 := by
  have hbytes : ∀ n < 256, n &&& 128 = 0 ↔ n < 128 := by decide +kernel
  rw [← UInt8.toNat_inj, UInt8.toNat_and]
  exact hbytes b.toNat b.toNat_lt

/-- A byte whose top bit is free is its own low part. -/
theorem and_low_of_and_high {b : UInt8} (h : b &&& 0x80 = 0) : b &&& 0x7f = b := by
  rw [← UInt8.toNat_inj, toNat_and_low, Nat.mod_eq_of_lt ((and_high_eq_zero_iff b).mp h)]

/-- Setting the top bit leaves the low part as it is. -/
theorem or_high_and_low (b : UInt8) : (b ||| 0x80) &&& 0x7f = b &&& 0x7f := by
  rw [← UInt8.toNat_inj, toNat_and_low, toNat_and_low, UInt8.toNat_or]
  show (b.toNat ||| 128) % 2 ^ 7 = b.toNat % 2 ^ 7
  rw [Nat.or_mod_two_pow, Nat.mod_self, Nat.or_zero]

theorem or_high_and_high_ne_zero (b : UInt8) : (b ||| 0x80) &&& 0x80 ≠ 0 := by
  have hset : 128 ≤ (b ||| 0x80).toNat := by
    rw [UInt8.toNat_or]
    exact Nat.right_le_or
  exact mt (and_high_eq_zero_iff _).mp (Nat.not_lt.mpr hset)

end Bytes

namespace ScriptNumber

open Bytes

/-- The sign bit of so many bytes and one more. -/
theorem signBit_succ (k : Nat) : 2 ^ (8 * (k + 1) - 1) = 128 * 256 ^ k := by
  have hbits : 8 * (k + 1) - 1 = 7 + 8 * k := by omega
  rw [hbits, Nat.pow_add, Nat.pow_mul]

/-- The sign and the magnitude that bytes spell, read byte by byte: the top bit of the last byte is
the sign, and the rest of that byte is the highest digit. -/
def spelled (bytes : Bytes) : Int :=
  match bytes.getLast? with
  | none => 0
  | some last =>
    let magnitude := toNatLE (bytes.dropLast ++ [last &&& 0x7f])
    if last &&& 0x80 = 0 then (magnitude : Int) else -(magnitude : Int)

theorem spelled_concat (init : Bytes) (last : UInt8) : spelled (init ++ [last]) =
    if last &&& 0x80 = 0 then (toNatLE (init ++ [last &&& 0x7f]) : Int)
    else -(toNatLE (init ++ [last &&& 0x7f]) : Int) := by
  unfold spelled
  rw [List.getLast?_concat, List.dropLast_concat]

/-- The magnitude leaves the sign bit free. -/
theorem magnitude_lt (init : Bytes) (last : UInt8) :
    toNatLE (init ++ [last &&& 0x7f]) < 2 ^ (8 * (init.length + 1) - 1) := by
  have hinit := toNatLE_lt init
  have hdigit : last.toNat % 128 ≤ 127 := by omega
  have hdigit' := Nat.mul_le_mul_left (256 ^ init.length) hdigit
  rw [signBit_succ, toNatLE_append, toNatLE_singleton, toNat_and_low]
  omega

/-- Bytes are their magnitude, and the sign bit if the top bit of the last byte is set. -/
theorem toNatLE_concat (init : Bytes) (last : UInt8) : toNatLE (init ++ [last]) =
    toNatLE (init ++ [last &&& 0x7f]) +
      if last &&& 0x80 = 0 then 0 else 2 ^ (8 * (init.length + 1) - 1) := by
  have hlast : last.toNat < 256 := last.toNat_lt
  rw [signBit_succ, toNatLE_append, toNatLE_append, toNatLE_singleton, toNatLE_singleton,
    toNat_and_low, Nat.add_assoc]
  congr 1
  by_cases hhigh : last.toNat < 128
  · rw [if_pos ((and_high_eq_zero_iff last).mpr hhigh), Nat.mod_eq_of_lt hhigh, Nat.add_zero]
  · have hmod : last.toNat = last.toNat % 128 + 128 := by omega
    rw [if_neg (mt (and_high_eq_zero_iff last).mp hhigh), Nat.mul_comm 128, ← Nat.mul_add, ← hmod]

/-- **Reading all digits at once and taking the sign bit off is reading byte by byte.** -/
theorem signMagnitude_eq_spelled (bytes : Bytes) : signMagnitude bytes = spelled bytes := by
  rcases bytes.eq_nil_or_concat with rfl | ⟨init, last, rfl⟩
  · rfl
  rw [List.concat_eq_append, spelled_concat]
  have hmagnitude := magnitude_lt init last
  unfold signMagnitude
  dsimp only
  rw [List.length_append, List.length_singleton, toNatLE_concat]
  by_cases hpositive : last &&& 0x80 = 0
  · rw [if_pos hpositive, if_pos hpositive, Nat.add_zero, if_pos hmagnitude]
  · rw [if_neg hpositive, if_neg hpositive, if_neg (by omega), Nat.add_sub_cancel]

/-- The size of what bytes spell is their magnitude. -/
theorem natAbs_signMagnitude_concat (init : Bytes) (last : UInt8) :
    (signMagnitude (init ++ [last])).natAbs = toNatLE (init ++ [last &&& 0x7f]) := by
  rw [signMagnitude_eq_spelled, spelled_concat]
  split
  · exact Int.natAbs_natCast _
  · rw [Int.natAbs_neg, Int.natAbs_natCast]

/-! ## 2. Shortest encodings -/

/-- What bytes spell takes no more bytes than these. -/
theorem signedWidth_signMagnitude_le (bytes : Bytes) :
    signedWidth (signMagnitude bytes).natAbs ≤ bytes.length := by
  rcases bytes.eq_nil_or_concat with rfl | ⟨init, last, rfl⟩
  · exact Nat.le_refl 0
  rw [List.concat_eq_append, List.length_append, List.length_singleton,
    natAbs_signMagnitude_concat]
  exact (signedWidth_le_iff (Nat.succ_pos _)).mpr (magnitude_lt init last)

/-- The test on the last byte but one is whether the magnitude would fit without the last byte. -/
theorem magnitude_lt_of_short (init : Bytes) (next last : UInt8) :
    toNatLE (init ++ [next] ++ [last &&& 0x7f]) < 2 ^ (8 * (init.length + 1) - 1) ↔
      last &&& 0x7f = 0 ∧ next &&& 0x80 = 0 := by
  have hinit := toNatLE_lt init
  have hpower := Nat.two_pow_pos 8
  rw [signBit_succ, List.append_assoc, toNatLE_append, List.singleton_append, toNatLE_cons,
    toNatLE_singleton, toNat_and_low, and_low_eq_zero_iff, and_high_eq_zero_iff]
  generalize 256 ^ init.length = unit at hinit
  generalize last.toNat % 128 = high
  constructor
  · intro h
    have hdigits : next.toNat + 256 * high < 128 := by
      refine Nat.lt_of_mul_lt_mul_left (a := unit) ?_
      omega
    omega
  · rintro ⟨rfl, hnext⟩
    have hdigit := Nat.mul_le_mul_left unit (show next.toNat ≤ 127 by omega)
    rw [Nat.mul_zero, Nat.add_zero]
    omega

theorem isMinimal_concat (init : Bytes) (next last : UInt8) :
    isMinimal (init ++ [next] ++ [last]) ↔ ¬ (last &&& 0x7f = 0 ∧ next &&& 0x80 = 0) := by
  have hreverse : (init ++ [next] ++ [last]).reverse = last :: next :: init.reverse := by
    rw [List.reverse_append, List.reverse_append]
    rfl
  unfold isMinimal
  rw [hreverse, Decidable.not_and_iff_not_or_not]
  simp only [Bool.or_eq_true, bne_iff_ne, ne_eq]

/-- **The test on the last two bytes** asks for as many bytes as the magnitude takes. -/
theorem isMinimal_iff {bytes : Bytes} :
    isMinimal bytes ↔ signedWidth (signMagnitude bytes).natAbs = bytes.length := by
  have hle := signedWidth_signMagnitude_le bytes
  rcases bytes.eq_nil_or_concat with rfl | ⟨front, last, rfl⟩
  · decide
  rw [List.concat_eq_append, List.length_append, List.length_singleton,
    natAbs_signMagnitude_concat] at hle ⊢
  rw [Nat.eq_iff_le_and_ge, and_iff_right hle, Nat.succ_le_iff, ← Nat.not_le]
  rcases front.eq_nil_or_concat with rfl | ⟨init, next, rfl⟩
  · -- a byte alone is needed unless it holds a sign only
    rw [List.nil_append, List.nil_append, toNatLE_singleton, List.length_nil, Nat.le_zero,
      signedWidth_eq_zero_iff, ← UInt8.toNat_zero, UInt8.toNat_inj]
    exact bne_iff_ne
  · rw [List.concat_eq_append, isMinimal_concat, List.length_append, List.length_singleton,
      signedWidth_le_iff (Nat.succ_pos _), magnitude_lt_of_short]

/-- The number that was taken apart: the magnitude, and the sign bit under a negative sign. Only the
negative zero is lost. -/
theorem natAbs_add_signBit {bytes : Bytes} (h : toNatLE bytes ≠ 2 ^ (8 * bytes.length - 1)) :
    (signMagnitude bytes).natAbs +
      (if signMagnitude bytes < 0 then 2 ^ (8 * bytes.length - 1) else 0) = toNatLE bytes := by
  unfold signMagnitude
  dsimp only
  split
  · rw [if_neg (Int.not_lt.mpr (Int.natCast_nonneg _)), Int.natAbs_natCast, Nat.add_zero]
  · rw [if_pos (by omega), Int.natAbs_neg, Int.natAbs_natCast]
    omega

/-- **A minimal byte string is the encoding of what it spells.** -/
theorem encode_signMagnitude {bytes : Bytes} (h : isMinimal bytes) :
    encode (signMagnitude bytes) = bytes := by
  have hwidth := isMinimal_iff.mp h
  have hzero : toNatLE bytes ≠ 2 ^ (8 * bytes.length - 1) := by
    intro heq
    have hspelled : signMagnitude bytes = 0 := by
      unfold signMagnitude
      dsimp only
      rw [heq, if_neg (Nat.lt_irrefl _), Nat.sub_self]
      rfl
    rw [hspelled] at hwidth
    obtain rfl : bytes = [] := List.length_eq_zero_iff.mp hwidth.symm
    exact absurd heq (by decide)
  unfold encode
  dsimp only
  rw [hwidth, natAbs_add_signBit hzero, ofNatLE_toNatLE]

/-- **What is written reads as what it was**, for every integer. -/
@[simp] theorem signMagnitude_encode (v : Int) : signMagnitude (encode v) = v := by
  by_cases hv : v = 0
  · subst hv
    decide
  have hpos : 0 < signedWidth v.natAbs := by
    rw [Nat.pos_iff_ne_zero, ne_eq, signedWidth_eq_zero_iff]
    omega
  have hmagnitude : v.natAbs < 2 ^ (8 * signedWidth v.natAbs - 1) :=
    (signedWidth_le_iff hpos).mp (Nat.le_refl _)
  have hroom : 256 ^ signedWidth v.natAbs = 2 * 2 ^ (8 * signedWidth v.natAbs - 1) := by
    have hbits : 8 * signedWidth v.natAbs = 8 * signedWidth v.natAbs - 1 + 1 := by omega
    rw [show 256 = 2 ^ 8 from rfl, ← Nat.pow_mul, hbits, Nat.pow_succ, Nat.mul_comm]
    rfl
  unfold signMagnitude
  dsimp only
  rw [length_encode]
  unfold encode
  dsimp only
  rw [toNatLE_ofNatLE, hroom]
  generalize 2 ^ (8 * signedWidth v.natAbs - 1) = signBit at hmagnitude
  split
  · next hneg =>
    rw [Nat.mod_eq_of_lt (by omega), if_neg (by omega)]
    omega
  · next hneg =>
    rw [Nat.mod_eq_of_lt (by omega), if_pos (by omega)]
    omega

theorem isMinimal_encode (v : Int) : isMinimal (encode v) := by
  rw [isMinimal_iff, signMagnitude_encode, length_encode]

/-- How many bytes a number takes is told by its size. -/
theorem length_encode_le_iff {v : Int} {k : Nat} (hk : 0 < k) :
    (encode v).length ≤ k ↔ v.natAbs < 2 ^ (8 * k - 1) := by
  rw [length_encode, signedWidth_le_iff hk]

/-! ## 3. Writing byte by byte -/

/-- The bytes of a magnitude, least significant first, as long as something is left of it. -/
def magnitudeBytes (m : Nat) : Bytes :=
  if m = 0 then [] else UInt8.ofNat (m &&& 0xff) :: magnitudeBytes (m >>> 8)
termination_by m
decreasing_by
  rw [Nat.shiftRight_eq_div_pow]
  exact Nat.div_lt_self (Nat.pos_of_ne_zero ‹_›) (by decide)

/-- The sign is put into the top bit of the last byte, or into a byte more where that bit is
taken. -/
def withSign (negative : Bool) (bytes : Bytes) : Bytes :=
  match bytes.getLast? with
  | none => bytes ++ [if negative then 0x80 else 0]
  | some last =>
    if last &&& 0x80 ≠ 0 then bytes ++ [if negative then 0x80 else 0]
    else if negative then bytes.dropLast ++ [last ||| 0x80]
    else bytes

/-- A number written byte by byte. -/
def written (v : Int) : Bytes :=
  if v = 0 then [] else withSign (v < 0) (magnitudeBytes v.natAbs)

/-- What is left of a magnitude is written behind its lowest byte. -/
theorem magnitudeBytes_of_ne_zero {m : Nat} (h : m ≠ 0) :
    magnitudeBytes m = UInt8.ofNat m :: magnitudeBytes (m / 256) := by
  have hlow : UInt8.ofNat (m &&& 0xff) = UInt8.ofNat m := by
    rw [← UInt8.toNat_inj, UInt8.toNat_ofNat', UInt8.toNat_ofNat',
      Nat.and_two_pow_sub_one_eq_mod m 8, Nat.mod_mod]
  rw [magnitudeBytes, if_neg h, hlow, Nat.shiftRight_eq_div_pow]

/-- **The bytes of a magnitude are its digits**, and the last of them is not zero, by induction on
what is left. -/
theorem exists_magnitudeBytes_eq {m : Nat} (h : m ≠ 0) : ∃ init last,
    magnitudeBytes m = init ++ [last] ∧ last ≠ 0 ∧ toNatLE (init ++ [last]) = m := by
  induction m using Nat.strongRecOn with
  | _ m ih =>
    have hbyte : (UInt8.ofNat m).toNat = m % 256 := UInt8.toNat_ofNat'
    rw [magnitudeBytes_of_ne_zero h]
    by_cases hlast : m / 256 = 0
    · refine ⟨[], UInt8.ofNat m, ?_, ?_, ?_⟩
      · rw [hlast, magnitudeBytes, if_pos rfl]
        rfl
      · rw [ne_eq, ← UInt8.toNat_inj, hbyte]
        show ¬ m % 256 = 0
        omega
      · rw [List.nil_append, toNatLE_singleton, hbyte]
        omega
    · obtain ⟨init, last, hbytes, hne, hvalue⟩ := ih (m / 256) (by omega) hlast
      refine ⟨UInt8.ofNat m :: init, last, by rw [hbytes, List.cons_append], hne, ?_⟩
      rw [List.cons_append, toNatLE_cons, hvalue, hbyte]
      omega

theorem withSign_concat (negative : Bool) (init : Bytes) (last : UInt8) :
    withSign negative (init ++ [last]) =
      if last &&& 0x80 ≠ 0 then init ++ [last] ++ [if negative then 0x80 else 0]
      else if negative then init ++ [last ||| 0x80]
      else init ++ [last] := by
  unfold withSign
  rw [List.getLast?_concat, List.dropLast_concat]

/-- A last byte that holds more than a sign is needed. -/
theorem isMinimal_of_last {init : Bytes} {last : UInt8} (h : last &&& 0x7f ≠ 0) :
    isMinimal (init ++ [last]) := by
  rcases init.eq_nil_or_concat with rfl | ⟨front, next, rfl⟩
  · exact bne_iff_ne.mpr h
  · rw [List.concat_eq_append, isMinimal_concat]
    exact fun hshort => h hshort.1

/-- **What a sign is put on reads as the signed magnitude**, and takes no byte more than needed. -/
theorem spelled_withSign (negative : Bool) (init : Bytes) {last : UInt8} (hlast : last ≠ 0) :
    spelled (withSign negative (init ++ [last]))
      = (if negative then -(toNatLE (init ++ [last]) : Int) else toNatLE (init ++ [last])) ∧
    isMinimal (withSign negative (init ++ [last])) := by
  rw [withSign_concat]
  by_cases hhigh : last &&& 0x80 = 0
  · have hlow : last &&& 0x7f = last := and_low_of_and_high hhigh
    rw [if_neg (not_not_intro hhigh)]
    cases negative with
    | true =>
      have hset : (last ||| 0x80) &&& 0x7f = last := (or_high_and_low last).trans hlow
      refine ⟨?_, isMinimal_of_last (by rw [hset]; exact hlast)⟩
      rw [if_pos rfl, if_pos rfl, spelled_concat, if_neg (or_high_and_high_ne_zero last), hset]
    | false =>
      refine ⟨?_, isMinimal_of_last (by rw [hlow]; exact hlast)⟩
      rw [if_neg Bool.false_ne_true, if_neg Bool.false_ne_true, spelled_concat, if_pos hhigh, hlow]
  · have hvalue : toNatLE (init ++ [last] ++ [0]) = toNatLE (init ++ [last]) := by
      rw [toNatLE_append (init ++ [last])]
      exact Nat.add_zero _
    rw [if_pos hhigh]
    refine ⟨?_, (isMinimal_concat init last _).mpr fun h => hhigh h.2⟩
    cases negative with
    | true =>
      rw [if_pos rfl, if_pos rfl, spelled_concat, if_neg (by decide)]
      exact congrArg (fun n : Nat => -(n : Int)) hvalue
    | false =>
      rw [if_neg Bool.false_ne_true, if_neg Bool.false_ne_true, spelled_concat, if_pos (by decide)]
      exact congrArg Nat.cast hvalue

/-- **Writing all digits at once is writing byte by byte**: what is written reads as the number, and
only one byte string without a redundant byte does. -/
theorem written_eq_encode (v : Int) : written v = encode v := by
  by_cases hzero : v = 0
  · subst hzero
    decide
  obtain ⟨init, last, hbytes, hlast, hvalue⟩ :=
    exists_magnitudeBytes_eq (Int.natAbs_ne_zero.mpr hzero)
  obtain ⟨hspelled, hminimal⟩ := spelled_withSign (v < 0) init hlast
  have hsigned : spelled (withSign (v < 0) (init ++ [last])) = v := by
    rw [hspelled, hvalue]
    by_cases hneg : v < 0
    · rw [if_pos (decide_eq_true hneg)]
      omega
    · rw [if_neg (by simpa using hneg)]
      omega
  unfold written
  rw [if_neg hzero, hbytes, ← encode_signMagnitude hminimal, signMagnitude_eq_spelled, hsigned]

/-! ## 4. Reading in a word -/

/-- Bytes moved into a word of 64 bits, each to its place. -/
def gathered (place : Nat) (word : BitVec 64) : Bytes → BitVec 64
  | [] => word
  | b :: bs => gathered (place + 1) (word ||| BitVec.ofNat 64 b.toNat <<< (8 * place)) bs

/-- Sign and magnitude read in a word of 64 bits: a sign bit is masked out, and the rest negated. -/
def readWord (bytes : Bytes) : Int :=
  match bytes.getLast? with
  | none => 0
  | some last =>
    let word := gathered 0 0 bytes
    if last &&& 0x80 ≠ 0 then (-(word &&& ~~~(0x80#64 <<< (8 * (bytes.length - 1))))).toInt
    else word.toInt

theorem gathered_concat (place : Nat) (word : BitVec 64) (init : Bytes) (last : UInt8) :
    gathered place word (init ++ [last]) = gathered place word init |||
      BitVec.ofNat 64 last.toNat <<< (8 * (place + init.length)) := by
  induction init generalizing place word with
  | nil => rfl
  | cons b bs ih =>
    show gathered (place + 1) _ (bs ++ [last]) = gathered (place + 1) _ bs ||| _
    rw [ih, List.length_cons, Nat.add_assoc, Nat.add_comm 1]

/-- A byte that goes to a free place of the word adds what it counts there. -/
theorem toNat_or_shiftLeft {place : Nat} {word : BitVec 64} (hplace : place < 8)
    (hword : word.toNat < 256 ^ place) (b : UInt8) :
    (word ||| BitVec.ofNat 64 b.toNat <<< (8 * place)).toNat
      = word.toNat + 256 ^ place * b.toNat := by
  have hpower : 2 ^ (8 * place) = 256 ^ place := Nat.pow_mul 2 8 place
  have hbyte : b.toNat % 2 ^ 64 = b.toNat :=
    Nat.mod_eq_of_lt (Nat.lt_trans b.toNat_lt (by decide))
  have hroom : b.toNat <<< (8 * place) < 2 ^ 64 := by
    rw [Nat.shiftLeft_eq, hpower]
    calc b.toNat * 256 ^ place < 256 * 256 ^ place :=
          Nat.mul_lt_mul_of_pos_right b.toNat_lt (Nat.pow_pos (by decide))
      _ = 256 ^ (place + 1) := (Nat.pow_succ' ..).symm
      _ ≤ 256 ^ 8 := Nat.pow_le_pow_right (by decide) hplace
  rw [BitVec.toNat_or, BitVec.toNat_shiftLeft, BitVec.toNat_ofNat, hbyte,
    Nat.mod_eq_of_lt hroom, Nat.or_comm,
    ← Nat.shiftLeft_add_eq_or_of_lt (by rw [hpower]; exact hword), Nat.shiftLeft_eq, hpower,
    Nat.mul_comm, Nat.add_comm]

/-- **Eight bytes fit the word**, by induction on those that are left: every byte finds its place
free. -/
theorem toNat_gathered {bytes : Bytes} {place : Nat} {word : BitVec 64}
    (hlength : place + bytes.length ≤ 8) (hword : word.toNat < 256 ^ place) :
    (gathered place word bytes).toNat = word.toNat + 256 ^ place * toNatLE bytes := by
  induction bytes generalizing place word with
  | nil => rfl
  | cons b bs ih =>
    rw [List.length_cons] at hlength
    have hstep := toNat_or_shiftLeft (by omega) hword b
    have hnext : (word ||| BitVec.ofNat 64 b.toNat <<< (8 * place)).toNat < 256 ^ (place + 1) := by
      have hdigit := Nat.mul_le_mul_left (256 ^ place) (Nat.le_of_lt_succ b.toNat_lt)
      rw [hstep, Nat.pow_succ]
      omega
    show (gathered (place + 1) _ bs).toNat = _
    rw [ih (by omega) hnext, hstep, toNatLE_cons, Nat.pow_succ, Nat.mul_add, Nat.mul_assoc,
      Nat.add_assoc]

/-- What was gathered from the first place on is the number of the digits. -/
theorem toNat_gathered_zero {bytes : Bytes} (h : bytes.length ≤ 8) :
    (gathered 0 0 bytes).toNat = toNatLE bytes := by
  calc (gathered 0 0 bytes).toNat = 0 + 256 ^ 0 * toNatLE bytes :=
        toNat_gathered (by omega) (by decide)
    _ = toNatLE bytes := by rw [Nat.pow_zero, Nat.one_mul, Nat.zero_add]

/-- Masking bits of the last byte leaves the places below alone. -/
theorem or_shiftLeft_and_not {word : BitVec 64} {shift : Nat} (h : word.toNat < 2 ^ shift)
    (last mask : BitVec 64) :
    (word ||| last <<< shift) &&& ~~~(mask <<< shift) = word ||| (last &&& ~~~mask) <<< shift := by
  refine BitVec.eq_of_getLsbD_eq fun i hi => ?_
  have hinner : i - shift < 64 := by omega
  simp only [BitVec.getLsbD_or, BitVec.getLsbD_and, BitVec.getLsbD_not, BitVec.getLsbD_shiftLeft,
    decide_eq_true hi, decide_eq_true hinner, Bool.true_and]
  by_cases hlow : i < shift
  · rw [decide_eq_true hlow]
    simp
  · have hfree : word.getLsbD i = false :=
      Nat.testBit_lt_two_pow (Nat.lt_of_lt_of_le h (Nat.pow_le_pow_right (by decide) (by omega)))
    rw [hfree, decide_eq_false hlow]
    simp

theorem ofNat_and_not_high (b : UInt8) :
    BitVec.ofNat 64 b.toNat &&& ~~~0x80#64 = BitVec.ofNat 64 (b &&& 0x7f).toNat := by
  have hbytes : ∀ n < 256,
      BitVec.ofNat 64 n &&& ~~~0x80#64 = BitVec.ofNat 64 (n &&& 0x7f) := by decide +kernel
  rw [UInt8.toNat_and]
  exact hbytes b.toNat b.toNat_lt

/-- The magnitude leaves the sign bit of the word free. -/
theorem toInt_gathered {init : Bytes} (hlength : init.length < 8) (last : UInt8) :
    (gathered 0 0 (init ++ [last &&& 0x7f])).toNat < 2 ^ 63 ∧
    (gathered 0 0 (init ++ [last &&& 0x7f])).toInt = toNatLE (init ++ [last &&& 0x7f]) := by
  have hvalue : (gathered 0 0 (init ++ [last &&& 0x7f])).toNat
      = toNatLE (init ++ [last &&& 0x7f]) := by
    refine toNat_gathered_zero ?_
    rw [List.length_append, List.length_singleton]
    exact hlength
  have hroom : toNatLE (init ++ [last &&& 0x7f]) < 2 ^ 63 :=
    Nat.lt_of_lt_of_le (magnitude_lt init last) (Nat.pow_le_pow_right (by decide) (by omega))
  refine ⟨by rw [hvalue]; exact hroom, ?_⟩
  rw [BitVec.toInt_eq_toNat_of_lt (by omega), hvalue]

/-- **Reading all digits at once is reading by shifts and masks**, as long as they fit a word. -/
theorem readWord_eq_signMagnitude {bytes : Bytes} (h : bytes.length ≤ 8) :
    readWord bytes = signMagnitude bytes := by
  rcases bytes.eq_nil_or_concat with rfl | ⟨init, last, rfl⟩
  · rfl
  rw [List.concat_eq_append] at h ⊢
  have hlength : init.length < 8 := by
    rw [List.length_append, List.length_singleton] at h
    exact h
  obtain ⟨hroom, hmagnitude⟩ := toInt_gathered hlength last
  rw [signMagnitude_eq_spelled, spelled_concat]
  unfold readWord
  rw [List.getLast?_concat]
  dsimp only
  by_cases hhigh : last &&& 0x80 = 0
  · rw [and_low_of_and_high hhigh] at hmagnitude ⊢
    rw [if_neg (not_not_intro hhigh), if_pos hhigh, hmagnitude]
  · have hinit : (gathered 0 0 init).toNat < 2 ^ (8 * init.length) := by
      rw [toNat_gathered_zero (Nat.le_of_lt hlength), Nat.pow_mul]
      exact toNatLE_lt init
    have hmasked : gathered 0 0 (init ++ [last]) &&& ~~~(0x80#64 <<< (8 * init.length))
        = gathered 0 0 (init ++ [last &&& 0x7f]) := by
      rw [gathered_concat, gathered_concat, Nat.zero_add, or_shiftLeft_and_not hinit,
        ofNat_and_not_high]
    rw [if_pos hhigh, if_neg hhigh, List.length_append, List.length_singleton,
      Nat.add_sub_cancel, hmasked, BitVec.toInt_neg_of_ne_intMin, hmagnitude]
    intro hmin
    rw [hmin] at hroom
    exact absurd hroom (by decide)

/-! ## 5. Decoding -/

theorem signMagnitude_leastEncoding : signMagnitude leastEncoding = least := by decide

theorem encode_least : encode least = leastEncoding := by decide

/-- **What is decoded**: byte strings within the limit, minimal ones where that is asked for, of
eight bytes at most or the one of nine, to the number that they spell. -/
theorem decode_eq_ok_iff {bytes : Bytes} {minimal : Bool} {maxSize : Nat} {v : Int} :
    decode bytes minimal maxSize = .ok v ↔
      bytes.length ≤ maxSize ∧ (minimal → isMinimal bytes) ∧
      (bytes.length ≤ 8 ∨ bytes = leastEncoding) ∧ v = signMagnitude bytes := by
  unfold decode
  by_cases hsize : maxSize < bytes.length
  · rw [if_pos hsize]
    exact ⟨nofun, fun h => absurd h.1 (Nat.not_le.mpr hsize)⟩
  rw [if_neg hsize, and_iff_right (Nat.not_lt.mp hsize)]
  by_cases hrule : (minimal && !isMinimal bytes) = true
  · rw [if_pos hrule]
    rw [Bool.and_eq_true, Bool.not_eq_true'] at hrule
    refine ⟨nofun, fun h => ?_⟩
    rw [h.1 hrule.1] at hrule
    exact nomatch hrule.2
  have hminimal : minimal → isMinimal bytes := by
    intro hrequired
    rwa [hrequired, Bool.true_and, Bool.not_eq_true', Bool.not_eq_false] at hrule
  rw [if_neg hrule, and_iff_right hminimal]
  by_cases hleast : bytes = leastEncoding
  · subst hleast
    rw [if_pos rfl, and_iff_right (.inr rfl), signMagnitude_leastEncoding]
    exact ⟨fun h => by cases h; rfl, fun h => by rw [h]⟩
  rw [if_neg hleast, or_iff_left hleast]
  by_cases hlong : 8 < bytes.length
  · rw [if_pos hlong]
    exact ⟨nofun, fun h => absurd h.1 (Nat.not_le.mpr hlong)⟩
  · rw [if_neg hlong, and_iff_right (Nat.not_lt.mp hlong)]
    exact ⟨fun h => by cases h; rfl, fun h => by rw [h]⟩

/-- Eight bytes and the nine of the least number spell numbers of 64 bits. -/
theorem fits_signMagnitude {bytes : Bytes} (h : bytes.length ≤ 8 ∨ bytes = leastEncoding) :
    Fits (signMagnitude bytes) := by
  rcases h with h | rfl
  · have hwidth := Nat.le_trans (signedWidth_signMagnitude_le bytes) h
    have hsize := (signedWidth_le_iff (by decide)).mp hwidth
    unfold Fits least
    omega
  · decide

/-- **What decodes fits 64 bits.** -/
theorem fits_of_decode {bytes : Bytes} {minimal : Bool} {maxSize : Nat} {v : Int}
    (h : decode bytes minimal maxSize = .ok v) : Fits v := by
  obtain ⟨_, _, hlength, rfl⟩ := decode_eq_ok_iff.mp h
  exact fits_signMagnitude hlength

/-- **A limit on the length bounds the number.** -/
theorem natAbs_lt_of_decode {bytes : Bytes} {minimal : Bool} {maxSize k : Nat} {v : Int}
    (hk : 0 < k) (hsize : maxSize ≤ k) (h : decode bytes minimal maxSize = .ok v) :
    v.natAbs < 2 ^ (8 * k - 1) := by
  obtain ⟨hlength, _, _, rfl⟩ := decode_eq_ok_iff.mp h
  have hwidth := signedWidth_signMagnitude_le bytes
  exact (signedWidth_le_iff hk).mp (by omega)

/-- Eight bytes hold every number of 64 bits but the least one. -/
theorem length_encode_le_or_eq_least {v : Int} (h : Fits v) :
    (encode v).length ≤ 8 ∨ v = least := by
  rw [length_encode_le_iff (by decide)]
  unfold Fits least at *
  omega

/-- Nine bytes hold every number of 64 bits. -/
theorem length_encode_le_nine {v : Int} (h : Fits v) : (encode v).length ≤ 9 := by
  rcases length_encode_le_or_eq_least h with hlength | rfl
  · omega
  · decide

/-- **An encoding decodes**, under both rules, wherever its length is allowed. -/
theorem decode_encode {v : Int} (h : Fits v) (minimal : Bool) (maxSize : Nat) :
    decode (encode v) minimal maxSize =
      if (encode v).length ≤ maxSize then .ok v
      else .error (.tooLong maxSize (encode v).length) := by
  split
  · next hsize =>
    refine decode_eq_ok_iff.mpr ⟨hsize, fun _ => isMinimal_encode v, ?_, ?_⟩
    · rcases length_encode_le_or_eq_least h with hlength | rfl
      · exact .inl hlength
      · exact .inr encode_least
    · exact (signMagnitude_encode v).symm
  · next hsize => exact if_pos (Nat.not_le.mp hsize)

/-! ## 6. The numbers of 64 bits -/

/-- **Encodings are canonical and lossless.** An encoding decodes to its number under both rules,
unless it is over the limit. What decodes under the shortest-form rule is the encoding of its
number; what decodes without it is no shorter than the encoding, which decodes under the rule, and
up to eight bytes it is read as sign and magnitude. The length of an encoding is told by the size of
the number, and the least number alone takes nine bytes. -/
theorem encode_canonical :
    (∀ v, Fits v → ∀ minimal maxSize, decode (encode v) minimal maxSize =
      if (encode v).length ≤ maxSize then .ok v
      else .error (.tooLong maxSize (encode v).length)) ∧
    (∀ bytes maxSize v, decode bytes true maxSize = .ok v → encode v = bytes) ∧
    (∀ bytes maxSize v, decode bytes false maxSize = .ok v →
      Fits v ∧ (encode v).length ≤ bytes.length ∧ decode (encode v) true maxSize = .ok v ∧
      (bytes.length ≤ 8 → v = spelled bytes)) ∧
    (∀ v, Fits v →
      (∀ k, 1 ≤ k → k ≤ 8 → ((encode v).length ≤ k ↔ v.natAbs < 2 ^ (8 * k - 1))) ∧
      (encode v).length ≤ 9 ∧ ((encode v).length = 9 ↔ v = least)) := by
  refine ⟨fun v => decode_encode, ?strict, ?lenient, ?width⟩
  case strict =>
    intro bytes maxSize v h
    obtain ⟨_, hminimal, _, rfl⟩ := decode_eq_ok_iff.mp h
    exact encode_signMagnitude (hminimal rfl)
  case lenient =>
    intro bytes maxSize v h
    have hfits := fits_of_decode h
    obtain ⟨hsize, _, hlength, rfl⟩ := decode_eq_ok_iff.mp h
    have hwidth := signedWidth_signMagnitude_le bytes
    rw [← length_encode] at hwidth
    refine ⟨hfits, hwidth, ?_, fun _ => signMagnitude_eq_spelled bytes⟩
    rw [decode_encode hfits, if_pos (Nat.le_trans hwidth hsize)]
  case width =>
    intro v h
    have hleast : (encode least).length = 9 := by decide
    refine ⟨fun k hk _ => length_encode_le_iff hk, ?_, ?_, ?_⟩
    · rcases length_encode_le_or_eq_least h with hlength | rfl
      · exact Nat.le_succ_of_le hlength
      · exact Nat.le_of_eq hleast
    · intro hnine
      exact (length_encode_le_or_eq_least h).resolve_left (by omega)
    · rintro rfl
      exact hleast

/-- The number 128 needs a second byte for its sign, and a third one may stand there without the
rule; the least number is over a limit of eight bytes. -/
theorem encode_canonical_padded :
    Fits 128 ∧ Fits least ∧ decode [0x80, 0x00] true 4 = .ok 128 ∧ encode 128 = [0x80, 0x00] ∧
    decode [0x80, 0x00, 0x00] false 4 = .ok 128 ∧ spelled [0x80, 0x00, 0x00] = 128 ∧
    decode (encode least) true 8 = .error (.tooLong 8 9) ∧ (encode least).length = 9 := by
  have hfits : Fits 128 := by decide
  have hleast : Fits least := by decide
  have hstrict : decode [0x80, 0x00] true 4 = .ok 128 := rfl
  have hlenient : decode [0x80, 0x00, 0x00] false 4 = .ok 128 := rfl
  obtain ⟨hdecode, hshortest, hpadded, hwidth⟩ := encode_canonical
  obtain ⟨_, _, _, hspelled⟩ := hpadded _ _ _ hlenient
  have hnine : (encode least).length = 9 := (hwidth least hleast).2.2.mpr rfl
  refine ⟨hfits, hleast, hstrict, hshortest _ _ _ hstrict, hlenient, (hspelled (by decide)).symm,
    ?_, hnine⟩
  rw [hdecode least hleast, hnine]
  rfl

end ScriptNumber

end SpendScript
