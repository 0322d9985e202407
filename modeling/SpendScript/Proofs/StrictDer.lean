import SpendScript.Proofs.NumberEncoding
import SpendScript.Proofs.Session
import SpendScript.Signature.StrictDer
/-!
# Strict DER, accepted and written

The checker goes through a signature from the front, along lengths that whoever made it has chosen.
This file says what it accepts without going along: the layout of two numbers, each in the shortest
digits that do not read as negative. So each accepted signature is of one pair of numbers, and each
pair has one signature.

What this file fixes:

* `Bytes.twosComplement`, `StrictDer.Spells` -- signed digits, and the shortest ones of a number.
* `StrictDer.spells_iff` -- these are the digits that are written.
* `StrictDer.checkNumber_eq_ok_iff` -- the rules on the first two digits accept these and no others.
* `StrictDer.layout`, `StrictDer.check_eq_ok_iff` -- the frame of the two numbers, and the checker
  against it, both ways.
* `StrictDer.Encodes`, `StrictDer.check_iff_encodes` -- signatures of pairs of numbers, and the
  checker against them.
-/

namespace SpendScript

/-! ## 1. Digits, most significant first -/

namespace Bytes

theorem toNatBE_cons (b : UInt8) (bs : Bytes) :
    toNatBE (b :: bs) = toNatBE bs + 256 ^ bs.length * b.toNat := by
  unfold toNatBE
  rw [List.reverse_cons, toNatLE_append, toNatLE_singleton, List.length_reverse]

theorem toNatBE_lt (bs : Bytes) : toNatBE bs < 256 ^ bs.length := by
  have h := toNatLE_lt bs.reverse
  rwa [List.length_reverse] at h

theorem ofNatBE_toNatBE (bs : Bytes) : ofNatBE bs.length (toNatBE bs) = bs := by
  have h := ofNatLE_toNatLE bs.reverse
  rw [List.length_reverse] at h
  rw [ofNatBE, toNatBE, h, List.reverse_reverse]

/-- The top bit is free if the number leaves room for a sign. -/
theorem toNatBE_lt_signBit_iff (b : UInt8) (bs : Bytes) :
    toNatBE (b :: bs) < 2 ^ (8 * (bs.length + 1) - 1) ↔ b &&& 0x80 = 0 := by
  have hrest := toNatBE_lt bs
  rw [toNatBE_cons, ScriptNumber.signBit_succ, and_high_eq_zero_iff]
  generalize 256 ^ bs.length = unit at hrest
  constructor
  · intro h
    refine Nat.lt_of_mul_lt_mul_left (a := unit) ?_
    omega
  · intro h
    have hdigit := Nat.mul_le_mul_left unit (show b.toNat ≤ 127 by omega)
    omega

/-- The number leaves room for a sign without the first byte if that byte is zero and the next one
does not read as a sign. -/
theorem toNatBE_lt_signBit_tail_iff (b next : UInt8) (bs : Bytes) :
    toNatBE (b :: next :: bs) < 2 ^ (8 * (bs.length + 1) - 1) ↔ b = 0 ∧ next &&& 0x80 = 0 := by
  rw [← toNatBE_lt_signBit_iff next bs]
  have hcons := toNatBE_cons b (next :: bs)
  rw [List.length_cons] at hcons
  constructor
  · intro h
    have hbound : 2 ^ (8 * (bs.length + 1) - 1) < 256 ^ (bs.length + 1) := by
      rw [ScriptNumber.signBit_succ, Nat.pow_succ]
      have hpos := Nat.pow_pos (n := bs.length) (show 0 < 256 by decide)
      omega
    have hzero : b.toNat = 0 := by
      refine Nat.eq_zero_of_not_pos fun hpos => ?_
      have hunit := Nat.le_mul_of_pos_right (256 ^ (bs.length + 1)) hpos
      omega
    rw [hzero, Nat.mul_zero, Nat.add_zero] at hcons
    exact ⟨UInt8.toNat_inj.mp hzero, by rwa [hcons] at h⟩
  · rintro ⟨rfl, h⟩
    rw [hcons, UInt8.toNat_zero, Nat.mul_zero, Nat.add_zero]
    exact h

/-- The integer that bytes spell in two's complement, most significant byte first: a first byte with
its top bit set takes off one unit of the place before it. -/
def twosComplement : Bytes → Int
  | [] => 0
  | first :: rest =>
    if first &&& 0x80 = 0 then (toNatBE (first :: rest) : Int)
    else (toNatBE (first :: rest) : Int) - (256 ^ (rest.length + 1) : Nat)

/-- What is spelled is a natural number if the top bit is free. -/
theorem twosComplement_eq_natCast_iff {bytes : Bytes} (hne : bytes ≠ []) {n : Nat} :
    twosComplement bytes = n ↔ toNatBE bytes = n ∧ n < 2 ^ (8 * bytes.length - 1) := by
  cases bytes with
  | nil => exact absurd rfl hne
  | cons first rest =>
    have hlt := toNatBE_lt (first :: rest)
    have hsign := toNatBE_lt_signBit_iff first rest
    rw [List.length_cons] at hlt ⊢
    unfold twosComplement
    dsimp only
    by_cases hfree : first &&& 0x80 = 0
    · rw [if_pos hfree]
      have hroom := hsign.mpr hfree
      constructor
      · intro h
        have hvalue : toNatBE (first :: rest) = n := Int.ofNat.inj h
        exact ⟨hvalue, hvalue ▸ hroom⟩
      · rintro ⟨rfl, _⟩
        rfl
    · rw [if_neg hfree]
      constructor
      · intro h
        omega
      · rintro ⟨rfl, hroom⟩
        exact absurd (hsign.mp hroom) hfree

end Bytes

namespace StrictDer

open Bytes

/-! ## 2. The digits of a number -/

/-- **Bytes are the digits of a number**: at least one byte, its two's complement, and no shorter
one. -/
structure Spells (bytes : Bytes) (n : Nat) : Prop where
  ne_nil : bytes ≠ []
  value : twosComplement bytes = n
  shortest : ∀ other : Bytes, other ≠ [] → twosComplement other = n → bytes.length ≤ other.length

theorem digits_ne_nil (n : Nat) : digits n ≠ [] := by
  rw [← List.length_pos_iff, length_digits]
  omega

theorem lt_signBit_digits (n : Nat) : n < 2 ^ (8 * (digits n).length - 1) := by
  rw [length_digits, ← signedWidth_le_iff (by omega)]
  omega

@[simp] theorem toNatBE_digits (n : Nat) : toNatBE (digits n) = n := by
  have hroom := lt_signBit_digits n
  have hpower : 2 ^ (8 * (digits n).length - 1) ≤ 256 ^ (digits n).length := by
    rw [show 256 = 2 ^ 8 from rfl, ← Nat.pow_mul]
    exact Nat.pow_le_pow_right (by decide) (Nat.sub_le _ _)
  rw [length_digits] at hroom hpower
  rw [digits, toNatBE_ofNatBE, Nat.mod_eq_of_lt (Nat.lt_of_lt_of_le hroom hpower)]

/-- What spells a number takes as many bytes as its digits, or more. -/
theorem length_digits_le {bytes : Bytes} {n : Nat} (hne : bytes ≠ [])
    (hvalue : twosComplement bytes = n) : (digits n).length ≤ bytes.length := by
  have hpos := List.length_pos_iff.mpr hne
  have hroom := ((twosComplement_eq_natCast_iff hne).mp hvalue).2
  rw [length_digits, Nat.max_le, signedWidth_le_iff hpos]
  exact ⟨hpos, hroom⟩

/-- **The digits that are written are the shortest ones**, and there are no others. -/
theorem spells_iff {bytes : Bytes} {n : Nat} : Spells bytes n ↔ bytes = digits n := by
  have hdigits : twosComplement (digits n) = n :=
    (twosComplement_eq_natCast_iff (digits_ne_nil n)).mpr ⟨toNatBE_digits n, lt_signBit_digits n⟩
  constructor
  · intro h
    have hvalue := ((twosComplement_eq_natCast_iff h.ne_nil).mp h.value).1
    have hshort := h.shortest (digits n) (digits_ne_nil n) hdigits
    have hlength := Nat.le_antisymm hshort (length_digits_le h.ne_nil h.value)
    calc bytes = ofNatBE bytes.length (toNatBE bytes) := (ofNatBE_toNatBE bytes).symm
      _ = ofNatBE (digits n).length (toNatBE (digits n)) := by rw [hlength, hvalue, toNatBE_digits]
      _ = digits n := ofNatBE_toNatBE (digits n)
  · rintro rfl
    exact ⟨digits_ne_nil n, hdigits, fun other hne hvalue => length_digits_le hne hvalue⟩

/-- Bytes are digits if there are as many as the number that they spell takes. -/
theorem eq_digits_iff {bytes : Bytes} :
    bytes = digits (toNatBE bytes) ↔ bytes.length = max 1 (signedWidth (toNatBE bytes)) := by
  constructor
  · intro h
    rw [← length_digits, ← h]
  · intro h
    rw [digits, ← h, ofNatBE_toNatBE]

/-- **The rules on the first two digits accept the shortest digits** and no others: a first byte is
redundant if it is zero and the next byte does not read as a sign. -/
theorem checkNumber_eq_ok_iff {bytes : Bytes} :
    checkNumber bytes = .ok () ↔ bytes = digits (toNatBE bytes) := by
  rw [eq_digits_iff]
  match bytes with
  | [] =>
    constructor
    · intro h
      cases h
    · intro h
      rw [List.length_nil] at h
      omega
  | [b] =>
    have hroom := toNatBE_lt_signBit_iff b []
    have hwidth := signedWidth_le_iff (m := toNatBE [b]) (k := 1) (by decide)
    have hlength : [b].length = max 1 (signedWidth (toNatBE [b])) ↔ b &&& 0x80 = 0 := by
      rw [← hroom, List.length_nil, Nat.zero_add, ← hwidth, List.length_singleton]
      omega
    rw [hlength]
    unfold checkNumber
    by_cases hfree : b &&& 0x80 = 0 <;> simp [hfree]
  | b :: next :: rest =>
    have hroom := toNatBE_lt_signBit_iff b (next :: rest)
    have hshorter := toNatBE_lt_signBit_tail_iff b next rest
    rw [List.length_cons, ← signedWidth_le_iff (by omega)] at hroom
    rw [← signedWidth_le_iff (by omega)] at hshorter
    have hlength : (b :: next :: rest).length = max 1 (signedWidth (toNatBE (b :: next :: rest))) ↔
        b &&& 0x80 = 0 ∧ ¬ (b = 0 ∧ next &&& 0x80 = 0) := by
      rw [← hroom, ← hshorter, List.length_cons, List.length_cons]
      omega
    rw [hlength]
    unfold checkNumber
    by_cases hzero : b = 0
    · subst hzero
      by_cases hnext : next &&& 0x80 = 0 <;> simp [hnext]
    · by_cases hfree : b &&& 0x80 = 0 <;> simp [hzero, hfree]

/-- **The rule on the first byte**, read off the digits: a zero stands in front of the number's own
digits exactly where the first of them would read as a sign, and alone for the number zero, which
has no digits of its own. -/
theorem digits_eq_padded (n : Nat) :
    digits n = if n = 0 ∨ ∃ b, (dropZeros (digits n)).head? = some b ∧ b &&& 0x80 ≠ 0
      then 0 :: dropZeros (digits n) else dropZeros (digits n) := by
  by_cases hn : n = 0
  · subst hn
    rfl
  have haccepted : checkNumber (digits n) = .ok () := by
    rw [checkNumber_eq_ok_iff, toNatBE_digits]
  have hvalue := toNatBE_digits n
  generalize digits n = ds at haccepted hvalue ⊢
  rcases ds with _ | ⟨b, _ | ⟨next, rest⟩⟩
  · cases haccepted
  · have hb : b ≠ 0 := by
      rintro rfl
      exact hn hvalue.symm
    have hfree : b &&& 0x80 = 0 := by
      refine Decidable.byContradiction fun hsign => ?_
      simp [checkNumber, hsign] at haccepted
    simp [dropZeros, hn, hb, hfree]
  · by_cases hb : b = 0
    · subst hb
      have hsign : next &&& 0x80 ≠ 0 := by
        intro hfree
        simp [checkNumber, hfree] at haccepted
      have hnext : next ≠ 0 := by
        rintro rfl
        exact hsign rfl
      simp [dropZeros, hnext, hsign]
    · have hfree : b &&& 0x80 = 0 := by
        refine Decidable.byContradiction fun hsign => ?_
        simp [checkNumber, hb, hsign] at haccepted
      simp [dropZeros, hn, hb, hfree]

/-! ## 3. The frame -/

/-- Digits with their tag and their length. -/
def tagged (digits : Bytes) : Bytes := 2 :: UInt8.ofNat digits.length :: digits

@[simp] theorem length_tagged (digits : Bytes) : (tagged digits).length = digits.length + 2 := rfl

/-- **The layout of a signature**: tag and length of the whole, and tag, length and digits of each of
the two numbers. -/
def layout (r s : Bytes) : Bytes :=
  48 :: UInt8.ofNat (r.length + s.length + 4) :: (tagged r ++ tagged s)

/-- What is written for two numbers is laid out like this. -/
theorem encode_eq_layout (r s : Nat) : encode r s = layout (digits r) (digits s) := by
  have hnumber : ∀ n, encodeNumber n = tagged (digits n) := fun _ => rfl
  have hlength : (tagged (digits r) ++ tagged (digits s)).length
      = (digits r).length + (digits s).length + 4 := by
    rw [List.length_append, length_tagged, length_tagged]
    omega
  unfold encode layout
  dsimp only
  rw [hnumber, hnumber, hlength]

/-- A length below 256 can be read off its byte. -/
theorem toNat_ofNat_of_lt {n : Nat} (h : n < 256) : (UInt8.ofNat n).toNat = n := by
  rw [UInt8.toNat_ofNat', Nat.mod_eq_of_lt h]

theorem body_eq_ok_iff {bytes content : Bytes} : body bytes = .ok content ↔
    bytes = 48 :: UInt8.ofNat content.length :: content ∧ content.length ≤ 70 := by
  constructor
  · intro h
    unfold body at h
    split at h
    · next length rest =>
      split at h
      · cases h
      split at h
      · cases h
      · next hlong hlength =>
        cases h
        have hequal : length.toNat = content.length := Decidable.not_not.mp hlength
        rw [← hequal, UInt8.ofNat_toNat]
        exact ⟨rfl, Nat.not_lt.mp hlong⟩
    · cases h
  · rintro ⟨rfl, hlength⟩
    have hbyte := toNat_ofNat_of_lt (Nat.lt_of_le_of_lt hlength (by decide))
    show (if 70 < (UInt8.ofNat content.length).toNat then _ else _) = _
    rw [hbyte, if_neg (Nat.not_lt.mpr hlength), if_neg (fun hne => hne rfl)]

theorem numberHead_eq_ok_iff {component : Component} {content rest : Bytes} {length : Nat} :
    numberHead component content = .ok (length, rest) ↔
      content = 2 :: UInt8.ofNat length :: rest ∧ length < 256 := by
  constructor
  · intro h
    unfold numberHead at h
    split at h
    · next byte _ =>
      cases h
      rw [UInt8.ofNat_toNat]
      exact ⟨rfl, byte.toNat_lt⟩
    · cases h
  · rintro ⟨rfl, hlength⟩
    show Except.ok ((UInt8.ofNat length).toNat, rest) = _
    rw [toNat_ofNat_of_lt hlength]

theorem checkDigits_eq_ok_iff {component : Component} {digits : Bytes} :
    checkDigits component digits = .ok () ↔ checkNumber digits = .ok () := mapError_eq_ok_iff

/-- **The lengths of what is accepted agree** with each other and with the whole. -/
theorem eq_layout_of_check {bytes : Bytes} (h : check bytes = .ok ()) :
    ∃ r s : Bytes, bytes = layout r s ∧ r.length + s.length + 4 ≤ 70 := by
  obtain ⟨content, hbody, hcontent⟩ := eq_ok_of_bind h
  obtain ⟨⟨rLength, afterHead⟩, hrHead, hnumbers⟩ := eq_ok_of_bind hcontent
  dsimp only at hnumbers
  split at hnumbers
  · cases hnumbers
  next hroom =>
  obtain ⟨⟨sLength, s⟩, hsHead, hdigits⟩ := eq_ok_of_bind hnumbers
  obtain ⟨_, hs⟩ := check_bind_eq_ok_iff.mp hdigits
  dsimp only at hs
  split at hs
  · cases hs
  next hequal =>
  have hsLength : sLength = s.length := Decidable.not_not.mp hequal
  obtain ⟨hbytes, hlong⟩ := body_eq_ok_iff.mp hbody
  obtain ⟨hhead, _⟩ := numberHead_eq_ok_iff.mp hrHead
  obtain ⟨hrest, _⟩ := numberHead_eq_ok_iff.mp hsHead
  have hrLength : (afterHead.take rLength).length = rLength :=
    List.length_take_of_le (Nat.not_lt.mp hroom)
  have hafter : afterHead = afterHead.take rLength ++ tagged s := by
    rw [tagged, ← hsLength, ← hrest, List.take_append_drop]
  have hsplit : content = tagged (afterHead.take rLength) ++ tagged s := by
    rw [tagged, hrLength, List.cons_append, List.cons_append, ← hafter, hhead]
  have hlength : content.length = (afterHead.take rLength).length + s.length + 4 := by
    rw [hsplit, List.length_append, length_tagged, length_tagged]
    omega
  refine ⟨afterHead.take rLength, s, ?_, ?_⟩
  · rw [hbytes, hlength, hsplit]
    rfl
  · rw [← hlength]
    exact hlong

/-- With lengths that agree only the digits remain to be checked. -/
theorem check_layout {r s : Bytes} (hlength : r.length + s.length + 4 ≤ 70) :
    check (layout r s) = (checkDigits .r r >>= fun _ => checkDigits .s s) := by
  have htotal : (tagged r ++ tagged s).length = r.length + s.length + 4 := by
    rw [List.length_append, length_tagged, length_tagged]
    omega
  have hbody : body (layout r s) = .ok (tagged r ++ tagged s) := by
    rw [body_eq_ok_iff, htotal]
    exact ⟨rfl, hlength⟩
  have hrHead : numberHead .r (tagged r ++ tagged s) = .ok (r.length, r ++ tagged s) :=
    numberHead_eq_ok_iff.mpr ⟨rfl, by omega⟩
  have hsHead : numberHead .s (tagged s) = .ok (s.length, s) :=
    numberHead_eq_ok_iff.mpr ⟨rfl, by omega⟩
  have hroom : ¬ r.length + (s.length + 2) < r.length := by omega
  simp [check, hbody, hrHead, hsHead, hroom, bind, Except.bind]

/-- **What the checker accepts** is the layout of two byte strings that pass the rules on digits. -/
theorem check_eq_ok_iff {bytes : Bytes} : check bytes = .ok () ↔
    ∃ r s : Bytes, bytes = layout r s ∧ r.length + s.length + 4 ≤ 70 ∧
      checkNumber r = .ok () ∧ checkNumber s = .ok () := by
  have hdigits : ∀ {r s : Bytes}, r.length + s.length + 4 ≤ 70 →
      (check (layout r s) = .ok () ↔ checkNumber r = .ok () ∧ checkNumber s = .ok ()) := by
    intro r s hlength
    rw [check_layout hlength, check_bind_eq_ok_iff, checkDigits_eq_ok_iff, checkDigits_eq_ok_iff]
  constructor
  · intro h
    obtain ⟨r, s, rfl, hlength⟩ := eq_layout_of_check h
    exact ⟨r, s, rfl, hlength, (hdigits hlength).mp h⟩
  · rintro ⟨r, s, rfl, hlength, hnumbers⟩
    exact (hdigits hlength).mpr hnumbers

/-- Two byte strings can be told from their layout: their lengths stand in front of them. -/
theorem layout_inj {r s r' s' : Bytes} (h : layout r s = layout r' s') (hr : r.length < 256)
    (hr' : r'.length < 256) : r = r' ∧ s = s' := by
  simp only [layout, tagged, List.cons_append, List.cons.injEq, true_and] at h
  obtain ⟨_, hbyte, hcontent⟩ := h
  have hlength : r.length = r'.length := by
    rw [← toNat_ofNat_of_lt hr, hbyte, toNat_ofNat_of_lt hr']
  obtain ⟨hdigits, hrest⟩ := List.append_inj hcontent hlength
  simp only [List.cons.injEq, true_and] at hrest
  exact ⟨hdigits, hrest.2⟩

/-! ## 4. Signatures of pairs of numbers -/

/-- **Bytes are the signature of two numbers**: the layout of the digits of both, in a content of 70
bytes at most. -/
def Encodes (bytes : Bytes) (r s : Nat) : Prop :=
  ∃ rDigits sDigits : Bytes, Spells rDigits r ∧ Spells sDigits s ∧
    rDigits.length + sDigits.length + 4 ≤ 70 ∧ bytes = layout rDigits sDigits

/-- The signature of two numbers is what is written for them, if there is room. -/
theorem encodes_iff {bytes : Bytes} {r s : Nat} : Encodes bytes r s ↔
    bytes = encode r s ∧ (digits r).length + (digits s).length + 4 ≤ 70 := by
  unfold Encodes
  simp only [spells_iff]
  constructor
  · rintro ⟨_, _, rfl, rfl, hlength, rfl⟩
    exact ⟨(encode_eq_layout r s).symm, hlength⟩
  · rintro ⟨rfl, hlength⟩
    exact ⟨_, _, rfl, rfl, hlength, encode_eq_layout r s⟩

/-- A signature says of which numbers it is. -/
theorem eq_of_encodes {bytes : Bytes} {r s r' s' : Nat} (h : Encodes bytes r s)
    (h' : Encodes bytes r' s') : r = r' ∧ s = s' := by
  obtain ⟨hbytes, hlength⟩ := encodes_iff.mp h
  obtain ⟨hbytes', hlength'⟩ := encodes_iff.mp h'
  rw [hbytes, encode_eq_layout, encode_eq_layout] at hbytes'
  obtain ⟨hr, hs⟩ := layout_inj hbytes' (by omega) (by omega)
  have hnumber : ∀ {m n : Nat}, digits m = digits n → m = n := by
    intro m n hdigits
    rw [← toNatBE_digits m, hdigits, toNatBE_digits]
  exact ⟨hnumber hr, hnumber hs⟩

/-- What the checker accepts is the signature of some pair. -/
theorem check_eq_ok_iff_encodes {bytes : Bytes} :
    check bytes = .ok () ↔ ∃ r s, Encodes bytes r s := by
  rw [check_eq_ok_iff]
  constructor
  · rintro ⟨r, s, hbytes, hlength, hr, hs⟩
    have hrSpells := spells_iff.mpr (checkNumber_eq_ok_iff.mp hr)
    have hsSpells := spells_iff.mpr (checkNumber_eq_ok_iff.mp hs)
    exact ⟨toNatBE r, toNatBE s, r, s, hrSpells, hsSpells, hlength, hbytes⟩
  · rintro ⟨r, s, rDigits, sDigits, hr, hs, hlength, hbytes⟩
    refine ⟨rDigits, sDigits, hbytes, hlength, ?_, ?_⟩
    · rw [checkNumber_eq_ok_iff, spells_iff.mp hr, toNatBE_digits]
    · rw [checkNumber_eq_ok_iff, spells_iff.mp hs, toNatBE_digits]

/-- **The checker accepts exactly the signatures of pairs of numbers**: the layout of the shortest
signed digits of both, in a content of 70 bytes at most. The pair is the only one, and no other
accepted byte string is of the same pair. The digits are one byte at least and start with a zero
exactly where the number's own first digit would read as a sign, or the number is zero. -/
theorem check_iff_encodes :
    (∀ bytes, check bytes = .ok () ↔ ∃ r s, Encodes bytes r s) ∧
    (∀ bytes r s r' s', Encodes bytes r s → Encodes bytes r' s' → r = r' ∧ s = s') ∧
    (∀ bytes other r s, Encodes bytes r s → Encodes other r s → bytes = other) ∧
    (∀ digits n, Spells digits n → 1 ≤ digits.length ∧
      digits = if n = 0 ∨ ∃ b, (dropZeros digits).head? = some b ∧ b &&& 0x80 ≠ 0
        then 0 :: dropZeros digits else dropZeros digits) := by
  refine ⟨?accepted, ?pair, ?bytes, ?padding⟩
  case accepted =>
    intro bytes
    exact check_eq_ok_iff_encodes
  case pair =>
    intro bytes r s r' s' h h'
    exact eq_of_encodes h h'
  case bytes =>
    intro bytes other r s h h'
    rw [(encodes_iff.mp h).1, (encodes_iff.mp h').1]
  case padding =>
    intro ds n h
    refine ⟨List.length_pos_iff.mpr h.ne_nil, ?_⟩
    rw [spells_iff.mp h]
    exact digits_eq_padded n

/-- A number whose own digit would read as a sign. -/
theorem check_iff_encodes_padded :
    Encodes [48, 7, 2, 2, 0x00, 0x80, 2, 1, 0x01] 128 1 ∧
    check [48, 7, 2, 2, 0x00, 0x80, 2, 1, 0x01] = .ok () ∧
    encode 128 1 = [48, 7, 2, 2, 0x00, 0x80, 2, 1, 0x01] ∧
    Spells [0x00, 0x80] 128 ∧ ([0x00, 0x80] : Bytes) = 0 :: dropZeros [0x00, 0x80] := by
  obtain ⟨haccepted, hpair, hbytes, hpadding⟩ := check_iff_encodes
  have hwritten : Encodes (encode 128 1) 128 1 := encodes_iff.mpr (by decide)
  have hencodes : Encodes [48, 7, 2, 2, 0x00, 0x80, 2, 1, 0x01] 128 1 := encodes_iff.mpr (by decide)
  have hspells : Spells [0x00, 0x80] 128 := spells_iff.mpr (by decide)
  obtain ⟨_, hdigits⟩ := hpadding _ _ hspells
  rw [if_pos (.inr ⟨0x80, rfl, by decide⟩)] at hdigits
  exact ⟨hencodes, (haccepted _).mpr ⟨128, 1, hencodes⟩, hbytes _ _ 128 1 hwritten hencodes,
    hspells, hdigits⟩

/-- A zero in front of a digit that reads as no sign is refused. -/
example : check [48, 7, 2, 2, 0x00, 0x7f, 2, 1, 0x01]
    = .error (.badNumber .r (some [0x00, 0x7f]) .leadingZero) := rfl

end StrictDer

end SpendScript
