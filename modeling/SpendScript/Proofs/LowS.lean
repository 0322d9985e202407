import SpendScript.Proofs.StrictDer
import SpendScript.Proofs.Vetting
/-!
# Signatures that nobody else can rewrite

A signature can be turned into another one that verifies alike: by spelling its numbers in another
way, or by taking `order - s` for `s`. The rules on encodings are there to leave only one. They are
checked on strict DER, while verification reads leniently and takes the low `s` itself. This file
says that on what the rules let pass the two readings are one, so that the signature that is
verified says which bytes it came from. Only the pair of zeros does not: it stands for all numbers
out of range, and verifies nothing. Of the reader no more is asked than that it reads strict DER as
what it encodes; what it makes of anything else does not matter here.

What this file fixes:

* `LaxDer.pair_eq_ofPair` -- numbers longer than 32 bytes are out of range like any others.
* `Ecdsa.Reader.ReadsStrict` -- the lenient reading of strict DER is the pair that it encodes.
* `LaxDer.readsStrict` -- the reader of the chain does so.
* `Ecdsa.Signature.eq_of_compact` -- the compact form says which signature it is.
* `Encoding.exists_of_checkSignature` -- what the rule on the low `s` lets pass, as a whole.
* `Encoding.lowS_unique` -- no two byte strings that pass are read as one signature.
-/

namespace SpendScript

open Curve

/-! ## 1. The lenient reading of strict DER -/

namespace Bytes

theorem dropZeros_cons (b : UInt8) (bs : Bytes) :
    dropZeros (b :: bs) = if b = 0 then dropZeros bs else b :: bs := by
  unfold dropZeros
  by_cases hb : b = 0 <;> simp [hb]

/-- Leading zeros do not count. -/
@[simp] theorem toNatBE_dropZeros (bs : Bytes) : toNatBE (dropZeros bs) = toNatBE bs := by
  induction bs with
  | nil => rfl
  | cons b bs ih =>
    rw [dropZeros_cons]
    split
    · next hb => rw [ih, toNatBE_cons, hb, UInt8.toNat_zero, Nat.mul_zero, Nat.add_zero]
    · rfl

/-- A number that has more digits than some place is as large as a unit of the place after it. -/
theorem pow_le_toNatBE {bs : Bytes} {k : Nat} (h : k < (dropZeros bs).length) :
    256 ^ k ≤ toNatBE bs := by
  induction bs with
  | nil => exact absurd h (Nat.not_lt_zero k)
  | cons b bs ih =>
    rw [dropZeros_cons] at h
    rw [toNatBE_cons]
    split at h
    · exact Nat.le_trans (ih h) (Nat.le_add_right _ _)
    · next hb =>
      have hpos : 0 < b.toNat := by
        refine Nat.pos_of_ne_zero fun hzero => hb ?_
        exact UInt8.toNat_inj.mp hzero
      rw [List.length_cons] at h
      calc 256 ^ k ≤ 256 ^ bs.length := Nat.pow_le_pow_right (by decide) (by omega)
        _ ≤ 256 ^ bs.length * b.toNat := Nat.le_mul_of_pos_right _ hpos
        _ ≤ toNatBE bs + 256 ^ bs.length * b.toNat := Nat.le_add_left _ _

end Bytes

theorem Ecdsa.Signature.ofPair_of_not_lt {r s : Nat} (h : ¬ (r < order ∧ s < order)) :
    ofPair r s = zero := dif_neg h

/-- **What is asked of a reader**: that strict DER is read as the pair that it encodes, or as the
pair of zeros if one of the two is out of range. -/
def Ecdsa.Reader.ReadsStrict (reader : Ecdsa.Reader) : Prop :=
  ∀ der r s, StrictDer.Encodes der r s → reader der = some (.ofPair r s)

namespace LaxDer

open Bytes

/-- **A number of more than 32 digits is out of range** like any other that is not below the order,
so that the test on the length decides nothing of its own. -/
theorem pair_eq_ofPair (r s : Bytes) : pair r s = .ofPair (toNatBE r) (toNatBE s) := by
  have hlong : ∀ {bs : Bytes}, 32 < (dropZeros bs).length → ¬ toNatBE bs < order := by
    intro bs h
    have hunit := pow_le_toNatBE h
    have horder : order < 256 ^ 32 := by decide
    omega
  unfold pair
  dsimp only
  split
  · next h =>
    refine (Ecdsa.Signature.ofPair_of_not_lt ?_).symm
    rintro ⟨hr, hs⟩
    rcases h with h | h
    · exact hlong h hr
    · exact hlong h hs
  · rw [toNatBE_dropZeros, toNatBE_dropZeros]

/-- A length of the whole that takes one byte is skipped. -/
theorem body?_cons {length : UInt8} (hshort : length < 128) (content : Bytes) :
    body? (48 :: length :: content) = some content := by
  simp [body?, hshort]

/-- A number whose length takes one byte is read back, whatever follows it. -/
theorem number?_tagged {digits : Bytes} (hlength : digits.length < 128) (rest : Bytes) :
    number? (StrictDer.tagged digits ++ rest) = some (digits, rest) := by
  have hbyte : (UInt8.ofNat digits.length).toNat = digits.length :=
    StrictDer.toNat_ofNat_of_lt (Nat.lt_trans hlength (by decide))
  have hshort : UInt8.ofNat digits.length < 128 := by
    rw [UInt8.lt_iff_toNat_lt, hbyte]
    exact hlength
  unfold number? length? StrictDer.tagged
  simp [hshort, hbyte]

/-- **The reader of the chain** reads strict DER as the pair that it encodes. -/
theorem readsStrict : Ecdsa.Reader.ReadsStrict signature? := by
  intro der r s h
  obtain ⟨rfl, hlength⟩ := StrictDer.encodes_iff.mp h
  have hshort : UInt8.ofNat ((StrictDer.digits r).length + (StrictDer.digits s).length + 4)
      < 128 := by
    rw [UInt8.lt_iff_toNat_lt, StrictDer.toNat_ofNat_of_lt (by omega)]
    exact Nat.lt_of_le_of_lt hlength (by decide)
  have hbody : body? (StrictDer.encode r s)
      = some (StrictDer.tagged (StrictDer.digits r) ++ StrictDer.tagged (StrictDer.digits s)) := by
    rw [StrictDer.encode_eq_layout]
    exact body?_cons hshort _
  have hrRead := number?_tagged (show (StrictDer.digits r).length < 128 by omega)
    (StrictDer.tagged (StrictDer.digits s))
  have hsRead := number?_tagged (show (StrictDer.digits s).length < 128 by omega) []
  have hpair : pair (StrictDer.digits r) (StrictDer.digits s) = .ofPair r s := by
    rw [pair_eq_ofPair, StrictDer.toNatBE_digits, StrictDer.toNatBE_digits]
  rw [List.append_nil] at hsRead
  simp [signature?, hbody, hrRead, hsRead, hpair]

end LaxDer

/-! ## 2. Signatures as pairs -/

namespace Ecdsa.Signature

theorem ext_iff {a b : Signature} : a = b ↔ a.r = b.r ∧ a.s = b.s := by
  constructor
  · rintro rfl
    exact ⟨rfl, rfl⟩
  · obtain ⟨r, s, _, _⟩ := a
    obtain ⟨r', s', _, _⟩ := b
    rintro ⟨rfl, rfl⟩
    rfl

/-- **The compact form says which signature it is**: both numbers fit their 32 bytes. -/
theorem eq_of_compact {a b : Signature} (h : a.compact = b.compact) : a = b := by
  have hnumber : ∀ {m n : Nat}, m < order → n < order →
      Bytes.ofNatBE 32 m = Bytes.ofNatBE 32 n → m = n := by
    intro m n hm hn hdigits
    have horder : order < 256 ^ 32 := by decide
    have hvalue := congrArg Bytes.toNatBE hdigits
    rwa [Bytes.toNatBE_ofNatBE, Bytes.toNatBE_ofNatBE, Nat.mod_eq_of_lt (Nat.lt_trans hm horder),
      Nat.mod_eq_of_lt (Nat.lt_trans hn horder)] at hvalue
  obtain ⟨hr, hs⟩ := List.append_inj h (by simp)
  exact ext_iff.mpr ⟨hnumber a.r_lt b.r_lt hr, hnumber a.s_lt b.s_lt hs⟩

theorem compact_zero : zero.compact = List.replicate 64 0 := by decide

/-- Normalizing takes `order - s` for an `s` that is more than half the order. -/
theorem normalized_eq (sig : Signature) : sig.normalized.r = sig.r ∧
    sig.normalized.s = if order < 2 * sig.s then order - sig.s else sig.s := by
  have hhalf : sig.s ≤ halfOrder ↔ ¬ order < 2 * sig.s := by
    simp only [halfOrder, order]
    omega
  unfold normalized
  by_cases hlow : sig.s ≤ halfOrder
  · rw [dif_pos hlow, if_neg (hhalf.mp hlow)]
    exact ⟨rfl, rfl⟩
  · rw [dif_neg hlow, if_pos (Decidable.not_not.mp (mt hhalf.mpr hlow))]
    exact ⟨rfl, rfl⟩

/-- Pairs that are in range are told apart. -/
theorem eq_of_ofPair {r s r' s' : Nat} (h : ofPair r s = ofPair r' s')
    (hne : ofPair r s ≠ zero) : r = r' ∧ s = s' := by
  have hrange : ∀ {r s : Nat}, ofPair r s ≠ zero →
      (ofPair r s).r = r ∧ (ofPair r s).s = s := by
    intro r s hne
    have hlt : r < order ∧ s < order :=
      Decidable.byContradiction fun hnot => hne (ofPair_of_not_lt hnot)
    rw [ofPair, dif_pos hlt]
    exact ⟨rfl, rfl⟩
  obtain ⟨hr, hs⟩ := hrange hne
  rw [h] at hne
  obtain ⟨hr', hs'⟩ := hrange hne
  obtain ⟨hrSame, hsSame⟩ := ext_iff.mp h
  exact ⟨by rw [← hr, hrSame, hr'], by rw [← hs, hsSame, hs']⟩

end Ecdsa.Signature

/-! ## 3. What passes -/

namespace Encoding

variable {reader : Ecdsa.Reader}

/-- **What the rule on the low `s` lets pass**: the signature of a pair of numbers whose reading is
low, with its hash type. -/
theorem exists_of_checkSignature (hreader : reader.ReadsStrict) {rules : Rules} {sig : Bytes}
    (hrule : rules.lowS) (hne : sig ≠ []) (h : checkSignature reader rules sig = .ok ()) :
    ∃ r s hashType,
      sig = StrictDer.encode r s ++ [hashType] ∧
      reader sig.dropLast = some (.ofPair r s) ∧
      (Ecdsa.Signature.ofPair r s).normalized = .ofPair r s ∧
      DecodedSignature.ofBytes? reader sig = some ⟨.ofPair r s, hashType⟩ := by
  have hlast := List.getLast?_eq_some_getLast hne
  obtain ⟨hder, hlow, _⟩ := checkSignature_eq_ok_iff.mp h _ hlast
  obtain ⟨r, s, hencodes⟩ := StrictDer.check_eq_ok_iff_encodes.mp (hder (.inr (.inl hrule)))
  have hread := hreader _ r s hencodes
  obtain ⟨read, hsame, hnormalized⟩ := hasLowS_iff.mp (hlow hrule)
  rw [hread] at hsame
  cases hsame
  refine ⟨r, s, sig.getLast hne, ?_, hread, hnormalized, ?_⟩
  · rw [← (StrictDer.encodes_iff.mp hencodes).1, List.dropLast_concat_getLast]
  · simp [DecodedSignature.ofBytes?, hlast, hread, hnormalized]

/-- **No two signatures that pass are read as one**, whatever the reader, as long as it reads strict
DER as the pair that it encodes, or as the pair of zeros where that is out of range. The reader of
the chain does so, and any other one agrees with it on all that the strict check accepts;
normalizing changes an `s` that is more than half the order and nothing else. A signature that is
not empty and passes the rule on the low `s`, whatever the other rules, is read, and normalizing
changes nothing about it. Two of them that are read as the same numbers, not both zero, with the
same hash type are the same bytes. -/
theorem lowS_unique :
    Ecdsa.Reader.ReadsStrict LaxDer.signature? ∧
    (∀ sig : Ecdsa.Signature, sig.normalized.r = sig.r ∧
      sig.normalized.s = if order < 2 * sig.s then order - sig.s else sig.s) ∧
    ∀ reader : Ecdsa.Reader, reader.ReadsStrict →
      (∀ der, StrictDer.check der = .ok () → reader der = LaxDer.signature? der) ∧
      (∀ rules sig, rules.lowS → sig ≠ [] → checkSignature reader rules sig = .ok () →
        ∃ read hashType, reader sig.dropLast = some read ∧ read.normalized = read ∧
          DecodedSignature.ofBytes? reader sig = some ⟨read, hashType⟩) ∧
      (∀ rules rules' a b read read', rules.lowS → rules'.lowS → a ≠ [] → b ≠ [] →
        checkSignature reader rules a = .ok () → checkSignature reader rules' b = .ok () →
        DecodedSignature.ofBytes? reader a = some read →
        DecodedSignature.ofBytes? reader b = some read' →
        read.signature.compact = read'.signature.compact → read.hashType = read'.hashType →
        read.signature.compact ≠ List.replicate 64 0 → a = b) := by
  refine ⟨LaxDer.readsStrict, Ecdsa.Signature.normalized_eq,
    fun reader hreader => ⟨?agrees, ?passed, ?unique⟩⟩
  case agrees =>
    intro der h
    obtain ⟨r, s, hencodes⟩ := StrictDer.check_eq_ok_iff_encodes.mp h
    rw [hreader der r s hencodes, LaxDer.readsStrict der r s hencodes]
  case passed =>
    intro rules sig hrule hne h
    obtain ⟨r, s, hashType, _, hread, hnormalized, hdecoded⟩ :=
      exists_of_checkSignature hreader hrule hne h
    exact ⟨.ofPair r s, hashType, hread, hnormalized, hdecoded⟩
  case unique =>
    intro rules rules' a b read read' hrule hrule' ha hb hpass hpass' hread hread' hcompact
      htype hnonzero
    obtain ⟨r, s, hashType, rfl, _, _, hdecoded⟩ := exists_of_checkSignature hreader hrule ha hpass
    obtain ⟨r', s', hashType', rfl, _, _, hdecoded'⟩ :=
      exists_of_checkSignature hreader hrule' hb hpass'
    rw [hdecoded] at hread
    rw [hdecoded'] at hread'
    cases hread
    cases hread'
    have hne : Ecdsa.Signature.ofPair r s ≠ .zero := by
      intro hzero
      rw [hzero] at hnonzero
      exact hnonzero Ecdsa.Signature.compact_zero
    obtain ⟨hr, hs⟩ := Ecdsa.Signature.eq_of_ofPair (Ecdsa.Signature.eq_of_compact hcompact) hne
    rw [hr, hs, show hashType = hashType' from htype]

namespace LowS

/-- The rule on the low `s` and the strict rule. -/
def strictLow : Rules := ⟨false, true, true⟩

/-- The rule on the low `s` alone. -/
def low : Rules := ⟨false, true, false⟩

/-- A signature whose first number takes a zero in front. -/
def signature : Bytes := [48, 7, 2, 2, 0x00, 0x80, 2, 1, 0x01, 0x01]

/-- The signature as it is read. -/
def decoded : DecodedSignature := ⟨.ofPair 128 1, 0x01⟩

end LowS

open LowS in
/-- A signature that passes under two sets of rules, once as bytes and once as it is written. -/
theorem lowS_unique_written :
    Ecdsa.Reader.ReadsStrict LaxDer.signature? ∧ strictLow.lowS ∧ low.lowS ∧ signature ≠ [] ∧
    checkSignature LaxDer.signature? strictLow signature = .ok () ∧
    StrictDer.encode 128 1 ++ [0x01] ≠ [] ∧
    checkSignature LaxDer.signature? low (StrictDer.encode 128 1 ++ [0x01]) = .ok () ∧
    DecodedSignature.ofBytes? LaxDer.signature? signature = some decoded ∧
    decoded.signature.compact ≠ List.replicate 64 0 ∧
    signature = StrictDer.encode 128 1 ++ [0x01] := by
  have hsignature : checkSignature LaxDer.signature? strictLow signature = .ok () :=
    eq_ok_of_toOption (by decide +kernel)
  have hwritten :
      checkSignature LaxDer.signature? low (StrictDer.encode 128 1 ++ [0x01]) = .ok () :=
    eq_ok_of_toOption (by decide +kernel)
  have hread : DecodedSignature.ofBytes? LaxDer.signature? signature = some decoded := by rfl
  have hnonzero : decoded.signature.compact ≠ List.replicate 64 0 := by decide +kernel
  obtain ⟨hstrict, _, hreaders⟩ := lowS_unique
  obtain ⟨_, _, hunique⟩ := hreaders LaxDer.signature? hstrict
  refine ⟨hstrict, rfl, rfl, by decide, hsignature, by decide, hwritten, hread, hnonzero, ?_⟩
  exact hunique strictLow low signature _ decoded decoded rfl rfl (by decide) (by decide) hsignature
    hwritten hread hread rfl rfl hnonzero

end Encoding

end SpendScript
