import SpendScript.Proofs.Effect
import SpendScript.Proofs.Questions
import SpendScript.Proofs.Trace
/-!
# What the checker never sees

The rules on encodings are there so that no signature and no key of a doubtful form has any effect.
They are checked by the opcodes, inside the loop over signatures and keys as well. This file says
that over whole verifications, redeemed scripts included, nothing gets around them: whatever the
checker is asked about has passed.

What this file fixes:

* `Vetted` -- what the rules in force ask of a signature and a key.
* `Execute.vet_eq_ok_iff` -- the check before each question lets through what they ask for, and
  nothing else.
* `BuiltIn.mem_asked_eval`, `BuiltIn.mem_asked_verify` -- a question of a script was asked by one of
  its chunks, and a question of a verification by one of its scripts.
* `Interpreter.vetted_of_asked` -- every question about a signature is about a vetted one.
-/

namespace SpendScript

variable {μ : Type}

/-- **What the rules in force ask of a signature and a key.** The empty signature passes every rule.
Each of three rules asks for strict DER; the low `s` is asked of the lenient reading; the hash type
and the key are asked about by one rule alone. -/
structure Vetted (reader : Ecdsa.Reader) (flags : Flags) (sig key : Bytes) : Prop where
  der : flags.derSig ∨ flags.lowS ∨ flags.strictEnc →
    sig = [] ∨ StrictDer.check sig.dropLast = .ok ()
  lowS : flags.lowS →
    sig = [] ∨ ∃ read, reader sig.dropLast = some read ∧ read.normalized = read
  hashType : flags.strictEnc → sig = [] ∨ ∃ last, sig.getLast? = some last ∧
    (last &&& 0x7f = 1 ∨ last &&& 0x7f = 2 ∨ last &&& 0x7f = 3)
  key : flags.strictEnc → key.length = 65 ∧ key.head? = some 0x04 ∨
    key.length = 33 ∧ (key.head? = some 0x02 ∨ key.head? = some 0x03)

/-! ## 1. The rules, one by one -/

/-- The low `s` is the one that normalizing keeps. -/
theorem Encoding.hasLowS_iff {reader : Ecdsa.Reader} {der : Bytes} :
    hasLowS reader der ↔ ∃ read, reader der = some read ∧ read.normalized = read := by
  unfold hasLowS
  cases reader der with
  | none => exact ⟨nofun, fun ⟨_, h, _⟩ => nomatch h⟩
  | some read =>
    constructor
    · intro hlow
      exact ⟨read, rfl, Ecdsa.Signature.normalized_of_isLowS hlow⟩
    · rintro ⟨_, heq, hkept⟩
      cases heq
      show read.isLowS = true
      rw [← hkept]
      exact read.isLowS_normalized

theorem HashType.isDefined_iff {byte : UInt8} :
    IsDefined byte ↔ byte &&& 0x7f = 1 ∨ byte &&& 0x7f = 2 ∨ byte &&& 0x7f = 3 := by
  unfold IsDefined
  generalize byte &&& 0x7f = low
  simp only [UInt8.le_iff_toNat_le, ← UInt8.toNat_inj]
  have hone : (1 : UInt8).toNat = 1 := rfl
  have htwo : (2 : UInt8).toNat = 2 := rfl
  have hthree : (3 : UInt8).toNat = 3 := rfl
  omega

/-- The strict rule reads the bytes that are defined. -/
theorem HashType.exists_ofByte_strict_iff {byte : UInt8} :
    (∃ read, ofByte byte true = .ok read) ↔ IsDefined byte := by
  unfold ofByte
  by_cases hdefined : IsDefined byte
  · rw [decide_eq_true hdefined]
    exact ⟨fun _ => hdefined, fun _ => ⟨_, rfl⟩⟩
  · rw [decide_eq_false hdefined]
    exact ⟨nofun, fun h => absurd h hdefined⟩

theorem Curve.PublicKey.isCompressedOrUncompressed_iff {key : Bytes} :
    isCompressedOrUncompressed key ↔ key.length = 65 ∧ key.head? = some 0x04 ∨
      key.length = 33 ∧ (key.head? = some 0x02 ∨ key.head? = some 0x03) := by
  unfold isCompressedOrUncompressed
  cases key with
  | nil => simp
  | cons form body =>
    rw [List.head?_cons, Option.some_inj, Option.some_inj, Option.some_inj]
    dsimp only
    by_cases hfour : form = 4
    · subst hfour
      simp
    · by_cases htwo : form = 2 ∨ form = 3
      · simp [hfour, htwo]
      · simp [hfour, htwo]

/-- A signature passes if each rule that is in force lets it pass. -/
theorem Encoding.checkSignature_eq_ok_iff {reader : Ecdsa.Reader} {rules : Rules} {sig : Bytes} :
    checkSignature reader rules sig = .ok () ↔ ∀ last, sig.getLast? = some last →
      (rules.der ∨ rules.lowS ∨ rules.strict → StrictDer.check sig.dropLast = .ok ()) ∧
      (rules.lowS → hasLowS reader sig.dropLast) ∧ (rules.strict → HashType.IsDefined last) := by
  cases hlast : sig.getLast? with
  | none =>
    unfold checkSignature
    rw [hlast]
    exact ⟨fun _ => nofun, fun _ => rfl⟩
  | some last =>
    have hlow : (if rules.lowS && !hasLowS reader sig.dropLast then .error .highS else .ok ()
        : Except Violation Unit) = .ok () ↔ (rules.lowS → hasLowS reader sig.dropLast) := by
      cases rules.lowS <;> cases hasLowS reader sig.dropLast <;> simp
    rw [checkSignature_eq_bind hlast, check_bind_eq_ok_iff, check_bind_eq_ok_iff, hlow,
      check_ite_eq_ok_iff, check_ite_eq_ok_iff, mapError_eq_ok_iff, discard_eq_ok_iff]
    simp only [mapError_eq_ok_iff, HashType.exists_ofByte_strict_iff, Bool.or_eq_true, or_assoc,
      Option.some_inj, forall_eq']

theorem Encoding.checkPublicKey_eq_ok_iff {strict : Bool} {key : Bytes} :
    checkPublicKey strict key = .ok () ↔
      (strict → Curve.PublicKey.isCompressedOrUncompressed key) := by
  unfold checkPublicKey
  cases strict <;> cases Curve.PublicKey.isCompressedOrUncompressed key <;> simp

/-- Three rules ask for strict DER: the low `s` and the strict rule do so as well. -/
theorem Execute.asks_der_iff {flags : Flags} :
    ((encodingRules flags).der ∨ (encodingRules flags).lowS ∨ (encodingRules flags).strict) ↔
      (flags.derSig ∨ flags.lowS ∨ flags.strictEnc) := by
  unfold encodingRules
  cases flags.derSig <;> cases flags.lowS <;> cases flags.strictEnc <;> decide

/-- **The check before each question asks for what the rules ask for**, no more and no less. -/
theorem Execute.vet_eq_ok_iff {reader : Ecdsa.Reader} {flags : Flags} {sig key : Bytes} :
    vet reader flags sig key = .ok () ↔ Vetted reader flags sig key := by
  have hvet : vet reader flags sig key = .ok () ↔
      Encoding.checkSignature reader (encodingRules flags) sig = .ok () ∧
        Encoding.checkPublicKey flags.strictEnc key = .ok () := by
    unfold vet
    rw [check_bind_eq_ok_iff, mapError_eq_ok_iff, mapError_eq_ok_iff]
  rw [hvet, Encoding.checkSignature_eq_ok_iff, Encoding.checkPublicKey_eq_ok_iff, asks_der_iff,
    Curve.PublicKey.isCompressedOrUncompressed_iff]
  by_cases hempty : sig = []
  · -- nothing is asked of the empty signature
    subst hempty
    constructor
    · intro h
      exact ⟨fun _ => .inl rfl, fun _ => .inl rfl, fun _ => .inl rfl, h.2⟩
    · intro h
      exact ⟨fun _ => nofun, h.key⟩
  · have hlast := List.getLast?_eq_some_getLast hempty
    constructor
    · rintro ⟨hsig, hkey⟩
      obtain ⟨hder, hlow, htype⟩ := hsig _ hlast
      refine ⟨fun hrule => .inr (hder hrule), fun hrule => .inr ?_, fun hrule => .inr ?_, hkey⟩
      · exact Encoding.hasLowS_iff.mp (hlow hrule)
      · exact ⟨_, hlast, HashType.isDefined_iff.mp (htype hrule)⟩
    · intro h
      refine ⟨fun last hsome => ⟨fun hrule => ?_, fun hrule => ?_, fun hrule => ?_⟩, h.key⟩
      · exact (h.der hrule).resolve_left hempty
      · exact Encoding.hasLowS_iff.mpr ((h.lowS hrule).resolve_left hempty)
      · obtain ⟨last', hsome', htype⟩ := (h.hashType hrule).resolve_left hempty
        cases hsome.symm.trans hsome'
        exact HashType.isDefined_iff.mpr htype

/-! ## 2. Whole runs -/

namespace BuiltIn

variable {i : Interpreter μ} {flags : Flags} {q : Query}

/-- **A question of a script** was asked by one of its chunks. -/
theorem mem_asked_eval {stack : Stack Bytes} {script : Program}
    (h : q ∈ (eval i stack script flags).asked) :
    ∃ position chunk s,
      q ∈ (Execute.chunk (i.context script flags) position s chunk).asked := by
  obtain ⟨_, _, h⟩ := Run.mem_asked_ofExcept_bind h
  rcases Run.mem_asked_bind h with h | ⟨_, _, h⟩
  · obtain ⟨n, chunk, s, _, _, hasked⟩ := exists_of_mem_asked_steps h
    exact ⟨0 + n, chunk, s.counted chunk, mem_asked_step hasked⟩
  · cases h

/-- **A question of a verification** was asked by one of its scripts, under the same rules: the
signature script, the output script, or the script that was redeemed. -/
theorem mem_asked_verify {sig output : Program} (h : q ∈ (verify i sig output flags).asked) :
    ∃ stack script, q ∈ (eval i stack script flags).asked := by
  obtain ⟨_, _, h⟩ := Run.mem_asked_ofExcept_bind h
  rcases Run.mem_asked_bind h with h | ⟨_, _, h⟩
  · rcases Run.mem_asked_bind h with h | ⟨pushed, _, h⟩
    · exact ⟨[], sig, h⟩
    rcases Run.mem_asked_bind h with h | ⟨left, _, h⟩
    · exact ⟨pushed, output, h⟩
    obtain ⟨_, _, h⟩ := Run.mem_asked_ofExcept_bind h
    split at h
    · obtain ⟨⟨script, below⟩, _, h⟩ := Run.mem_asked_ofExcept_bind h
      rcases Run.mem_asked_bind h with h | ⟨_, _, h⟩
      · exact ⟨below, script, h⟩
      · obtain ⟨_, _, h⟩ := Run.mem_asked_ofExcept_bind h
        cases h
    · cases h
  · cases h

/-- A question about a signature that a script asks is about a vetted one. -/
theorem vetted_of_mem_asked_eval {stack : Stack Bytes} {script : Program}
    {sig key code : Bytes} {answer : Bool}
    (h : .signature sig key code answer ∈ (eval i stack script flags).asked) :
    Vetted i.reader flags sig key := by
  obtain ⟨position, chunk, s, hasked⟩ := mem_asked_eval h
  obtain ⟨sig', key', _, hvet, hq⟩ := Execute.mem_asked_chunk hasked rfl
  cases hq
  exact Execute.vet_eq_ok_iff.mp hvet

end BuiltIn

/-! ## 3. The interpreter -/

/-- **No signature and no key gets around the rules.** Without extensions, whatever the scripts, the
stack, the limits, the rules, the checker and the reader: every question about a signature that is
asked on the way, in an evaluation or in a verification, whether it succeeds in the end or not, is
about a signature and a key that are vetted under the rules in force. -/
theorem Interpreter.vetted_of_asked (i : Interpreter (List Query)) (hi : i.Recording) :
    (∀ stack script flags sig key code answer,
      .signature sig key code answer ∈ (i.eval stack script flags).memory [] →
        Vetted i.reader flags sig key) ∧
    (∀ sigScript output sig key code answer,
      .signature sig key code answer ∈ (i.verify sigScript output).memory [] →
        Vetted i.reader i.flags sig key) := by
  constructor
  · intro stack script flags sig key code answer h
    rw [hi.memory_eval] at h
    exact BuiltIn.vetted_of_mem_asked_eval h
  · intro sigScript output sig key code answer h
    rw [hi.memory_verify] at h
    obtain ⟨stack, script, h⟩ := BuiltIn.mem_asked_verify h
    exact BuiltIn.vetted_of_mem_asked_eval h

namespace Vetting

/-- An interpreter that writes its questions down, under all rules on encodings. No signature fits,
so that a check of one signature against two keys asks about both. -/
def interpreter : Interpreter (List Query) :=
  { Interpreter.recorder with baseFlags := { derSig := true, lowS := true, strictEnc := true } }

/-- Two ones in strict DER, and the byte for all outputs. -/
def signature : Bytes := [0x30, 0x06, 0x02, 0x01, 0x01, 0x02, 0x01, 0x01, 0x01]

/-- A key in compressed form. -/
def key (form : UInt8) : Bytes := form :: List.replicate 32 0

/-- The signature, after the element that a check of several signatures takes too many. -/
def sigScript : Program := [.push (.small (.num 0)), .push (.data ⟨.direct, signature⟩)]

/-- One signature that fits one of two keys. -/
def oneOfTwo : Program :=
  [.push (.small (.num 1)), .push (.data ⟨.direct, key 2⟩), .push (.data ⟨.direct, key 3⟩),
   .push (.small (.num 2)), .operation .checkMultisig]

end Vetting

open Vetting in
/-- The second pair has passed the rules as the first has. -/
theorem Interpreter.vetted_of_asked_oneOfTwo :
    interpreter.Recording ∧
    (interpreter.verify sigScript oneOfTwo).memory []
      = [.signature signature (key 3) oneOfTwo.encode false,
         .signature signature (key 2) oneOfTwo.encode false] ∧
    Vetted LaxDer.signature? interpreter.flags signature (key 3) ∧
    Vetted LaxDer.signature? interpreter.flags signature (key 2) := by
  have hmemory : (interpreter.verify sigScript oneOfTwo).memory []
      = [.signature signature (key 3) oneOfTwo.encode false,
         .signature signature (key 2) oneOfTwo.encode false] := by decide +kernel
  obtain ⟨_, hvetted⟩ := Interpreter.vetted_of_asked interpreter ⟨rfl, rfl⟩
  refine ⟨⟨rfl, rfl⟩, hmemory, ?_, ?_⟩
  · exact hvetted sigScript oneOfTwo _ _ _ _ (by rw [hmemory]; exact List.mem_cons_self)
  · exact hvetted sigScript oneOfTwo _ _ _ _
      (by rw [hmemory]; exact List.mem_cons_of_mem _ List.mem_cons_self)

end SpendScript
