import SpendScript.Proofs.Redemption
import SpendScript.Proofs.Serialization
/-!
# The bytes of an output behind a hash

Whether an output commits to a script by its hash is asked of its chunks. Everyone else tells such
an output by its bytes: there are 23 of them, and three are fixed. The two must agree on every byte
string, whatever the twenty bytes in between look like and however else twenty bytes can be pushed.

What this file fixes:

* `Bytes.ScriptHashPattern` -- the test on bytes, and `scriptHashPattern_iff`, the frame around
  twenty bytes that it comes to.
* `Program.comparingHash` -- the chunks: `isPayToScriptHash_iff` says that there are no others, and
  `encode_comparingHash` that they are written as the frame.
* `Program.scriptHashPattern_of_parse`, `Program.parse_of_scriptHashPattern` -- the two tests
  against each other, one direction each. Reading and writing are inverse to each other, so that no
  other push of twenty bytes is written as the frame, and nothing else is read from it.
* `Program.parse_isPayToScriptHash` -- both directions, and the outputs that the template makes.
-/

namespace SpendScript

/-! ## 1. The bytes -/

/-- **The test on bytes**: the opcode that hashes, a direct push of twenty bytes, and the opcode
that compares, with nothing before, between or behind them. -/
structure Bytes.ScriptHashPattern (bytes : Bytes) : Prop where
  length : bytes.length = 23
  hashes : bytes[0]? = some 0xa9
  pushes : bytes[1]? = some 0x14
  compares : bytes[22]? = some 0x87

/-- Three fixed bytes out of 23 are a frame around twenty bytes that are free. -/
theorem Bytes.scriptHashPattern_iff {bytes : Bytes} :
    bytes.ScriptHashPattern ↔
      ∃ hash : Bytes, hash.length = 20 ∧ bytes = 0xa9 :: 0x14 :: (hash ++ [0x87]) := by
  constructor
  · rintro ⟨hlength, hhashes, hpushes, hcompares⟩
    match bytes, hlength, hhashes, hpushes, hcompares with
    | b₀ :: b₁ :: rest, hlength, hhashes, hpushes, hcompares =>
      cases hhashes
      cases hpushes
      have hrest : rest.length = 20 + 1 := by
        rw [List.length_cons, List.length_cons] at hlength
        omega
      have hlast : rest[20]? = some 0x87 := hcompares
      refine ⟨rest.take 20, by rw [List.length_take, hrest]; rfl, ?_⟩
      have hsplit := List.take_add_one (l := rest) (i := 20)
      rw [hlast, ← hrest, List.take_length] at hsplit
      rw [hsplit]
      simp [hrest]
  · rintro ⟨hash, hlength, rfl⟩
    exact
      { length := by simp [hlength]
        hashes := rfl
        pushes := rfl
        compares := by
          show (hash ++ [0x87])[20]? = _
          rw [← hlength]
          exact List.getElem?_concat_length }

namespace Program

/-! ## 2. The chunks -/

/-- The script that compares the hash of the top with given bytes. -/
def comparingHash (hash : Bytes) : Program :=
  [.operation .hash160, .push (Template.pushHash hash), .operation .equal]

/-- The template fills in the hash of a script. -/
theorem payToScriptHash_eq (hashes : Hashes) (script : Program) :
    Template.payToScriptHash hashes script = comparingHash (hashes.hash160 script.encode) := rfl

/-- **No other chunks are recognised.** -/
theorem isPayToScriptHash_iff {p : Program} :
    p.isPayToScriptHash = true ↔ ∃ hash : Bytes, hash.length = 20 ∧ p = comparingHash hash := by
  constructor
  · intro h
    unfold isPayToScriptHash at h
    split at h
    · next hash => exact ⟨hash, beq_iff_eq.mp h, rfl⟩
    · cases h
  · rintro ⟨hash, hlength, rfl⟩
    exact beq_iff_eq.mpr hlength

variable {hash : Bytes} (hlength : hash.length = 20)
include hlength

/-- Twenty bytes are written behind the byte that says so. -/
theorem encode_comparingHash : (comparingHash hash).encode = 0xa9 :: 0x14 :: (hash ++ [0x87]) := by
  have hwell : DataPush.WellFormed ⟨.direct, hash⟩ := (Push.shortest_pushHash hlength).wellFormed
  have hpush : DataPush.encode ⟨.direct, hash⟩ = 0x14 :: hash := by
    rw [DataPush.encode_of_wellFormed hwell]
    show UInt8.ofNat hash.length :: hash = _
    rw [hlength]
    rfl
  show 0xa9 :: (DataPush.encode ⟨.direct, hash⟩ ++ [0x87]) = _
  rw [hpush]
  rfl

/-- What is written is read back as the same chunks. -/
theorem parse_encode_comparingHash :
    parse (comparingHash hash).encode = .ok (comparingHash hash) := by
  have hwell : (Chunk.push (Template.pushHash hash)).WellFormed :=
    (Push.shortest_pushHash hlength).wellFormed
  have hshort : (Chunk.push (Template.pushHash hash)).Writable := by
    show hash.length < 2 ^ 32
    rw [hlength]
    decide
  have hall : ∀ c ∈ comparingHash hash, c.Writable ∧ c.WellFormed := by
    intro c hc
    simp only [comparingHash, List.mem_cons, List.not_mem_nil, or_false] at hc
    rcases hc with rfl | rfl | rfl
    · exact ⟨trivial, trivial⟩
    · exact ⟨hshort, hwell⟩
    · exact ⟨trivial, trivial⟩
  rw [parse_encode fun c hc => (hall c hc).1, map_normal fun c hc => (hall c hc).2]

omit hlength

/-! ## 3. Both tests -/

/-- The bytes that such chunks were read from are their own, so they are the frame. -/
theorem scriptHashPattern_of_parse {bytes : Bytes} {p : Program} (h : parse bytes = .ok p)
    (hp : p.isPayToScriptHash = true) : bytes.ScriptHashPattern := by
  obtain ⟨hash, hlength, rfl⟩ := isPayToScriptHash_iff.mp hp
  obtain ⟨hencode, _⟩ := encode_of_parse h
  rw [encode_comparingHash hlength] at hencode
  exact Bytes.scriptHashPattern_iff.mpr ⟨hash, hlength, hencode.symm⟩

/-- The frame is what such chunks are written as, so it is read back as them. -/
theorem parse_of_scriptHashPattern {bytes : Bytes} (h : bytes.ScriptHashPattern) :
    ∃ p, parse bytes = .ok p ∧ p.isPayToScriptHash = true := by
  obtain ⟨hash, hlength, rfl⟩ := Bytes.scriptHashPattern_iff.mp h
  refine ⟨comparingHash hash, ?_, isPayToScriptHash_iff.mpr ⟨hash, hlength, rfl⟩⟩
  rw [← encode_comparingHash hlength]
  exact parse_encode_comparingHash hlength

/-- **Chunks and bytes tell the same outputs.** A byte string can be read as a script that is
recognised by its chunks exactly if it has 23 bytes and the three fixed ones. The output made for a
script has them, and the twenty bytes between them are the hash of the script. -/
theorem parse_isPayToScriptHash :
    (∀ bytes : Bytes,
      (∃ p, parse bytes = .ok p ∧ p.isPayToScriptHash = true) ↔ bytes.ScriptHashPattern) ∧
    (∀ (hashes : Hashes) (script : Program),
      (Template.payToScriptHash hashes script).encode.ScriptHashPattern ∧
      ((Template.payToScriptHash hashes script).encode.drop 2).take 20
        = hashes.hash160 script.encode) := by
  refine ⟨fun bytes => ⟨fun ⟨p, h, hp⟩ => scriptHashPattern_of_parse h hp,
    parse_of_scriptHashPattern⟩, fun hashes script => ?_⟩
  have hlength : (hashes.hash160 script.encode).length = 20 := hashes.length_hash160 _
  rw [payToScriptHash_eq, encode_comparingHash hlength]
  refine ⟨Bytes.scriptHashPattern_iff.mpr ⟨_, hlength, rfl⟩, ?_⟩
  show (hashes.hash160 script.encode ++ [0x87]).take 20 = _
  rw [← hlength, List.take_left]

end Program

end SpendScript
