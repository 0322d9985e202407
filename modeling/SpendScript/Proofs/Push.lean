import SpendScript.Proofs.Serialization
import SpendScript.Interpreter
/-!
# Pushes among other chunks

The first byte tells a push from every opcode that counts, and the shortest push of a byte string
is one that no rule refuses.

What this file fixes:

* `Push.byte_le`, `Chunk.push_or_bad_of_byte_le` -- pushes start with a small byte, and what starts
  with a small byte is a push or an opcode without a meaning.
* `Chunk.encode_ne_written` -- an opcode that counts is never the written push of a byte string.
* `Push.of_ofBytes?` -- the shortest push of a byte string pushes it, in a form that says its
  length and that has no shorter one.
* `Push.ofBytes?_of_shortest` -- there is no second push of this kind.
-/

namespace SpendScript

/-! ## 1. First bytes -/

/-- A length that a direct push can have is a small byte. -/
theorem PushForm.byte_le {form : PushForm} {n : Nat} (h : form.Holds n) :
    form.byte n ≤ Chunk.lastPushByte := by
  cases form with
  | direct =>
    have hlength : (UInt8.ofNat n).toNat = n := by
      rw [UInt8.toNat_ofNat', Nat.mod_eq_of_lt (Nat.lt_of_le_of_lt h.2 (by decide))]
    show UInt8.ofNat n ≤ _
    rw [UInt8.le_iff_toNat_le, hlength]
    exact Nat.le_trans h.2 (by decide)
  | pushData1 => show (0x4c : UInt8) ≤ _; decide
  | pushData2 => show (0x4d : UInt8) ≤ _; decide
  | pushData4 => show (0x4e : UInt8) ≤ _; decide

theorem SmallValue.byte_le (v : SmallValue) : v.byte ≤ Chunk.lastPushByte := by
  cases v with
  | negOne => decide
  | num n => revert n; decide

/-- **Every push starts with a small byte**, also one whose form cannot say its length. -/
theorem Push.byte_le (p : Push) : p.byte ≤ Chunk.lastPushByte := by
  cases p with
  | small v => exact v.byte_le
  | data p =>
    show p.byte ≤ _
    unfold DataPush.byte
    cases hw : p.written? with
    | none => exact SmallValue.byte_le _
    | some q => exact PushForm.byte_le (DataPush.wellFormed_of_written? hw).1

/-- What starts with a small byte is a push, or fails when it is run. -/
theorem Chunk.push_or_bad_of_byte_le {chunk : Chunk} (h : chunk.byte ≤ lastPushByte) :
    (∃ p, chunk = push p) ∨ ∃ b, chunk = bad b := by
  cases chunk with
  | push p => exact .inl ⟨p, rfl⟩
  | bad b => exact .inr ⟨b, rfl⟩
  | control op => cases op <;> exact absurd h (by decide)
  | operation op => cases op <;> exact absurd h (by decide)
  | disabled op => cases op <;> exact absurd h (by decide)

theorem Interpreter.isCounted_push (p : Push) : isCounted (.push p) = false := by
  unfold isCounted
  rw [decide_eq_false_iff_not, UInt8.not_lt]
  exact p.byte_le

/-- The written push of a byte string starts with a small byte. -/
theorem DataPush.exists_written_eq_cons (data : Bytes) :
    ∃ b rest, written data = b :: rest ∧ b ≤ Chunk.lastPushByte := by
  unfold written
  cases shortest? data with
  | none => exact ⟨_, [], rfl, SmallValue.byte_le _⟩
  | some p => exact ⟨p.byte, p.encode.tail, p.encode_eq_cons, (Push.data p).byte_le⟩

/-- **An opcode that counts is no written push.** -/
theorem Chunk.encode_ne_written {chunk : Chunk} (h : Interpreter.isCounted chunk)
    (data : Bytes) : chunk.encode ≠ DataPush.written data := by
  obtain ⟨b, rest, hwritten, hb⟩ := DataPush.exists_written_eq_cons data
  intro heq
  have hbyte : chunk.byte = b := by
    rw [chunk.encode_eq_cons, hwritten] at heq
    exact (List.cons.inj heq).1
  unfold Interpreter.isCounted at h
  rw [decide_eq_true_iff, hbyte] at h
  exact absurd hb (UInt8.not_le.mpr h)

/-! ## 2. The shortest push of a byte string -/

/-- The shortest form has no shorter one, unless the byte string is a number with an opcode. -/
theorem DataPush.isMinimal_of_shortest? {data : Bytes} {p : DataPush} (h : shortest? data = some p)
    (hnumber : ∀ b, data = [b] → b ≠ 0x81 ∧ (b < 1 ∨ 16 < b)) : p.isMinimal = true := by
  unfold shortest? at h
  dsimp only at h
  split at h
  · cases h
  split at h
  · cases h
    unfold isMinimal
    dsimp only
    split
    · next b _ _ =>
      obtain ⟨hneg, hsmall⟩ := hnumber b rfl
      rw [Bool.and_eq_true, bne_iff_ne, Bool.or_eq_true, decide_eq_true_iff, decide_eq_true_iff]
      exact ⟨hneg, hsmall⟩
    · rfl
  split at h
  · cases h
    exact decide_eq_true (by dsimp only; omega)
  split at h
  · cases h
    exact decide_eq_true (by dsimp only; omega)
  split at h
  · cases h
    exact decide_eq_true (by dsimp only; omega)
  · cases h

/-- Every byte string below four gibibytes that is not empty has a shortest form. -/
theorem DataPush.exists_shortest? {data : Bytes} (hne : data ≠ []) (hlt : data.length < 2 ^ 32) :
    ∃ p, shortest? data = some p := by
  have hlength : data.length ≠ 0 := fun h => hne (List.length_eq_zero_iff.mp h)
  unfold shortest?
  dsimp only
  rw [if_neg hlength]
  split
  · exact ⟨_, rfl⟩
  split
  · exact ⟨_, rfl⟩
  split
  · exact ⟨_, rfl⟩
  · exact ⟨_, rfl⟩

namespace Push

/-- Whether the push places the byte string in the shortest way. -/
structure Shortest (p : Push) (bytes : Bytes) : Prop where
  value : p.value = bytes
  wellFormed : p.WellFormed
  isMinimal : p.isMinimal = true

theorem shortest_data {bytes : Bytes} {p : Push}
    (h : (DataPush.shortest? bytes).map data = some p)
    (hnumber : ∀ b, bytes = [b] → b ≠ 0x81 ∧ (b < 1 ∨ 16 < b)) : p.Shortest bytes := by
  obtain ⟨q, hq, rfl⟩ := Option.map_eq_some_iff.mp h
  obtain ⟨hwell, hdata⟩ := DataPush.wellFormed_of_shortest? hq
  exact ⟨hdata, hwell, DataPush.isMinimal_of_shortest? hq hnumber⟩

/-- **The shortest push of a byte string is what it says.** -/
theorem of_ofBytes? {bytes : Bytes} {p : Push} (h : ofBytes? bytes = some p) :
    p.Shortest bytes := by
  unfold ofBytes? at h
  split at h
  · cases h
    exact ⟨rfl, trivial, rfl⟩
  · next b =>
    split at h
    · next hneg =>
      cases h
      exact ⟨by rw [hneg]; decide, trivial, rfl⟩
    · next hneg =>
      split at h
      · next hsmall =>
        cases h
        refine ⟨?_, trivial, rfl⟩
        show (SmallValue.num _).value = [b]
        rw [SmallValue.value_ofByte, if_neg (by dsimp only; omega), UInt8.ofNat_toNat]
      · next hlarge =>
        refine shortest_data h fun b' hb' => ?_
        cases hb'
        refine ⟨hneg, ?_⟩
        rw [UInt8.lt_iff_toNat_lt, UInt8.lt_iff_toNat_lt]
        have hone : (1 : UInt8).toNat = 1 := rfl
        have hsixteen : (16 : UInt8).toNat = 16 := rfl
        omega
  · next hone => exact shortest_data h fun b hb => absurd hb (hone b)

end Push

/-- A push that says its length and has no shorter form is in the shortest form. -/
theorem DataPush.shortest?_of_isMinimal {p : DataPush} (hwell : p.WellFormed)
    (hminimal : p.isMinimal = true) : shortest? p.data = some p := by
  obtain ⟨form, data⟩ := p
  unfold shortest?
  dsimp only
  cases form with
  | direct =>
    have hholds : 1 ≤ data.length ∧ data.length ≤ 0x4b := hwell
    rw [if_neg (by omega), if_pos hholds.2]
  | pushData1 =>
    have hholds : data.length < 2 ^ 8 := hwell
    have hlong : 0x4c ≤ data.length := of_decide_eq_true hminimal
    rw [if_neg (by omega), if_neg (by omega), if_pos (by omega)]
  | pushData2 =>
    have hholds : data.length < 2 ^ 16 := hwell
    have hlong : 0x100 ≤ data.length := of_decide_eq_true hminimal
    rw [if_neg (by omega), if_neg (by omega), if_neg (by omega), if_pos (by omega)]
  | pushData4 =>
    have hholds : data.length < 2 ^ 32 := hwell
    have hlong : 0x10000 ≤ data.length := of_decide_eq_true hminimal
    rw [if_neg (by omega), if_neg (by omega), if_neg (by omega), if_neg (by omega),
      if_pos hholds]

/-- A push of a single byte that has no shorter form is not of a number with an opcode. -/
theorem DataPush.not_number_of_isMinimal {p : DataPush} {b : UInt8} (hdata : p.data = [b])
    (hminimal : p.isMinimal = true) : b ≠ 0x81 ∧ (b < 1 ∨ 16 < b) := by
  obtain ⟨form, data⟩ := p
  cases hdata
  cases form with
  | direct =>
    have hnumber : (b != 0x81 && (decide (b < 1) || decide (16 < b))) = true := hminimal
    rwa [Bool.and_eq_true, bne_iff_ne, Bool.or_eq_true, decide_eq_true_iff, decide_eq_true_iff]
      at hnumber
  | pushData1 | pushData2 | pushData4 => exact absurd hminimal Bool.false_ne_true

namespace Push

/-- **A byte string has no other shortest push**: the one that is found for it is the only one. -/
theorem ofBytes?_of_shortest {bytes : Bytes} {p : Push} (h : p.Shortest bytes) :
    ofBytes? bytes = some p := by
  obtain ⟨rfl, hwell, hminimal⟩ := h
  cases p with
  | small v =>
    cases v with
    | negOne => decide
    | num n => revert n; decide
  | data p =>
    have hshortest : (DataPush.shortest? p.data).map data = some (data p) := by
      rw [DataPush.shortest?_of_isMinimal hwell hminimal]
      rfl
    show ofBytes? p.data = some (data p)
    rcases hdata : p.data with _ | ⟨b, _ | ⟨b', rest⟩⟩
    · rw [hdata] at hshortest
      cases hshortest
    · obtain ⟨hneg, hsmall⟩ := DataPush.not_number_of_isMinimal hdata hminimal
      rw [UInt8.lt_iff_toNat_lt, UInt8.lt_iff_toNat_lt] at hsmall
      have hone : (1 : UInt8).toNat = 1 := rfl
      have hsixteen : (16 : UInt8).toNat = 16 := rfl
      unfold ofBytes?
      dsimp only
      rw [if_neg hneg, dif_neg (by omega), ← hdata]
      exact hshortest
    · rw [hdata] at hshortest
      exact hshortest

/-- Every byte string below four gibibytes has a shortest push. -/
theorem exists_ofBytes? {bytes : Bytes} (h : bytes.length < 2 ^ 32) :
    ∃ p, ofBytes? bytes = some p := by
  have hform : bytes ≠ [] → ∃ q, (DataPush.shortest? bytes).map data = some q := by
    intro hne
    obtain ⟨q, hq⟩ := DataPush.exists_shortest? hne h
    exact ⟨data q, by rw [hq]; rfl⟩
  unfold ofBytes?
  split
  · exact ⟨_, rfl⟩
  · split
    · exact ⟨_, rfl⟩
    split
    · exact ⟨_, rfl⟩
    · exact hform (List.cons_ne_nil _ _)
  · next hnil _ => exact hform hnil

/-- A byte string that is not too long for the stack has a shortest push. -/
theorem exists_element? {bytes : Bytes} (h : bytes.length ≤ maxElementSize) :
    ∃ p, element? bytes = some p := by
  rw [element?, if_pos h]
  exact exists_ofBytes? (Nat.lt_of_le_of_lt h (by decide))

end Push

end SpendScript
