import SpendScript.Proofs.NumberEncoding
import SpendScript.Proofs.Push
import SpendScript.Template
/-!
# Minimal pushes are the shortest ones

Three tables have to agree: the test whether a push is minimal, the choice of a push for a byte
string, and the lengths that the forms are written in. This file compares them by counting bytes.

What this file fixes:

* `PushForm.width`, `DataPush.length_encode` -- what a form adds to the bytes that it pushes.
* `DataPush.width_le_of_shortest?` -- the form that is chosen is the narrowest that holds the bytes.
* `DataPush.small_or_narrower` -- where a push fails the test, the bytes are a number with an opcode
  or fit a narrower form.
* `Push.length_encode_lt` -- so the push that is chosen is shorter.
* `Template.shortest_pushNumber` -- the push of a number, by its opcode or by its encoding, is the
  one that is chosen for its encoding.
* `Push.isMinimal_iff_shorter` -- the three tables and the numbers together.
-/

namespace SpendScript

/-! ## 1. Lengths -/

/-- How many bytes the opcode and the length take. -/
def PushForm.width : PushForm → Nat
  | direct => 1
  | pushData1 => 2
  | pushData2 => 3
  | pushData4 => 5

@[simp] theorem PushForm.length_header (form : PushForm) (n : Nat) :
    (form.header n).length = form.width := by
  cases form <;> simp [header, width]

namespace DataPush

theorem length_encode {p : DataPush} (h : p.WellFormed) :
    p.encode.length = p.form.width + p.data.length := by
  rw [encode_of_wellFormed h, List.length_append, PushForm.length_header]

/-- A push of bytes takes two bytes or more; only an opcode takes one. -/
theorem one_lt_length_encode {p : DataPush} (h : p.WellFormed) : 1 < p.encode.length := by
  rw [length_encode h]
  obtain ⟨form, data⟩ := p
  cases form with
  | direct =>
    have hpos : 1 ≤ data.length := h.1
    simp only [PushForm.width]
    omega
  | pushData1 | pushData2 | pushData4 => simp only [PushForm.width]; omega

/-- **The form that is chosen is the narrowest** that holds the bytes. -/
theorem width_le_of_shortest? {data : Bytes} {p : DataPush} (h : shortest? data = some p)
    {form : PushForm} (hholds : form.Holds data.length) : p.form.width ≤ form.width := by
  unfold shortest? at h
  dsimp only at h
  split at h
  · cases h
  split at h
  · cases h
    cases form <;> simp [PushForm.width]
  split at h
  · cases h
    cases form <;> simp only [PushForm.width, PushForm.Holds] at hholds ⊢ <;> omega
  split at h
  · cases h
    cases form <;> simp only [PushForm.width, PushForm.Holds] at hholds ⊢ <;> omega
  split at h
  · cases h
    cases form <;> simp only [PushForm.width, PushForm.Holds] at hholds ⊢ <;> omega
  · cases h

/-- **Where a push fails the test**, its bytes have an opcode of their own or fit a narrower form.
The forms are gone through one by one: each form asks for the lengths that the next narrower one
does not hold, and the direct form for bytes that are no small number. -/
theorem small_or_narrower {p : DataPush} (hwell : p.WellFormed) (hnot : p.isMinimal = false) :
    (∃ v, Push.ofBytes? p.data = some (.small v)) ∨
      ∃ form : PushForm, form.Holds p.data.length ∧ form.width < p.form.width := by
  obtain ⟨form, data⟩ := p
  cases form with
  | direct =>
    left
    unfold isMinimal at hnot
    dsimp only at hnot ⊢
    split at hnot
    · next b =>
      rw [Bool.and_eq_false_iff, bne_eq_false_iff_eq, Bool.or_eq_false_iff,
        decide_eq_false_iff_not, decide_eq_false_iff_not, UInt8.not_lt, UInt8.not_lt,
        UInt8.le_iff_toNat_le, UInt8.le_iff_toNat_le] at hnot
      unfold Push.ofBytes?
      dsimp only
      by_cases hneg : b = 0x81
      · rw [if_pos hneg]
        exact ⟨_, rfl⟩
      · have hsmall : 1 ≤ b.toNat ∧ b.toNat ≤ 16 := hnot.resolve_left hneg
        rw [if_neg hneg, dif_pos hsmall]
        exact ⟨_, rfl⟩
    · cases hnot
  | pushData1 =>
    have hshort : ¬ 0x4c ≤ data.length := of_decide_eq_false hnot
    by_cases hnil : data = []
    · subst hnil
      exact .inl ⟨_, rfl⟩
    · have hpos := List.length_pos_iff.mpr hnil
      have hholds : PushForm.direct.Holds data.length := ⟨hpos, by omega⟩
      exact .inr ⟨.direct, hholds, Nat.lt_succ_self 1⟩
  | pushData2 =>
    have hshort : ¬ 0x100 ≤ data.length := of_decide_eq_false hnot
    have hholds : PushForm.pushData1.Holds data.length := by
      simp only [PushForm.Holds]
      omega
    exact .inr ⟨.pushData1, hholds, Nat.lt_succ_self 2⟩
  | pushData4 =>
    have hshort : ¬ 0x10000 ≤ data.length := of_decide_eq_false hnot
    have hholds : PushForm.pushData2.Holds data.length := by
      simp only [PushForm.Holds]
      omega
    exact .inr ⟨.pushData2, hholds, Nat.lt_of_succ_le (Nat.le_succ 4)⟩

end DataPush

/-! ## 2. The push that is chosen -/

/-- A shortest push takes at most five bytes more than what it pushes. -/
theorem Push.Shortest.length_encode_le {p : Push} {bytes : Bytes} (hp : p.Shortest bytes) :
    p.encode.length ≤ bytes.length + 5 := by
  obtain ⟨rfl, hwell, _⟩ := hp
  cases p with
  | small v =>
    show 1 ≤ _
    omega
  | data p =>
    have hwidth : p.form.width ≤ 5 := by cases p.form <;> decide
    show p.encode.length ≤ p.data.length + 5
    rw [DataPush.length_encode hwell]
    omega

namespace Push

/-- What is chosen is an opcode, or the bytes in their narrowest form. -/
theorem small_or_data_of_ofBytes? {bytes : Bytes} {p : Push} (h : ofBytes? bytes = some p) :
    (∃ v, p = small v) ∨ ∃ q, p = data q ∧ DataPush.shortest? bytes = some q := by
  have hdata : ∀ {bytes : Bytes}, (DataPush.shortest? bytes).map data = some p →
      ∃ q, p = data q ∧ DataPush.shortest? bytes = some q := by
    intro bytes hmap
    obtain ⟨q, hq, rfl⟩ := Option.map_eq_some_iff.mp hmap
    exact ⟨q, rfl, hq⟩
  unfold ofBytes? at h
  split at h
  · cases h
    exact .inl ⟨_, rfl⟩
  · split at h
    · cases h
      exact .inl ⟨_, rfl⟩
    split at h
    · cases h
      exact .inl ⟨_, rfl⟩
    · exact .inr (hdata h)
  · exact .inr (hdata h)

/-- **A push that fails the test is longer** than the one that is chosen for its bytes. -/
theorem length_encode_lt {p q : Push} (hwell : q.WellFormed) (hnot : q.isMinimal = false)
    (hchosen : ofBytes? q.value = some p) : p.encode.length < q.encode.length := by
  cases q with
  | small v => cases hnot
  | data q =>
    have hlong : 1 < q.encode.length := DataPush.one_lt_length_encode hwell
    rcases small_or_data_of_ofBytes? hchosen with ⟨v, rfl⟩ | ⟨r, rfl, hshortest⟩
    · exact hlong
    · show r.encode.length < q.encode.length
      obtain ⟨hr, hdata⟩ := DataPush.wellFormed_of_shortest? hshortest
      rw [DataPush.length_encode hr, DataPush.length_encode hwell, hdata]
      rcases DataPush.small_or_narrower hwell hnot with ⟨v, hsmall⟩ | ⟨form, hholds, hnarrower⟩
      · -- no opcode was chosen, so there is none
        have hopcode : ofBytes? q.data = some (data r) := hchosen
        rw [hsmall] at hopcode
        cases hopcode
      · have hwidth := DataPush.width_le_of_shortest? hshortest hholds
        show r.form.width + q.data.length < q.form.width + q.data.length
        omega

/-- What a push that says its length places on the stack is below four gibibytes. -/
theorem length_value_lt {p : Push} (h : p.WellFormed) : p.value.length < 2 ^ 32 := by
  cases p with
  | small v =>
    have hone : ∀ v ∈ SmallValue.all, v.value.length < 2 ^ 32 := by decide
    exact hone v v.mem_all
  | data p =>
    show p.data.length < 2 ^ 32
    obtain ⟨form, data⟩ := p
    cases form with
    | direct => exact Nat.lt_of_le_of_lt h.2 (by decide)
    | pushData1 => exact Nat.lt_trans h (by decide)
    | pushData2 => exact Nat.lt_trans h (by decide)
    | pushData4 => exact h

/-- The test and the choice of a push agree. -/
theorem isMinimal_iff_ofBytes? {p : Push} (h : p.WellFormed) :
    p.isMinimal ↔ ofBytes? p.value = some p := by
  constructor
  · intro hminimal
    exact ofBytes?_of_shortest ⟨rfl, h, hminimal⟩
  · intro hchosen
    exact (of_ofBytes? hchosen).isMinimal

end Push

/-! ## 3. Numbers -/

theorem SmallValue.toInt_ofInt? {v : Int} {small : SmallValue} (h : ofInt? v = some small) :
    small.toInt = v := by
  unfold ofInt? at h
  split at h
  · next hneg =>
    cases h
    exact hneg.symm
  split at h
  · next hrange =>
    cases h
    exact Int.toNat_of_nonneg hrange.1
  · cases h

/-- A number without an opcode is not written as a byte that has one. -/
theorem SmallValue.not_number_of_ofInt?_eq_none {v : Int} (h : ofInt? v = none) {b : UInt8}
    (hencode : ScriptNumber.encode v = [b]) : b ≠ 0x81 ∧ (b < 1 ∨ 16 < b) := by
  have hv : v = ScriptNumber.signMagnitude [b] := by
    rw [← hencode, ScriptNumber.signMagnitude_encode]
  have hall : ∀ n : Fin 256, ofInt? (ScriptNumber.signMagnitude [UInt8.ofNat n.val]) = none →
      UInt8.ofNat n.val ≠ 0x81 ∧ (UInt8.ofNat n.val < 1 ∨ 16 < UInt8.ofNat n.val) := by
    decide +kernel
  have hbyte := hall ⟨b.toNat, b.toNat_lt⟩
  rw [UInt8.ofNat_toNat] at hbyte
  rw [hv] at h
  exact hbyte h

/-- **The push of a number** of 64 bits is the shortest one of its encoding. -/
theorem Template.shortest_pushNumber {v : Int} (h : ScriptNumber.Fits v) :
    (pushNumber v).Shortest (ScriptNumber.encode v) := by
  unfold pushNumber
  cases hopcode : SmallValue.ofInt? v with
  | some small =>
    have hvalue : small.value = ScriptNumber.encode v := by
      rw [SmallValue.value, SmallValue.toInt_ofInt? hopcode]
    exact ⟨hvalue, trivial, rfl⟩
  | none =>
    have hne : v ≠ 0 := by
      rintro rfl
      cases hopcode
    have hpos : 0 < (ScriptNumber.encode v).length := by
      rw [ScriptNumber.length_encode, Nat.pos_iff_ne_zero, ne_eq, Bytes.signedWidth_eq_zero_iff]
      omega
    have hnine := ScriptNumber.length_encode_le_nine h
    have hshortest : DataPush.shortest? (ScriptNumber.encode v)
        = some ⟨.direct, ScriptNumber.encode v⟩ := by
      unfold DataPush.shortest?
      dsimp only
      rw [if_neg (by omega), if_pos (by omega)]
    refine Push.shortest_data (by rw [hshortest]; rfl) ?_
    intro b hencode
    exact SmallValue.not_number_of_ofInt?_eq_none hopcode hencode

/-! ## 4. The tables together -/

/-- **A push is minimal if it is the one shortest encoding.** A push that says its length passes the
test if it is the one that is chosen for the bytes that it pushes, and if it is written in fewer
bytes than every other push of these bytes. For every byte string below four gibibytes a push is
chosen, which pushes it and is minimal; and the push of a number of 64 bits is the one that is
chosen for its encoding, and decodes to it. -/
theorem Push.isMinimal_iff_shorter :
    (∀ p : Push, p.WellFormed →
      (p.isMinimal ↔ ofBytes? p.value = some p) ∧
      (p.isMinimal ↔ ∀ q : Push, q.WellFormed → q.value = p.value → q ≠ p →
        p.encode.length < q.encode.length)) ∧
    (∀ bytes : Bytes, bytes.length < 2 ^ 32 → ∃ p, ofBytes? bytes = some p ∧
      p.value = bytes ∧ p.WellFormed ∧ p.isMinimal) ∧
    (∀ v : Int, ScriptNumber.Fits v →
      element? (ScriptNumber.encode v) = some (Template.pushNumber v) ∧
      (Template.pushNumber v).isMinimal ∧
      ScriptNumber.decode (Template.pushNumber v).value true 9 = .ok v) := by
  refine ⟨?test, ?chosen, ?number⟩
  case test =>
    intro p hwell
    refine ⟨isMinimal_iff_ofBytes? hwell, ?_⟩
    constructor
    · intro hminimal q hq hvalue hne
      have hchosen : ofBytes? q.value = some p := by
        rw [hvalue]
        exact (isMinimal_iff_ofBytes? hwell).mp hminimal
      have hnot : q.isMinimal = false := by
        rw [Bool.eq_false_iff, ne_eq, isMinimal_iff_ofBytes? hq, hchosen]
        intro heq
        exact hne (Option.some.inj heq).symm
      exact length_encode_lt hq hnot hchosen
    · intro hshorter
      -- the push that is chosen is no other one, for it would be both longer and shorter
      obtain ⟨chosen, hchosen⟩ := exists_ofBytes? (length_value_lt hwell)
      have hshortest := of_ofBytes? hchosen
      by_cases heq : chosen = p
      · rw [← heq]
        exact hshortest.isMinimal
      · have hlonger := hshorter chosen hshortest.wellFormed hshortest.value heq
        by_cases hminimal : p.isMinimal = true
        · exact hminimal
        · have hless := length_encode_lt hwell (Bool.eq_false_iff.mpr hminimal) hchosen
          omega
  case chosen =>
    intro bytes hlt
    obtain ⟨p, hp⟩ := exists_ofBytes? hlt
    obtain ⟨hvalue, hwell, hminimal⟩ := of_ofBytes? hp
    exact ⟨p, hp, hvalue, hwell, hminimal⟩
  case number =>
    intro v hfits
    have hshortest := Template.shortest_pushNumber hfits
    have hnine := ScriptNumber.length_encode_le_nine hfits
    refine ⟨?_, hshortest.isMinimal, ?_⟩
    · have hshort : (ScriptNumber.encode v).length ≤ maxElementSize :=
        Nat.le_trans hnine (by decide)
      rw [element?, if_pos hshort]
      exact ofBytes?_of_shortest hshortest
    · rw [hshortest.value, ScriptNumber.decode_encode hfits, if_pos hnine]

/-- A byte that is no number with an opcode, in the form that is chosen for it and in a wider one,
and the least number, which takes nine bytes. -/
theorem Push.isMinimal_iff_shorter_zeroByte :
    WellFormed (.data ⟨.direct, [0x00]⟩) ∧ isMinimal (.data ⟨.direct, [0x00]⟩) ∧
    WellFormed (.data ⟨.pushData1, [0x00]⟩) ∧
    (encode (.data ⟨.direct, [0x00]⟩)).length < (encode (.data ⟨.pushData1, [0x00]⟩)).length ∧
    (∃ p, ofBytes? [0x00] = some p ∧ p.isMinimal) ∧
    ScriptNumber.Fits ScriptNumber.least ∧
    (Template.pushNumber ScriptNumber.least).isMinimal := by
  obtain ⟨htest, hchosen, hnumber⟩ := Push.isMinimal_iff_shorter
  have hdirect : WellFormed (.data ⟨.direct, [0x00]⟩) := by decide
  have hminimal : isMinimal (.data ⟨.direct, [0x00]⟩) := by decide
  have hwide : WellFormed (.data ⟨.pushData1, [0x00]⟩) := by decide
  have hfits : ScriptNumber.Fits ScriptNumber.least := by decide
  obtain ⟨_, hshorter⟩ := htest _ hdirect
  obtain ⟨p, hp, _, _, hpMinimal⟩ := hchosen [0x00] (by decide)
  obtain ⟨_, hleast, _⟩ := hnumber _ hfits
  refine ⟨hdirect, hminimal, hwide, ?_, ⟨p, hp, hpMinimal⟩, hfits, hleast⟩
  exact hshorter.mp hminimal _ hwide rfl (by decide)

end SpendScript
