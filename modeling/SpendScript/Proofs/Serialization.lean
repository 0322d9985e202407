import SpendScript.Program
/-!
# Scripts as bytes

Reading a script and writing it again gives the bytes back, and writing a script and reading it
again gives the script back. A push in a form that cannot say its length is written in another
form, so that the second direction holds up to that form.

What this file fixes:

* `Chunk.read_sound` -- what is read is well-formed, and written again it is what was read.
* `Chunk.Writable`, `Chunk.normal` -- chunks that have bytes of their own, and the chunk that those
  bytes are read as. `Chunk.read_encode_append` reads it with any bytes after it, which is what
  keeps chunk after chunk in step.
* `Program.encode_of_parse`, `Program.parse_encode` -- both directions for whole scripts.
* `Program.roundTrip` -- the two directions together, chunk by chunk.
-/

namespace SpendScript

/-! ## 1. Pieces of a push -/

namespace Chunk

theorem split_append (head rest : Bytes) : split head.length (head ++ rest) = .ok head rest := by
  unfold split
  simp only [List.take_left', List.drop_left', if_true]

/-- A length in bytes of its own, then that many bytes. -/
theorem readData_ofNatLE {lengthBytes : Nat} (hpos : lengthBytes ≠ 0) (opcode : UInt8)
    {data : Bytes} (hlt : data.length < 256 ^ lengthBytes) (rest : Bytes) :
    readData opcode lengthBytes (Bytes.ofNatLE lengthBytes data.length ++ (data ++ rest))
      = .ok data rest := by
  have hlength : split lengthBytes (Bytes.ofNatLE lengthBytes data.length ++ (data ++ rest))
      = .ok (Bytes.ofNatLE lengthBytes data.length) (data ++ rest) := by
    have h := split_append (Bytes.ofNatLE lengthBytes data.length) (data ++ rest)
    rwa [Bytes.length_ofNatLE] at h
  have hvalue : (Bytes.ofNatLE lengthBytes data.length).toNatLE = data.length := by
    rw [Bytes.toNatLE_ofNatLE, Nat.mod_eq_of_lt hlt]
  rw [readData_eq_bind hpos, EStateM.bind_ok hlength, hvalue, split_append]

/-- What is read after a length in bytes of its own. -/
theorem eq_of_readData {opcode : UInt8} {lengthBytes : Nat} (hpos : lengthBytes ≠ 0)
    {bytes data rest : Bytes} (h : readData opcode lengthBytes bytes = .ok data rest) :
    bytes = Bytes.ofNatLE lengthBytes data.length ++ (data ++ rest) ∧
      data.length < 256 ^ lengthBytes := by
  rw [readData_eq_bind hpos] at h
  obtain ⟨length, left, hlength, hdata⟩ := EStateM.eq_ok_of_bind h
  obtain ⟨hbytes, hwidth⟩ := eq_append_of_split hlength
  obtain ⟨hrest, hlen⟩ := eq_append_of_split hdata
  have hwritten : Bytes.ofNatLE lengthBytes data.length = length := by
    rw [hlen, ← hwidth, Bytes.ofNatLE_toNatLE]
  refine ⟨by rw [hwritten, ← hrest, ← hbytes], ?_⟩
  rw [hlen, ← hwidth]
  exact Bytes.toNatLE_lt length

end Chunk

namespace PushForm

/-- The bytes that start a push of bytes. -/
theorem ofByte?_eq_some {b : UInt8} {form : PushForm} {lengthBytes : Nat}
    (h : ofByte? b = some (form, lengthBytes)) :
    (b = 0x4c ∧ form = .pushData1 ∧ lengthBytes = 1) ∨
    (b = 0x4d ∧ form = .pushData2 ∧ lengthBytes = 2) ∨
    (b = 0x4e ∧ form = .pushData4 ∧ lengthBytes = 4) ∨
    (1 ≤ b ∧ b ≤ 0x4b ∧ form = .direct ∧ lengthBytes = 0) := by
  unfold ofByte? at h
  split at h
  · next hb => cases h; exact .inl ⟨hb, rfl, rfl⟩
  split at h
  · next hb => cases h; exact .inr (.inl ⟨hb, rfl, rfl⟩)
  split at h
  · next hb => cases h; exact .inr (.inr (.inl ⟨hb, rfl, rfl⟩))
  split at h
  · next hb => cases h; exact .inr (.inr (.inr ⟨hb.1, hb.2, rfl, rfl⟩))
  · cases h

/-- A length that fits a direct push is an opcode byte that starts one. -/
theorem ofByte?_direct {n : Nat} (h : 1 ≤ n ∧ n ≤ 0x4b) :
    ofByte? (UInt8.ofNat n) = some (.direct, 0) := by
  have hall : ∀ n : Fin 0x4c, 1 ≤ n.val → ofByte? (UInt8.ofNat n.val) = some (.direct, 0) := by
    decide
  exact hall ⟨n, by omega⟩ h.1

end PushForm

/-! ## 2. Reading what was written -/

namespace Chunk

/-- No table of opcodes reaches the bytes that were never assigned. -/
theorem find?_byte_eq_none {α : Type} {byte : α → UInt8} {table : List α}
    (htable : ∀ x ∈ table, byte x < 0xba) {b : UInt8} (h : 0xba ≤ b) :
    table.find? (byte · == b) = none := by
  refine List.find?_eq_none.mpr fun x hx hb => ?_
  have hlt := htable x hx
  rw [beq_iff_eq.mp hb] at hlt
  exact absurd h (UInt8.not_le.mpr hlt)

/-- A byte above every opcode byte is an unassigned one. -/
theorem read_unassigned {b : UInt8} (h : 0xba ≤ b) (rest : Bytes) :
    read (b :: rest) = .ok (bad (.unknown b)) rest := by
  have hne : ∀ k : UInt8, k < 0xba → b ≠ k := by
    rintro k hk rfl
    exact absurd h (UInt8.not_le.mpr hk)
  have hpush : PushForm.ofByte? b = none := by
    unfold PushForm.ofByte?
    rw [if_neg (hne _ (by decide)), if_neg (hne _ (by decide)), if_neg (hne _ (by decide)),
      if_neg fun hb => absurd (UInt8.le_trans h hb.2) (by decide)]
  have hsmall : SmallValue.ofByte? b = none := find?_byte_eq_none (by decide) h
  have hcontrol : Control.ofByte? b = none := find?_byte_eq_none (by decide) h
  have hoperation : Operation.ofByte? b = none := find?_byte_eq_none (by decide) h
  have hdisabled : Disabled.ofByte? b = none := find?_byte_eq_none (by decide) h
  have hbad : Bad.ofByte b = .unknown b := by
    unfold Bad.ofByte
    rw [if_neg (hne _ (by decide)), if_neg (hne _ (by decide)), if_neg (hne _ (by decide)),
      if_neg (hne _ (by decide)), if_neg (hne _ (by decide)), if_neg (hne _ (by decide))]
  rw [read_cons_of_none hpush]
  simp only [ofByte, hsmall, hcontrol, hoperation, hdisabled, hbad]

end Chunk

namespace DataPush

theorem written?_of_wellFormed {p : DataPush} (h : p.WellFormed) : p.written? = some p := if_pos h

theorem encode_of_wellFormed {p : DataPush} (h : p.WellFormed) :
    p.encode = p.form.header p.data.length ++ p.data := by
  simp only [encode, written?_of_wellFormed h]

/-- The form that a push is written in says its length, and the bytes are the same. -/
theorem wellFormed_of_written? {p q : DataPush} (h : p.written? = some q) :
    q.WellFormed ∧ q.data = p.data := by
  unfold written? at h
  split at h
  · next hp => cases h; exact ⟨hp, rfl⟩
  · exact wellFormed_of_shortest? h

/-- Below four gibibytes only the empty push has no form to be written in. -/
theorem data_eq_nil_of_written? {p : DataPush} (hlt : p.data.length < 2 ^ 32)
    (h : p.written? = none) : p.data = [] := by
  unfold written? at h
  split at h
  · cases h
  unfold shortest? at h
  dsimp only at h
  split at h
  · next hzero => exact List.length_eq_zero_iff.mp hzero
  split at h
  · cases h
  split at h
  · cases h
  split at h
  · cases h
  -- what is left is the form of four length bytes, which holds any shorter string
  cases h

/-- **A well-formed push is read back**, whatever follows it. -/
theorem read_encode_append {p : DataPush} (h : p.WellFormed) (rest : Bytes) :
    Chunk.read (p.encode ++ rest) = .ok (.push (.data p)) rest := by
  obtain ⟨form, data⟩ := p
  rw [encode_of_wellFormed h, List.append_assoc]
  cases form with
  | direct =>
    have hlt : data.length < 2 ^ 8 := Nat.lt_of_le_of_lt h.2 (by decide)
    have hlength : (UInt8.ofNat data.length).toNat = data.length := by
      rw [UInt8.toNat_ofNat', Nat.mod_eq_of_lt hlt]
    refine Chunk.read_cons_of_some (PushForm.ofByte?_direct h) ?_
    show Chunk.split (UInt8.ofNat data.length).toNat (data ++ rest) = _
    rw [hlength, Chunk.split_append]
  | pushData1 => exact Chunk.read_cons_of_some rfl (Chunk.readData_ofNatLE (by decide) _ h rest)
  | pushData2 => exact Chunk.read_cons_of_some rfl (Chunk.readData_ofNatLE (by decide) _ h rest)
  | pushData4 => exact Chunk.read_cons_of_some rfl (Chunk.readData_ofNatLE (by decide) _ h rest)

end DataPush

namespace Chunk

/-- Whether the chunk has bytes of its own: a push holds less than four gibibytes, and a byte
without a meaning is one that was never assigned. -/
def Writable : Chunk → Prop
  | push (.data p) => p.data.length < 2 ^ 32
  | bad (.unknown b) => 0xba ≤ b
  | _ => True

instance (c : Chunk) : Decidable c.Writable :=
  match c with
  | push (.data p) => inferInstanceAs (Decidable (p.data.length < 2 ^ 32))
  | bad (.unknown b) => inferInstanceAs (Decidable (0xba ≤ b))
  | push (.small _) | control _ | operation _ | disabled _ => .isTrue trivial
  | bad .reserved | bad .ver | bad .verIf | bad .verNotIf | bad .reserved1 | bad .reserved2 =>
    .isTrue trivial

/-- The chunk that the bytes of a chunk are read as. -/
def normal : Chunk → Chunk
  | push (.data p) =>
    match p.written? with
    | some q => push (.data q)
    | none => push (.small (.num 0))
  | c => c

/-- **A chunk is read back as its normal form**, whatever follows it. -/
theorem read_encode_append {c : Chunk} (h : c.Writable) (rest : Bytes) :
    read (c.encode ++ rest) = .ok c.normal rest := by
  cases c with
  | push p =>
    cases p with
    | small v =>
      have hstart : PushForm.ofByte? v.byte = none := by
        cases v with
        | negOne => rfl
        | num n => revert n; decide
      have hsmall : ofByte v.byte = push (.small v) := by
        simp only [ofByte, SmallValue.ofByte?_byte]
      show read (v.byte :: rest) = _
      rw [read_cons_of_none hstart, hsmall]
      rfl
    | data p =>
      show read (p.encode ++ rest) = _
      cases hw : p.written? with
      | some q =>
        have hq := (DataPush.wellFormed_of_written? hw).1
        have hencode : p.encode = q.encode := by
          simp only [DataPush.encode, hw, DataPush.written?_of_wellFormed hq]
        rw [hencode, DataPush.read_encode_append hq]
        simp only [normal, hw]
      | none =>
        simp only [DataPush.encode, normal, hw]
        rfl
  | control op => cases op <;> rfl
  | operation op =>
    have hstart : PushForm.ofByte? op.byte = none := by cases op <;> rfl
    have hsmall : SmallValue.ofByte? op.byte = none := by cases op <;> rfl
    have hcontrol : Control.ofByte? op.byte = none := by cases op <;> rfl
    have hoperation : ofByte op.byte = operation op := by
      simp only [ofByte, hsmall, hcontrol, Operation.ofByte?_byte]
    show read (op.byte :: rest) = _
    rw [read_cons_of_none hstart, hoperation]
    rfl
  | disabled op => cases op <;> rfl
  | bad op =>
    cases op with
    | unknown b => exact read_unassigned h rest
    | _ => rfl

/-- Only a push whose form cannot say its length is read as another chunk. -/
theorem normal_of_wellFormed {c : Chunk} (h : c.WellFormed) : c.normal = c := by
  cases c with
  | push p =>
    cases p with
    | small v => rfl
    | data p => simp only [normal, DataPush.written?_of_wellFormed h]
  | control op => rfl
  | operation op => rfl
  | disabled op => rfl
  | bad op => rfl

/-- The chunk that is read pushes the same bytes. -/
theorem pushData?_normal {c : Chunk} (h : c.Writable) : c.normal.pushData? = c.pushData? := by
  cases c with
  | push p =>
    cases p with
    | small v => rfl
    | data p =>
      cases hw : p.written? with
      | some q =>
        simp only [normal, hw, pushData?, Push.value, (DataPush.wellFormed_of_written? hw).2]
      | none =>
        -- The empty string is what the opcode of zero pushes.
        have hnil : p.data = [] := DataPush.data_eq_nil_of_written? h hw
        simp only [normal, hw, pushData?, Push.value, hnil]
        rfl
  | control op => rfl
  | operation op => rfl
  | disabled op => rfl
  | bad op => rfl

/-- The chunk that is read starts with the same byte. -/
theorem byte_normal (c : Chunk) : c.normal.byte = c.byte := by
  cases c with
  | push p =>
    cases p with
    | small v => rfl
    | data p =>
      cases hw : p.written? with
      | some q =>
        have hq : q.written? = some q :=
          DataPush.written?_of_wellFormed (DataPush.wellFormed_of_written? hw).1
        simp only [normal, hw, byte, Push.byte, DataPush.byte, hq]
      | none => simp only [normal, hw, byte, Push.byte, DataPush.byte]
  | control op => rfl
  | operation op => rfl
  | disabled op => rfl
  | bad op => rfl

theorem head?_encode (c : Chunk) : c.encode.head? = some c.byte := by
  rw [encode_eq_cons]
  rfl

/-- A byte read as an opcode is written as that byte. -/
theorem encode_ofByte (b : UInt8) : (ofByte b).encode = [b] ∧ (ofByte b).WellFormed := by
  unfold ofByte
  split
  · next v hv => exact ⟨congrArg (fun b => [b]) (SmallValue.byte_ofByte? hv), trivial⟩
  split
  · next op hop => exact ⟨congrArg (fun b => [b]) (Control.byte_ofByte? hop), trivial⟩
  split
  · next op hop => exact ⟨congrArg (fun b => [b]) (Operation.byte_ofByte? hop), trivial⟩
  split
  · next op hop => exact ⟨congrArg (fun b => [b]) (Disabled.byte_ofByte? hop), trivial⟩
  · exact ⟨congrArg (fun b => [b]) (Bad.byte_ofByte b), trivial⟩

/-- The bytes of a push that was read are its form's bytes, and the form says its length. -/
theorem readData_sound {b : UInt8} {form : PushForm} {lengthBytes : Nat}
    (hform : PushForm.ofByte? b = some (form, lengthBytes)) {bytes data rest : Bytes}
    (h : readData b lengthBytes bytes = .ok data rest) :
    b :: bytes = (form.header data.length ++ data) ++ rest ∧ form.Holds data.length := by
  rcases PushForm.ofByte?_eq_some hform with
    ⟨rfl, rfl, rfl⟩ | ⟨rfl, rfl, rfl⟩ | ⟨rfl, rfl, rfl⟩ | ⟨hlo, hhi, rfl, rfl⟩
  · obtain ⟨hbytes, hlt⟩ := eq_of_readData (by decide) h
    rw [hbytes, List.append_assoc]
    exact ⟨rfl, hlt⟩
  · obtain ⟨hbytes, hlt⟩ := eq_of_readData (by decide) h
    rw [hbytes, List.append_assoc]
    exact ⟨rfl, hlt⟩
  · obtain ⟨hbytes, hlt⟩ := eq_of_readData (by decide) h
    rw [hbytes, List.append_assoc]
    exact ⟨rfl, hlt⟩
  · obtain ⟨hbytes, hlength⟩ := eq_append_of_split (n := b.toNat) h
    have hb : UInt8.ofNat data.length = b := by rw [hlength, UInt8.ofNat_toNat]
    refine ⟨?_, ?_⟩
    · show b :: bytes = UInt8.ofNat data.length :: (data ++ rest)
      rw [hb, hbytes]
    · show 1 ≤ data.length ∧ data.length ≤ 0x4b
      rw [hlength]
      exact ⟨UInt8.le_iff_toNat_le.mp hlo, UInt8.le_iff_toNat_le.mp hhi⟩

/-- **What is read is well-formed, and written again it is what was read.** -/
theorem read_sound {bytes rest : Bytes} {c : Chunk} (h : read bytes = .ok c rest) :
    bytes = c.encode ++ rest ∧ c.WellFormed := by
  cases bytes with
  | nil => cases h
  | cons b bytes =>
    cases hform : PushForm.ofByte? b with
    | none =>
      rw [read_cons_of_none hform] at h
      cases h
      obtain ⟨hencode, hwell⟩ := encode_ofByte b
      exact ⟨by rw [hencode]; rfl, hwell⟩
    | some found =>
      obtain ⟨form, lengthBytes⟩ := found
      cases hdata : readData b lengthBytes bytes with
      | error e left =>
        rw [read_cons_of_error hform hdata] at h
        cases h
      | ok data left =>
        rw [read_cons_of_some hform hdata] at h
        cases h
        obtain ⟨hbytes, hwell⟩ := readData_sound hform hdata
        have hpush : DataPush.WellFormed ⟨form, data⟩ := hwell
        exact ⟨by rw [hbytes, ← DataPush.encode_of_wellFormed hpush]; rfl, hwell⟩

end Chunk

/-! ## 3. Whole scripts -/

namespace Program

@[simp] theorem parse_nil : parse [] = .ok [] := by
  simp only [parse, Chunk.stream_nil, ofStream]

theorem parse_of_read_ok {bytes rest : Bytes} {c : Chunk} (h : Chunk.read bytes = .ok c rest) :
    parse bytes = (parse rest).map (c :: ·) := by
  simp only [parse, Chunk.stream_of_read_ok h, ofStream]

theorem parse_of_read_error {bytes rest : Bytes} {e : ReadError} (hne : bytes ≠ [])
    (h : Chunk.read bytes = .error e rest) : parse bytes = .error e := by
  simp only [parse, Chunk.stream_of_read_error hne h, ofStream]

/-- What a script read from bytes starts with, and what the rest is read from. -/
theorem parse_eq_ok {bytes : Bytes} {p : Program} (h : parse bytes = .ok p) :
    (bytes = [] ∧ p = []) ∨
    ∃ c rest tail, Chunk.read bytes = .ok c rest ∧ p = c :: tail ∧ parse rest = .ok tail := by
  by_cases hnil : bytes = []
  · subst hnil
    rw [parse_nil] at h
    cases h
    exact .inl ⟨rfl, rfl⟩
  · right
    cases hr : Chunk.read bytes with
    | error e left =>
      rw [parse_of_read_error hnil hr] at h
      cases h
    | ok c rest =>
      rw [parse_of_read_ok hr] at h
      cases ht : parse rest with
      | error e => rw [ht] at h; cases h
      | ok tail =>
        rw [ht] at h
        cases h
        exact ⟨c, rest, tail, rfl, rfl, ht⟩

/-- **Reading and writing again** gives the bytes back, and every push is well-formed. -/
theorem encode_of_parse {bytes : Bytes} {p : Program} (h : parse bytes = .ok p) :
    p.encode = bytes ∧ ∀ c ∈ p, c.WellFormed := by
  induction p generalizing bytes with
  | nil =>
    rcases parse_eq_ok h with ⟨rfl, _⟩ | ⟨c, rest, tail, _, hp, _⟩
    · exact ⟨rfl, fun c hc => absurd hc List.not_mem_nil⟩
    · cases hp
  | cons d p ih =>
    rcases parse_eq_ok h with ⟨_, hp⟩ | ⟨c, rest, tail, hread, hp, hrest⟩
    · cases hp
    · cases hp
      obtain ⟨hbytes, hwell⟩ := Chunk.read_sound hread
      obtain ⟨hencode, hall⟩ := ih hrest
      refine ⟨by rw [encode_cons, hencode, ← hbytes], fun c hc => ?_⟩
      rcases List.mem_cons.mp hc with rfl | hc
      · exact hwell
      · exact hall c hc

/-- **Writing and reading again** gives the normal form of every chunk. -/
theorem parse_encode {p : Program} (h : ∀ c ∈ p, c.Writable) :
    parse p.encode = .ok (p.map Chunk.normal) := by
  induction p with
  | nil => exact parse_nil
  | cons c p ih =>
    have hc := Chunk.read_encode_append (h c List.mem_cons_self) (encode p)
    rw [encode_cons, parse_of_read_ok hc, ih fun d hd => h d (List.mem_cons_of_mem _ hd)]
    rfl

/-- A script of well-formed chunks is its own normal form. -/
theorem map_normal {p : Program} (h : ∀ c ∈ p, c.WellFormed) : p.map Chunk.normal = p := by
  refine List.map_congr_left (g := id) (fun c hc => ?_) |>.trans (List.map_id p)
  exact Chunk.normal_of_wellFormed (h c hc)

/-- **Scripts and bytes, both ways.** What is read from bytes is written as those bytes, with every
push well-formed. What is written is read back chunk by chunk: each pushes the same bytes and
starts with the same byte, and only a push whose form cannot say its length comes back in another
form. -/
theorem roundTrip :
    (∀ (bytes : Bytes) (p : Program), parse bytes = .ok p →
      p.encode = bytes ∧ p.byteLength = bytes.length ∧ ∀ c ∈ p, c.WellFormed) ∧
    (∀ p : Program, (∀ c ∈ p, c.Writable) → ∃ q : Program, parse p.encode = .ok q ∧
      q.length = p.length ∧
      ∀ (n : Nat) (c : Chunk), p[n]? = some c → ∃ d, q[n]? = some d ∧
        d.pushData? = c.pushData? ∧ d.byte = c.byte ∧ (c.WellFormed → d = c)) ∧
    (∀ c : Chunk, c.encode.head? = some c.byte) ∧
    (∀ p : Program, (∀ c ∈ p, c.Writable ∧ c.WellFormed) → parse p.encode = .ok p) := by
  refine ⟨fun bytes p h => ?_, fun p h => ?_, Chunk.head?_encode, fun p h => ?_⟩
  · obtain ⟨hencode, hwell⟩ := encode_of_parse h
    exact ⟨hencode, by rw [byteLength_eq, hencode], hwell⟩
  · refine ⟨p.map Chunk.normal, parse_encode h, List.length_map .., fun n c hc => ?_⟩
    have hmem : c ∈ p := List.mem_of_getElem? hc
    refine ⟨c.normal, by rw [List.getElem?_map, hc]; rfl, ?_, ?_, ?_⟩
    · exact Chunk.pushData?_normal (h c hmem)
    · exact Chunk.byte_normal c
    · exact Chunk.normal_of_wellFormed
  · rw [parse_encode fun c hc => (h c hc).1, map_normal fun c hc => (h c hc).2]

/-- An empty push of the direct form, and a byte that was never assigned. -/
theorem roundTrip_emptyDirect :
    (∃ q, parse (encode [.push (.data ⟨.direct, []⟩), .bad (.unknown 0xff)]) = .ok q ∧
      q.length = 2) ∧
    encode [.push (.data ⟨.pushData1, [7]⟩)] = [0x4c, 1, 7] := by
  obtain ⟨hread, hwrite, -, hexact⟩ := roundTrip
  obtain ⟨q, hq, hlength, -⟩ :=
    hwrite [.push (.data ⟨.direct, []⟩), .bad (.unknown 0xff)] (by decide)
  have hparse : parse [0x4c, 1, 7] = .ok [.push (.data ⟨.pushData1, [7]⟩)] :=
    hexact [.push (.data ⟨.pushData1, [7]⟩)] (by decide)
  exact ⟨⟨q, hq, hlength⟩, (hread [0x4c, 1, 7] _ hparse).1⟩

end Program

end SpendScript
