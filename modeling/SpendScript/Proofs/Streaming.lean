import SpendScript.Proofs.Serialization
/-!
# Reading chunk by chunk

A script is read in one pass, and the only thing that can go wrong is a push that is cut short. This
file says when that happens without the reader, that nothing is read after it, and that two scripts
one after the other are read as the chunks of the one and then those of the other.

What this file fixes:

* `Chunk.CutShort` -- a push whose length, or whose bytes, go on beyond the end, and
  `Chunk.read_eq_error_iff`, that reading fails there and nowhere else.
* `Chunk.read_append` -- what follows a chunk has no part in reading it.
* `Chunk.exists_stream_eq`, `Chunk.stream_eq_append` -- the items of a stream: chunks, then perhaps
  one error, and where the stream stands after each of them.
* `Program.parse_append` -- a script behind a script.
* `Program.streaming` -- all of this together, for the stream and for whole scripts.
-/

namespace SpendScript

namespace Chunk

/-! ## 1. Where a push is cut short -/

/-- How many bytes follow the opcode byte of a push to say its length. -/
inductive SaysLengthIn : (opcode : UInt8) → (width : Nat) → Prop
  | one : SaysLengthIn 0x4c 1
  | two : SaysLengthIn 0x4d 2
  | four : SaysLengthIn 0x4e 4

/-- **A push that needs more bytes than are left**: for the bytes that the opcode byte counts
itself, for the length behind it, or for the bytes that this length counts. -/
inductive CutShort : Bytes → ReadError → Prop
  | direct {opcode : UInt8} {left : Bytes} (hopcode : 1 ≤ opcode ∧ opcode ≤ 0x4b)
      (hfew : left.length < opcode.toNat) : CutShort (opcode :: left) ⟨opcode.toNat, left.length⟩
  | length {opcode : UInt8} {width : Nat} {left : Bytes} (hopcode : SaysLengthIn opcode width)
      (hfew : left.length < width) : CutShort (opcode :: left) ⟨width, left.length⟩
  | payload {opcode : UInt8} {length left : Bytes} (hopcode : SaysLengthIn opcode length.length)
      (hfew : left.length < length.toNatLE) :
      CutShort (opcode :: (length ++ left)) ⟨length.toNatLE, left.length⟩

theorem split_of_lt {n : Nat} {bytes : Bytes} (h : bytes.length < n) :
    split n bytes = .error ⟨n, bytes.length⟩ [] := by
  have hfew : (bytes.take n).length ≠ n := by
    rw [List.length_take]
    omega
  exact if_neg hfew

theorem split_of_le {n : Nat} {bytes : Bytes} (h : n ≤ bytes.length) :
    split n bytes = .ok (bytes.take n) (bytes.drop n) := if_pos (List.length_take_of_le h)

theorem split_eq_error_iff {n : Nat} {bytes : Bytes} {e : ReadError} :
    split n bytes = .error e [] ↔ bytes.length < n ∧ e = ⟨n, bytes.length⟩ := by
  rcases Nat.lt_or_ge bytes.length n with hfew | henough
  · rw [split_of_lt hfew]
    exact ⟨fun h => ⟨hfew, by cases h; rfl⟩, fun h => by rw [h.2]⟩
  · rw [split_of_le henough]
    exact ⟨nofun, fun h => absurd h.1 (Nat.not_lt.mpr henough)⟩

/-- A length in bytes of its own, and what it counts: either may be cut short. -/
theorem readData_eq_error_iff {opcode : UInt8} {width : Nat} (hpos : width ≠ 0) {bytes : Bytes}
    {e : ReadError} : readData opcode width bytes = .error e [] ↔
      (bytes.length < width ∧ e = ⟨width, bytes.length⟩) ∨
      ∃ length left, bytes = length ++ left ∧ length.length = width ∧
        left.length < length.toNatLE ∧ e = ⟨length.toNatLE, left.length⟩ := by
  rw [readData_eq_bind hpos]
  constructor
  · intro h
    rcases EStateM.eq_error_of_bind h with hlength | ⟨length, left, hlength, hdata⟩
    · exact .inl (split_eq_error_iff.mp hlength)
    · obtain ⟨hbytes, hwidth⟩ := eq_append_of_split hlength
      exact .inr ⟨length, left, hbytes, hwidth, split_eq_error_iff.mp hdata⟩
  · rintro (⟨hlt, rfl⟩ | ⟨length, left, rfl, rfl, hlt, rfl⟩)
    · exact EStateM.bind_error (split_of_lt hlt)
    · rw [EStateM.bind_ok (split_append length left)]
      exact split_of_lt hlt

/-- A push fails to be read if its bytes do. -/
theorem read_cons_eq_error_iff {opcode : UInt8} {form : PushForm} {width : Nat}
    (hform : PushForm.ofByte? opcode = some (form, width)) {bytes : Bytes} {e : ReadError} :
    read (opcode :: bytes) = .error e [] ↔ readData opcode width bytes = .error e [] := by
  cases hdata : readData opcode width bytes with
  | ok data left =>
    rw [read_cons_of_some hform hdata]
    exact ⟨nofun, nofun⟩
  | error d left =>
    rw [read_cons_of_error hform hdata]
    exact ⟨fun h => by cases h; rfl, fun h => by cases h; rfl⟩

theorem SaysLengthIn.ofByte? {opcode : UInt8} {width : Nat} (h : SaysLengthIn opcode width) :
    width ≠ 0 ∧ ∃ form, PushForm.ofByte? opcode = some (form, width) := by
  cases h with
  | one => exact ⟨by decide, .pushData1, rfl⟩
  | two => exact ⟨by decide, .pushData2, rfl⟩
  | four => exact ⟨by decide, .pushData4, rfl⟩

/-- A push whose length follows its opcode byte: both ways to be cut short. -/
theorem read_eq_error_iff_of_saysLengthIn {opcode : UInt8} {width : Nat}
    (hopcode : SaysLengthIn opcode width) {bytes : Bytes} {e : ReadError} :
    read (opcode :: bytes) = .error e [] ↔
      (bytes.length < width ∧ e = ⟨width, bytes.length⟩) ∨
      ∃ length left, bytes = length ++ left ∧ length.length = width ∧
        left.length < length.toNatLE ∧ e = ⟨length.toNatLE, left.length⟩ := by
  obtain ⟨hpos, form, hform⟩ := hopcode.ofByte?
  rw [read_cons_eq_error_iff hform, readData_eq_error_iff hpos]

/-- A push whose opcode byte is its length. -/
theorem read_eq_error_iff_of_direct {opcode : UInt8} (hopcode : 1 ≤ opcode ∧ opcode ≤ 0x4b)
    {bytes : Bytes} {e : ReadError} : read (opcode :: bytes) = .error e [] ↔
      bytes.length < opcode.toNat ∧ e = ⟨opcode.toNat, bytes.length⟩ := by
  rw [UInt8.le_iff_toNat_le, UInt8.le_iff_toNat_le] at hopcode
  have hform : PushForm.ofByte? opcode = some (.direct, 0) := by
    have h := PushForm.ofByte?_direct hopcode
    rwa [UInt8.ofNat_toNat] at h
  rw [read_cons_eq_error_iff hform]
  exact split_eq_error_iff

/-- **Reading fails where a push is cut short**, and nowhere else. -/
theorem read_eq_error_iff {bytes : Bytes} (hne : bytes ≠ []) {e : ReadError} :
    read bytes = .error e [] ↔ CutShort bytes e := by
  constructor
  · intro h
    obtain _ | ⟨opcode, bytes⟩ := bytes
    · exact absurd rfl hne
    have htagged : ∀ width, SaysLengthIn opcode width → CutShort (opcode :: bytes) e := by
      intro width hopcode
      rcases (read_eq_error_iff_of_saysLengthIn hopcode).mp h with
        ⟨hfew, rfl⟩ | ⟨length, left, rfl, rfl, hfew, rfl⟩
      · exact .length hopcode hfew
      · exact .payload hopcode hfew
    cases hform : PushForm.ofByte? opcode with
    | none =>
      rw [read_cons_of_none hform] at h
      cases h
    | some found =>
      obtain ⟨form, width⟩ := found
      rcases PushForm.ofByte?_eq_some hform with
        ⟨rfl, _⟩ | ⟨rfl, _⟩ | ⟨rfl, _⟩ | ⟨hlo, hhi, _⟩
      · exact htagged 1 .one
      · exact htagged 2 .two
      · exact htagged 4 .four
      · obtain ⟨hfew, rfl⟩ := (read_eq_error_iff_of_direct ⟨hlo, hhi⟩).mp h
        exact .direct ⟨hlo, hhi⟩ hfew
  · intro h
    cases h with
    | direct hopcode hfew => exact (read_eq_error_iff_of_direct hopcode).mpr ⟨hfew, rfl⟩
    | length hopcode hfew =>
      exact (read_eq_error_iff_of_saysLengthIn hopcode).mpr (.inl ⟨hfew, rfl⟩)
    | payload hopcode hfew =>
      exact (read_eq_error_iff_of_saysLengthIn hopcode).mpr
        (.inr ⟨_, _, rfl, rfl, hfew, rfl⟩)

theorem CutShort.ne_nil {bytes : Bytes} {e : ReadError} (h : CutShort bytes e) : bytes ≠ [] := by
  cases h <;> exact List.cons_ne_nil _ _

/-! ## 2. More bytes behind a chunk -/

theorem split_append_of_ok {n : Nat} {bytes head rest : Bytes}
    (h : split n bytes = .ok head rest) (more : Bytes) :
    split n (bytes ++ more) = .ok head (rest ++ more) := by
  obtain ⟨rfl, rfl⟩ := eq_append_of_split h
  rw [List.append_assoc, split_append]

theorem readData_append {opcode : UInt8} {width : Nat} {bytes data rest : Bytes}
    (h : readData opcode width bytes = .ok data rest) (more : Bytes) :
    readData opcode width (bytes ++ more) = .ok data (rest ++ more) := by
  by_cases hpos : width = 0
  · unfold readData at h ⊢
    rw [if_pos hpos] at h ⊢
    exact split_append_of_ok h more
  · rw [readData_eq_bind hpos] at h ⊢
    obtain ⟨length, left, hlength, hdata⟩ := EStateM.eq_ok_of_bind h
    rw [EStateM.bind_ok (split_append_of_ok hlength more)]
    exact split_append_of_ok hdata more

/-- **What follows a chunk has no part in reading it.** -/
theorem read_append {bytes rest : Bytes} {c : Chunk} (h : read bytes = .ok c rest)
    (more : Bytes) : read (bytes ++ more) = .ok c (rest ++ more) := by
  obtain _ | ⟨opcode, bytes⟩ := bytes
  · cases h
  cases hform : PushForm.ofByte? opcode with
  | none =>
    rw [read_cons_of_none hform] at h
    cases h
    exact read_cons_of_none hform _
  | some found =>
    obtain ⟨form, width⟩ := found
    cases hdata : readData opcode width bytes with
    | error d left =>
      rw [read_cons_of_error hform hdata] at h
      cases h
    | ok data left =>
      rw [read_cons_of_some hform hdata] at h
      cases h
      exact read_cons_of_some hform (readData_append hdata more)

/-! ## 3. The items of a stream -/

/-- **A stream is chunks, then perhaps one error**, by induction on the bytes that are left. -/
theorem exists_stream_eq (bytes : Bytes) : ∃ p : Program,
    stream bytes = p.map .ok ∨ ∃ e, stream bytes = p.map .ok ++ [.error e] := by
  induction hlength : bytes.length using Nat.strongRecOn generalizing bytes with
  | _ n ih =>
    by_cases hnil : bytes = []
    · rw [hnil, stream_nil]
      exact ⟨[], .inl rfl⟩
    cases hread : read bytes with
    | error e left =>
      rw [stream_of_read_error hnil hread]
      exact ⟨[], .inr ⟨e, rfl⟩⟩
    | ok c rest =>
      rw [stream_of_read_ok hread]
      obtain ⟨p, hp⟩ := ih rest.length (hlength ▸ length_lt_of_read hread) rest rfl
      refine ⟨c :: p, hp.imp (fun h => ?_) fun ⟨e, h⟩ => ⟨e, ?_⟩⟩
      · rw [h, List.map_cons]
      · rw [h, List.map_cons, List.cons_append]

/-- A chunk takes at least one byte, and so does an error. -/
theorem length_stream_le (bytes : Bytes) : (stream bytes).length ≤ bytes.length := by
  induction hlength : bytes.length using Nat.strongRecOn generalizing bytes with
  | _ n ih =>
    by_cases hnil : bytes = []
    · rw [hnil, stream_nil]
      exact Nat.zero_le n
    cases hread : read bytes with
    | error e left =>
      rw [stream_of_read_error hnil hread, ← hlength]
      exact List.length_pos_iff.mpr hnil
    | ok c rest =>
      have hless : rest.length < n := hlength ▸ length_lt_of_read hread
      rw [stream_of_read_ok hread]
      exact Nat.le_trans (Nat.succ_le_succ (ih _ hless rest rfl)) hless

/-- The first item of a stream is an error where a push is cut short. -/
theorem head?_stream_eq_error_iff {bytes : Bytes} {e : ReadError} :
    (stream bytes).head? = some (.error e) ↔ CutShort bytes e := by
  by_cases hnil : bytes = []
  · rw [hnil, stream_nil]
    exact ⟨nofun, fun h => absurd rfl h.ne_nil⟩
  rw [← read_eq_error_iff hnil]
  cases hread : read bytes with
  | error d left =>
    rw [stream_of_read_error hnil hread, eq_nil_of_read_error hread]
    exact ⟨fun h => by cases h; rfl, fun h => by cases h; rfl⟩
  | ok c rest =>
    rw [stream_of_read_ok hread]
    exact ⟨nofun, nofun⟩

theorem stream_eq_nil_iff {bytes : Bytes} : stream bytes = [] ↔ bytes = [] := by
  constructor
  · intro h
    by_cases hnil : bytes = []
    · exact hnil
    cases hread : read bytes with
    | error e left => rw [stream_of_read_error hnil hread] at h; cases h
    | ok c rest => rw [stream_of_read_ok hread] at h; cases h
  · rintro rfl
    exact stream_nil

/-- **After some chunks the stream goes on with the bytes behind them**, by induction on the
chunks. -/
theorem stream_eq_append {bytes : Bytes} {p : Program} {later : List (Except ReadError Chunk)}
    (h : stream bytes = p.map .ok ++ later) :
    ∃ unread, bytes = p.encode ++ unread ∧ later = stream unread := by
  induction p generalizing bytes with
  | nil => exact ⟨bytes, rfl, h.symm⟩
  | cons d p ih =>
    have hnil : bytes ≠ [] := by
      rintro rfl
      rw [stream_nil] at h
      cases h
    cases hread : read bytes with
    | error e left =>
      rw [stream_of_read_error hnil hread] at h
      cases h
    | ok c rest =>
      rw [stream_of_read_ok hread] at h
      obtain ⟨hc, htail⟩ := List.cons.inj h
      cases hc
      obtain ⟨unread, hrest, hlater⟩ := ih htail
      refine ⟨unread, ?_, hlater⟩
      rw [Program.encode_cons, List.append_assoc, ← hrest]
      exact (read_sound hread).1

end Chunk

/-! ## 4. Whole scripts -/

namespace Program

theorem ofStream_map_ok_append (p : Program) (later : List (Except ReadError Chunk)) :
    ofStream (p.map .ok ++ later) = (ofStream later).map (p ++ ·) := by
  induction p with
  | nil =>
    show ofStream later = _
    cases ofStream later <;> rfl
  | cons c p ih =>
    show (ofStream (p.map .ok ++ later)).map (c :: ·) = _
    rw [ih]
    cases ofStream later <;> rfl

theorem ofStream_map_ok (p : Program) : ofStream (p.map .ok) = .ok p := by
  have h := ofStream_map_ok_append p []
  rw [List.append_nil] at h
  rw [h]
  exact congrArg Except.ok (List.append_nil p)

/-- **A script is the chunks of its stream**, if the stream has no error. -/
theorem parse_eq_ok_iff {bytes : Bytes} {p : Program} :
    parse bytes = .ok p ↔ Chunk.stream bytes = p.map .ok := by
  unfold parse
  constructor
  · intro h
    obtain ⟨q, hq | ⟨e, hq⟩⟩ := Chunk.exists_stream_eq bytes
    · rw [hq, ofStream_map_ok] at h
      cases h
      exact hq
    · rw [hq, ofStream_map_ok_append] at h
      cases h
  · intro h
    rw [h, ofStream_map_ok]

/-- **A script fails to be read with the error of its stream.** -/
theorem parse_eq_error_iff {bytes : Bytes} {e : ReadError} :
    parse bytes = .error e ↔ .error e ∈ Chunk.stream bytes := by
  have hnone : ∀ q : Program, .error e ∉ q.map (Except.ok (ε := ReadError)) := by
    intro q h
    obtain ⟨c, _, hc⟩ := List.mem_map.mp h
    cases hc
  obtain ⟨q, hq | ⟨d, hq⟩⟩ := Chunk.exists_stream_eq bytes
  · rw [parse_eq_ok_iff.mpr hq, hq]
    exact ⟨nofun, fun h => absurd h (hnone q)⟩
  · have hparse : parse bytes = .error d := by
      unfold parse
      rw [hq, ofStream_map_ok_append]
      rfl
    rw [hparse, hq, List.mem_append, List.mem_singleton]
    exact ⟨fun h => .inr (by cases h; rfl), fun h => by cases h.resolve_left (hnone q); rfl⟩

/-- **A script behind a script** is read as the chunks of the one and then what comes of the
other. -/
theorem parse_append {a : Bytes} {p : Program} (h : parse a = .ok p) (b : Bytes) :
    parse (a ++ b) = (parse b).map (p ++ ·) := by
  induction p generalizing a with
  | nil =>
    rcases parse_eq_ok h with ⟨rfl, _⟩ | ⟨_, _, _, _, hp, _⟩
    · show parse b = _
      cases parse b <;> rfl
    · cases hp
  | cons d p ih =>
    rcases parse_eq_ok h with ⟨_, hp⟩ | ⟨c, rest, tail, hread, hp, htail⟩
    · cases hp
    · cases hp
      rw [parse_of_read_ok (Chunk.read_append hread b), ih htail]
      cases parse b <;> rfl

/-- **Reading chunk by chunk.** A stream has no more items than there are bytes: chunks, then
perhaps one error. After any of its chunks it goes on with the bytes behind them, of which there are
none where it ends; the next item is an error exactly where these bytes start with a push that is
cut short, and it says what the push needs and what there is. A script is read as the chunks of its
stream if that has no error, and fails with that error otherwise. Behind a script that is read
another one is read as if it stood alone. -/
theorem streaming :
    (∀ bytes : Bytes,
      (Chunk.stream bytes).length ≤ bytes.length ∧
      (∃ p : Program, Chunk.stream bytes = p.map .ok ∨
        ∃ e, Chunk.stream bytes = p.map .ok ++ [.error e]) ∧
      (∀ (p : Program) (later : List (Except ReadError Chunk)),
        Chunk.stream bytes = p.map .ok ++ later →
          ∃ unread, bytes = p.encode ++ unread ∧ (later = [] → unread = []) ∧
            ∀ e, later.head? = some (.error e) ↔ Chunk.CutShort unread e) ∧
      (∀ p, parse bytes = .ok p ↔ Chunk.stream bytes = p.map .ok) ∧
      (∀ e, parse bytes = .error e ↔ .error e ∈ Chunk.stream bytes)) ∧
    (∀ (a b : Bytes) (p : Program), parse a = .ok p →
      (∀ q, parse b = .ok q → parse (a ++ b) = .ok (p ++ q)) ∧
      (∀ e, parse b = .error e → parse (a ++ b) = .error e)) := by
  refine ⟨fun bytes => ⟨Chunk.length_stream_le bytes, Chunk.exists_stream_eq bytes, ?_,
    fun p => parse_eq_ok_iff, fun e => parse_eq_error_iff⟩, fun a b p ha => ⟨?_, ?_⟩⟩
  · intro p later h
    obtain ⟨unread, hbytes, rfl⟩ := Chunk.stream_eq_append h
    exact ⟨unread, hbytes, Chunk.stream_eq_nil_iff.mp, fun e => Chunk.head?_stream_eq_error_iff⟩
  · intro q hb
    rw [parse_append ha, hb]
    rfl
  · intro e hb
    rw [parse_append ha, hb]
    rfl

/-- Two opcodes, and behind them a push that says five bytes and has one. -/
theorem streaming_cutShort :
    parse [0x51, 0xa9] = .ok [.push (.small (.num 1)), .operation .hash160] ∧
    Chunk.CutShort [0x4c, 5, 0xff] ⟨5, 1⟩ ∧ parse [0x4c, 5, 0xff] = .error ⟨5, 1⟩ ∧
    parse ([0x51, 0xa9] ++ [0x4c, 5, 0xff]) = .error ⟨5, 1⟩ := by
  obtain ⟨hstream, happend⟩ := streaming
  have hread : parse [0x51, 0xa9] = .ok [.push (.small (.num 1)), .operation .hash160] :=
    parse_encode (p := [.push (.small (.num 1)), .operation .hash160]) (by decide)
  have hcut : Chunk.CutShort [0x4c, 5, 0xff] ⟨5, 1⟩ :=
    @Chunk.CutShort.payload 0x4c [5] [0xff] .one (by decide)
  obtain ⟨-, -, hafter, -, hfails⟩ := hstream [0x4c, 5, 0xff]
  obtain ⟨unread, hunread, -, hnext⟩ := hafter [] _ rfl
  obtain rfl : _ = unread := hunread
  have herror : parse [0x4c, 5, 0xff] = .error ⟨5, 1⟩ :=
    (hfails _).mpr (List.mem_of_head? ((hnext _).mpr hcut))
  exact ⟨hread, hcut, herror, (happend _ _ _ hread).2 _ herror⟩

end Program

end SpendScript
