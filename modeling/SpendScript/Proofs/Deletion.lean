import SpendScript.Proofs.SignedCode
/-!
# Taking pushes out of a script

A signature cannot cover itself, so its pushes are taken out of the script that it signs. A script
is at hand as chunks, and the deletion compares whole chunks. The rule is older than the chunks,
though: it speaks of a scan over the bytes that leaves out every copy of the push it meets where a
chunk begins. This file says that the two are the same.

What this file fixes:

* `DataPush.writtenChunk` -- the chunk that writing a byte string appends, and the bytes it is read
  back from (`Chunk.read_written_append`).
* `Chunk.eq_of_written_prefix` -- written pushes are prefix-free: one that begins where a chunk
  begins is that chunk, so that the scan never cuts into a chunk.
* `Bytes.scan` -- the scan over bytes.
* `Program.encode_findAndDelete` -- the chunks that stay are written as what the scan copies, by
  induction along the chunks.
* `Program.findAndDelete_eq_scan` -- this, what is dropped, and deletion of several byte strings.
-/

namespace SpendScript

/-! ## 1. The chunk of a written push -/

/-- The chunk that writing a byte string into a script appends. -/
def DataPush.writtenChunk (data : Bytes) : Chunk :=
  match shortest? data with
  | some p => .push (.data p)
  | none => .push (.small (.num 0))

@[simp] theorem DataPush.encode_writtenChunk (data : Bytes) :
    (writtenChunk data).encode = written data := by
  unfold writtenChunk written
  cases shortest? data <;> rfl

theorem DataPush.written_ne_nil (data : Bytes) : written data ≠ [] := by
  rw [← encode_writtenChunk]
  exact Chunk.encode_ne_nil _

/-- Below four gibibytes every byte string but the empty one has a form of its own, and the empty
one is what the opcode of zero pushes. -/
theorem DataPush.pushData?_writtenChunk {data : Bytes} (hlt : data.length < 2 ^ 32) :
    (writtenChunk data).pushData? = some data := by
  unfold writtenChunk
  cases hshortest : shortest? data with
  | some p =>
    have hdata : p.data = data := (wellFormed_of_shortest? hshortest).2
    simp [Chunk.pushData?, Push.value, hdata]
  | none =>
    cases data with
    | nil => rfl
    | cons b data =>
      obtain ⟨p, hp⟩ := exists_shortest? (List.cons_ne_nil b data) hlt
      rw [hp] at hshortest
      cases hshortest

namespace Chunk

/-- **A written push is read back**, whatever follows it. -/
theorem read_written_append (data rest : Bytes) :
    read (DataPush.written data ++ rest) = .ok (DataPush.writtenChunk data) rest := by
  unfold DataPush.written DataPush.writtenChunk
  cases hshortest : DataPush.shortest? data with
  | some p =>
    have hwell : p.WellFormed := (DataPush.wellFormed_of_shortest? hshortest).1
    exact DataPush.read_encode_append hwell rest
  | none => rfl

/-- **Written pushes are prefix-free**: one that begins where a chunk begins is that chunk. -/
theorem eq_of_written_prefix {bytes rest data : Bytes} {c : Chunk}
    (hread : read bytes = .ok c rest) (hnext : DataPush.written data <+: bytes) :
    c = DataPush.writtenChunk data ∧ bytes = DataPush.written data ++ rest := by
  obtain ⟨tail, rfl⟩ := hnext
  have hwritten := read_written_append data tail
  rw [hread] at hwritten
  cases hwritten
  exact ⟨rfl, rfl⟩

end Chunk

/-! ## 2. The scan over bytes -/

/-- **The scan over the bytes of a script**, from chunk to chunk: where the pattern comes next it is
left out and the scan goes on behind it, and else the next chunk is copied. Bytes that start no
chunk are copied as they are. -/
def Bytes.scan (pattern bytes : Bytes) : Bytes :=
  if _h : pattern ≠ [] ∧ pattern <+: bytes then scan pattern (bytes.drop pattern.length)
  else
    match _hread : Chunk.read bytes with
    | .ok _ rest => bytes.take (bytes.length - rest.length) ++ scan pattern rest
    | .error _ _ => bytes
termination_by bytes.length
decreasing_by
  · have hpos := List.length_pos_iff.mpr _h.1
    have hle := _h.2.length_le
    rw [List.length_drop]
    omega
  · exact Chunk.length_lt_of_read _hread

namespace Bytes

@[simp] theorem scan_nil (pattern : Bytes) : scan pattern [] = [] := by
  have hmiss : ¬ (pattern ≠ [] ∧ pattern <+: []) := by
    rintro ⟨hne, hnext⟩
    exact hne (List.prefix_nil.mp hnext)
  rw [scan, dif_neg hmiss]
  rfl

/-- Where the pattern comes next it is left out. -/
theorem scan_append {pattern : Bytes} (hne : pattern ≠ []) (rest : Bytes) :
    scan pattern (pattern ++ rest) = scan pattern rest := by
  rw [scan, dif_pos ⟨hne, List.prefix_append pattern rest⟩, List.drop_left]

/-- Where another chunk comes next it is copied. -/
theorem scan_of_read {pattern bytes rest : Bytes} {c : Chunk}
    (hmiss : ¬ pattern <+: bytes) (hread : Chunk.read bytes = .ok c rest) :
    scan pattern bytes = c.encode ++ scan pattern rest := by
  have hbytes : bytes = c.encode ++ rest := (Chunk.read_sound hread).1
  have hcopied : bytes.take (bytes.length - rest.length) = c.encode := by
    rw [hbytes, List.length_append, Nat.add_sub_cancel, List.take_left]
  rw [scan, dif_neg fun h => hmiss h.2]
  split
  · next h =>
    rw [hread] at h
    cases h
    rw [hcopied]
  · next h =>
    rw [hread] at h
    cases h

end Bytes

/-! ## 3. Deletion -/

namespace Program

/-- Every chunk of a script that was read from bytes was read from its own. -/
theorem exists_read_of_mem {bytes : Bytes} {p : Program} (hparse : parse bytes = .ok p) {c : Chunk}
    (hmem : c ∈ p) : ∃ rest, Chunk.read (c.encode ++ rest) = .ok c rest := by
  induction p generalizing bytes with
  | nil => cases hmem
  | cons d p ih =>
    rcases parse_eq_ok hparse with ⟨_, hp⟩ | ⟨d, rest, tail, hread, hp, hrest⟩
    · cases hp
    · cases hp
      rcases List.mem_cons.mp hmem with rfl | hmem
      · have hbytes := (Chunk.read_sound hread).1
        rw [hbytes] at hread
        exact ⟨rest, hread⟩
      · exact ih hrest hmem

/-- **What is taken out of a script that was read from bytes** is the chunk of the written push, and
no other chunk is written alike. -/
theorem findAndDelete_eq_filter {bytes : Bytes} {p : Program} (hparse : parse bytes = .ok p)
    (data : Bytes) : p.findAndDelete data = p.filter (· ≠ DataPush.writtenChunk data) := by
  unfold findAndDelete
  refine List.filter_congr fun c hmem => ?_
  have hsame : c.encode = DataPush.written data ↔ c = DataPush.writtenChunk data := by
    constructor
    · intro hencode
      obtain ⟨rest, hread⟩ := exists_read_of_mem hparse hmem
      rw [hencode] at hread
      exact (Chunk.eq_of_written_prefix hread (List.prefix_append _ _)).1
    · rintro rfl
      exact DataPush.encode_writtenChunk data
  rw [Bool.eq_iff_iff, bne_iff_ne, decide_eq_true_iff]
  exact not_congr hsame

/-- **Deleting chunks is scanning bytes**, by induction along the chunks. A push that the scan meets
where a chunk begins is that whole chunk, and a chunk that is written as the push is met. -/
theorem encode_findAndDelete {bytes : Bytes} {p : Program} (hparse : parse bytes = .ok p)
    (data : Bytes) : (p.findAndDelete data).encode = Bytes.scan (DataPush.written data) bytes := by
  induction p generalizing bytes with
  | nil =>
    have hnil : bytes = [] := (encode_of_parse hparse).1.symm
    rw [hnil, Bytes.scan_nil]
    rfl
  | cons c p ih =>
    rcases parse_eq_ok hparse with ⟨_, hp⟩ | ⟨d, rest, tail, hread, hp, hrest⟩
    · cases hp
    · cases hp
      have ih := ih hrest
      by_cases hnext : DataPush.written data <+: bytes
      · obtain ⟨rfl, rfl⟩ := Chunk.eq_of_written_prefix hread hnext
        have hdropped : findAndDelete (DataPush.writtenChunk data :: p) data
            = findAndDelete p data := by
          simp [findAndDelete]
        rw [hdropped, Bytes.scan_append (DataPush.written_ne_nil data), ih]
      · have hkept : c.encode ≠ DataPush.written data := by
          intro hencode
          rw [(Chunk.read_sound hread).1, hencode] at hnext
          exact hnext (List.prefix_append _ _)
        have hcopied : findAndDelete (c :: p) data = c :: findAndDelete p data := by
          simp [findAndDelete, hkept]
        rw [hcopied, encode_cons, Bytes.scan_of_read hnext hread, ih]

/-- Only which byte strings are taken out matters. -/
theorem without_congr {sigs sigs' : List Bytes} (h : ∀ sig, sig ∈ sigs ↔ sig ∈ sigs')
    (p : Program) : p.without sigs = p.without sigs' := by
  unfold without
  refine List.filter_congr fun c _ => ?_
  rw [Bool.eq_iff_iff, List.all_eq_true, List.all_eq_true]
  exact forall_congr' fun sig => by rw [h sig]

/-- **Deletion by chunks is the scan over bytes.** For every script that was read from bytes: taking
a byte string out leaves what the scan of its written push copies. What is dropped is one chunk,
wherever it stands: the one that is written like this and pushes the byte string; all other chunks
stay in their order. Taking out several byte strings one after the other depends neither on their
order nor on repetitions, and taking one out twice is taking it out once. -/
theorem findAndDelete_eq_scan {bytes : Bytes} {p : Program} (hparse : parse bytes = .ok p) :
    (∀ data : Bytes, data.length < 2 ^ 32 →
      (p.findAndDelete data).encode = Bytes.scan (DataPush.written data) p.encode ∧
      ∃ dropped : Chunk, dropped.encode = DataPush.written data ∧
        dropped.pushData? = some data ∧ p.findAndDelete data = p.filter (· ≠ dropped)) ∧
    (∀ first second : List Bytes, (∀ data, data ∈ first ↔ data ∈ second) →
      first.foldl findAndDelete p = second.foldl findAndDelete p) ∧
    (∀ data, (p.findAndDelete data).findAndDelete data = p.findAndDelete data) := by
  refine ⟨?scan, ?order, ?twice⟩
  case scan =>
    intro data hlt
    have hbytes : p.encode = bytes := (encode_of_parse hparse).1
    refine ⟨?_, DataPush.writtenChunk data, ?_, ?_, ?_⟩
    · rw [hbytes]
      exact encode_findAndDelete hparse data
    · exact DataPush.encode_writtenChunk data
    · exact DataPush.pushData?_writtenChunk hlt
    · exact findAndDelete_eq_filter hparse data
  case order =>
    intro first second hsame
    rw [foldl_findAndDelete, foldl_findAndDelete]
    exact without_congr hsame p
  case twice =>
    intro data
    have honce := foldl_findAndDelete p [data]
    have htwice := foldl_findAndDelete p [data, data]
    have hsame : p.without [data, data] = p.without [data] := without_congr (by simp) p
    rw [hsame, ← honce] at htwice
    exact htwice

namespace Deletion

/-- A signature pushed directly, pushed in a wider form, and pushed directly again right behind
the opcode of a check. -/
def selfSigned : Program :=
  [.push (.data ⟨.direct, [0xaa, 0xbb]⟩), .push (.data ⟨.pushData1, [0xaa, 0xbb]⟩),
   .operation .checkSig, .push (.data ⟨.direct, [0xaa, 0xbb]⟩), .push (.small (.num 0))]

end Deletion

open Deletion in
/-- The wider push stays, and so do the same bytes inside of it. -/
theorem findAndDelete_eq_scan_widerPush :
    parse selfSigned.encode = .ok selfSigned ∧
    Bytes.scan [0x02, 0xaa, 0xbb]
        [0x02, 0xaa, 0xbb, 0x4c, 0x02, 0xaa, 0xbb, 0xac, 0x02, 0xaa, 0xbb, 0x00]
      = [0x4c, 0x02, 0xaa, 0xbb, 0xac, 0x00] ∧
    [[], [0xaa, 0xbb], []].foldl findAndDelete selfSigned
      = [[0xaa, 0xbb], []].foldl findAndDelete selfSigned := by
  have hparse : parse selfSigned.encode = .ok selfSigned := parse_encode (by decide)
  obtain ⟨hscan, horder, _⟩ := findAndDelete_eq_scan hparse
  obtain ⟨hbytes, _⟩ := hscan [0xaa, 0xbb] (by decide)
  refine ⟨hparse, hbytes.symm, horder _ _ ?_⟩
  intro data
  simp only [List.mem_cons, List.not_mem_nil, or_false]
  constructor
  · rintro (hnil | hsig | hnil)
    · exact .inr hnil
    · exact .inl hsig
    · exact .inr hnil
  · exact .inr

end Program

end SpendScript
