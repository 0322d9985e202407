import SpendScript.Opcode
import SpendScript.Push
/-!
# Chunks: the items of a script

What this file fixes:

* `Chunk` -- a push or an opcode, with its first byte, its bytes and its assembly notation.
* `Chunk.read` -- the first chunk of a byte string, and the bytes that are left. Every byte starts
  some chunk, so reading fails only where a push is cut short (`ReadError`).
* `length_lt_of_read`, `eq_nil_of_read_error` -- a chunk takes at least one byte, and an error
  leaves nothing, so that reading chunk after chunk ends.
* `EStateM.bind_ok`, `EStateM.bind_error`, `EStateM.eq_ok_of_bind`, `EStateM.eq_error_of_bind` --
  steps in sequence, here of reading and later on stacks and in sessions.
-/

namespace SpendScript

/-- One item of a script. -/
inductive Chunk where
  | push (p : Push)
  | control (c : Control)
  | operation (o : Operation)
  | disabled (d : Disabled)
  | bad (b : Bad)
  deriving DecidableEq, Repr

/-- A push, or a length before it, that needs more bytes than there are. -/
structure ReadError where
  expected : Nat
  available : Nat
  deriving DecidableEq, Repr

def ReadError.message (e : ReadError) : String :=
  s!"expected {e.expected} bytes, but only {e.available} bytes available"

/-! ## 1. Steps in sequence -/

namespace EStateM

variable {ε σ α β : Type} {x : EStateM ε σ α} {f : α → EStateM ε σ β} {s t : σ}

/-- What follows a result is run on it, and on the state that is left. -/
theorem bind_ok {a : α} (h : x s = .ok a t) : (x >>= f) s = f a t := by
  show EStateM.bind x f s = _
  unfold EStateM.bind
  rw [h]

/-- What follows a failure is not run. -/
theorem bind_error {e : ε} (h : x s = .error e t) : (x >>= f) s = .error e t := by
  show EStateM.bind x f s = _
  unfold EStateM.bind
  rw [h]

/-- A sequence that succeeds is two pieces that do. -/
theorem eq_ok_of_bind {b : β} (h : (x >>= f) s = .ok b t) :
    ∃ a r, x s = .ok a r ∧ f a r = .ok b t := by
  cases hx : x s with
  | error e r => rw [bind_error hx] at h; cases h
  | ok a r => rw [bind_ok hx] at h; exact ⟨a, r, rfl, h⟩

/-- A sequence that fails has one piece that does. -/
theorem eq_error_of_bind {e : ε} (h : (x >>= f) s = .error e t) :
    x s = .error e t ∨ ∃ a r, x s = .ok a r ∧ f a r = .error e t := by
  cases hx : x s with
  | error d r => rw [bind_error hx] at h; cases h; exact .inl rfl
  | ok a r => rw [bind_ok hx] at h; exact .inr ⟨a, r, rfl, h⟩

end EStateM

namespace Chunk

/-! ## 2. Parts of a chunk -/

/-- The first byte as it is written. -/
def byte : Chunk → UInt8
  | push p => p.byte
  | control c => c.byte
  | operation o => o.byte
  | disabled d => d.byte
  | bad b => b.byte

/-- The chunk as part of a script. -/
def encode : Chunk → Bytes
  | push p => p.encode
  | control c => [c.byte]
  | operation o => [o.byte]
  | disabled d => [d.byte]
  | bad b => [b.byte]

/-- The stack element that a push places, and nothing for an opcode. -/
def pushData? : Chunk → Option Bytes
  | push p => some p.value
  | _ => none

/-- Whether no shorter chunk does the same; only pushes can fail this. -/
def isCanonical : Chunk → Bool
  | push p => p.isMinimal
  | _ => true

/-- Whether this is no push, or a push whose form can say its length. -/
def WellFormed : Chunk → Prop
  | push p => p.WellFormed
  | _ => True

instance (c : Chunk) : Decidable c.WellFormed := by
  cases c <;> unfold WellFormed <;> infer_instance

/-- Assembly notation: the name of an opcode, or the pushed bytes as hexadecimal text. -/
def asm : Chunk → String
  | push p => p.asm
  | control c => c.name
  | operation o => o.name
  | disabled d => d.name
  | bad b => b.name

/-- The largest first byte of a push. Opcodes above it count towards the limit on operations. -/
def lastPushByte : UInt8 := (SmallValue.num 16).byte

/-- **A chunk starts with its byte.** -/
theorem encode_eq_cons (c : Chunk) : c.encode = c.byte :: c.encode.tail := by
  cases c with
  | push p => exact p.encode_eq_cons
  | control c => rfl
  | operation o => rfl
  | disabled d => rfl
  | bad b => rfl

theorem encode_ne_nil (c : Chunk) : c.encode ≠ [] := by
  rw [encode_eq_cons]; exact List.cons_ne_nil _ _

/-! ## 3. Reading -/

/-- The opcode of a byte that starts no push of bytes. -/
def ofByte (b : UInt8) : Chunk :=
  match SmallValue.ofByte? b with
  | some v => push (.small v)
  | none =>
    match Control.ofByte? b with
    | some c => control c
    | none =>
      match Operation.ofByte? b with
      | some o => operation o
      | none =>
        match Disabled.ofByte? b with
        | some d => disabled d
        | none => bad (.ofByte b)

/-- A step of reading: what comes of it, and the bytes that are left. An error leaves bytes too. -/
abbrev ReadStep (α : Type) := EStateM ReadError Bytes α

/-- The first `n` bytes. Where there are fewer, none of them is left. -/
def split (n : Nat) : ReadStep Bytes := fun bytes =>
  let head := bytes.take n
  if head.length = n then .ok head (bytes.drop n) else .error ⟨n, bytes.length⟩ []

/-- The bytes of a push, given how many bytes the length takes; with none, the opcode byte was the
length. -/
def readData (opcode : UInt8) (lengthBytes : Nat) : ReadStep Bytes :=
  if lengthBytes = 0 then split opcode.toNat
  else do
    let length ← split lengthBytes
    split length.toNatLE

/-- The push of some bytes in a form. -/
def pushOf (form : PushForm) (data : Bytes) : ReadStep Chunk := return push (.data ⟨form, data⟩)

/-- The first chunk. -/
def read : ReadStep Chunk
  | [] => .error ⟨1, 0⟩ []
  | b :: bytes =>
    match PushForm.ofByte? b with
    | some (form, lengthBytes) => (readData b lengthBytes >>= pushOf form) bytes
    | none => .ok (ofByte b) bytes

theorem eq_append_of_split {n : Nat} {bytes head rest : Bytes}
    (h : split n bytes = .ok head rest) : bytes = head ++ rest ∧ head.length = n := by
  unfold split at h
  dsimp only at h
  split at h
  · next hn => cases h; exact ⟨(List.take_append_drop n bytes).symm, hn⟩
  · cases h

theorem eq_nil_of_split_error {n : Nat} {bytes rest : Bytes} {e : ReadError}
    (h : split n bytes = .error e rest) : rest = [] := by
  unfold split at h
  dsimp only at h
  split at h
  · cases h
  · cases h; rfl

/-- A length in bytes of its own is read before what it counts. -/
theorem readData_eq_bind {opcode : UInt8} {lengthBytes : Nat} (hpos : lengthBytes ≠ 0) :
    readData opcode lengthBytes = split lengthBytes >>= fun length => split length.toNatLE :=
  if_neg hpos

theorem length_le_of_readData {opcode : UInt8} {lengthBytes : Nat} {bytes data rest : Bytes}
    (h : readData opcode lengthBytes bytes = .ok data rest) : rest.length ≤ bytes.length := by
  by_cases hpos : lengthBytes = 0
  · unfold readData at h
    rw [if_pos hpos] at h
    rw [(eq_append_of_split h).1, List.length_append]
    exact Nat.le_add_left _ _
  · rw [readData_eq_bind hpos] at h
    obtain ⟨length, left, hlength, hdata⟩ := EStateM.eq_ok_of_bind h
    rw [(eq_append_of_split hlength).1, (eq_append_of_split hdata).1, List.length_append,
      List.length_append]
    omega

theorem eq_nil_of_readData_error {opcode : UInt8} {lengthBytes : Nat} {bytes rest : Bytes}
    {e : ReadError} (h : readData opcode lengthBytes bytes = .error e rest) : rest = [] := by
  by_cases hpos : lengthBytes = 0
  · unfold readData at h
    rw [if_pos hpos] at h
    exact eq_nil_of_split_error h
  · rw [readData_eq_bind hpos] at h
    rcases EStateM.eq_error_of_bind h with hlength | ⟨_, _, _, hdata⟩
    · exact eq_nil_of_split_error hlength
    · exact eq_nil_of_split_error hdata

/-- A byte that starts no push of bytes is a chunk of its own. -/
theorem read_cons_of_none {b : UInt8} (h : PushForm.ofByte? b = none) (rest : Bytes) :
    read (b :: rest) = .ok (ofByte b) rest := by
  simp only [read, h]

/-- A byte that starts a push of bytes. -/
theorem read_cons_of_some {b : UInt8} {form : PushForm} {lengthBytes : Nat}
    (h : PushForm.ofByte? b = some (form, lengthBytes)) {bytes data rest : Bytes}
    (hdata : readData b lengthBytes bytes = .ok data rest) :
    read (b :: bytes) = .ok (push (.data ⟨form, data⟩)) rest := by
  simp only [read, h, EStateM.bind_ok hdata]
  rfl

/-- A push whose bytes cannot be read. -/
theorem read_cons_of_error {b : UInt8} {form : PushForm} {lengthBytes : Nat}
    (h : PushForm.ofByte? b = some (form, lengthBytes)) {bytes rest : Bytes} {e : ReadError}
    (hdata : readData b lengthBytes bytes = .error e rest) :
    read (b :: bytes) = .error e rest := by
  simp only [read, h, EStateM.bind_error hdata]

/-- **A chunk takes at least one byte.** -/
theorem length_lt_of_read {bytes rest : Bytes} {c : Chunk} (h : read bytes = .ok c rest) :
    rest.length < bytes.length := by
  cases bytes with
  | nil => cases h
  | cons b bytes =>
    cases hform : PushForm.ofByte? b with
    | none =>
      rw [read_cons_of_none hform] at h
      cases h
      exact Nat.lt_succ_self _
    | some form =>
      cases hdata : readData b form.2 bytes with
      | error e left =>
        rw [read_cons_of_error hform hdata] at h
        cases h
      | ok data left =>
        rw [read_cons_of_some hform hdata] at h
        cases h
        exact Nat.lt_succ_of_le (length_le_of_readData hdata)

/-- **An error leaves nothing to read.** -/
theorem eq_nil_of_read_error {bytes rest : Bytes} {e : ReadError}
    (h : read bytes = .error e rest) : rest = [] := by
  cases bytes with
  | nil => cases h; rfl
  | cons b bytes =>
    cases hform : PushForm.ofByte? b with
    | none =>
      rw [read_cons_of_none hform] at h
      cases h
    | some form =>
      cases hdata : readData b form.2 bytes with
      | ok data left =>
        rw [read_cons_of_some hform hdata] at h
        cases h
      | error d left =>
        rw [read_cons_of_error hform hdata] at h
        cases h
        exact eq_nil_of_readData_error hdata

end Chunk

end SpendScript
