import SpendScript.Chunk
/-!
# Scripts

What this file fixes:

* `Program` -- a script is the list of its chunks.
* `Chunk.stream` -- the chunks of a byte string one by one. The stream ends with the bytes; after a
  push that is cut short there are none left (`Chunk.stream_of_read_error`).
* `Program.parse` / `Program.encode` -- the chunks of a whole byte string, and back.
* The questions that verification asks of a script: whether it only pushes, whether it is a
  pay-to-script-hash output, what is left from a position on, what is left without the pushes of a
  signature, and how many signature checks it can cause.
-/

namespace SpendScript

/-- A script: its chunks in order. -/
abbrev Program := List Chunk

/-! ## 1. Reading and writing -/

/-- Everything that can be read from a byte string, chunk by chunk, each from the bytes that the one
before left. -/
def Chunk.stream : Bytes → List (Except ReadError Chunk)
  | [] => []
  | b :: bytes =>
    match _h : Chunk.read (b :: bytes) with
    | .ok c rest => .ok c :: Chunk.stream rest
    | .error e rest => .error e :: Chunk.stream rest
termination_by bytes => bytes.length
decreasing_by
  · exact Chunk.length_lt_of_read _h
  · rw [Chunk.eq_nil_of_read_error _h]
    exact Nat.zero_lt_succ _

@[simp] theorem Chunk.stream_nil : Chunk.stream [] = [] := by
  rw [Chunk.stream]

theorem Chunk.stream_of_read_ok {bytes rest : Bytes} {c : Chunk}
    (h : Chunk.read bytes = .ok c rest) :
    Chunk.stream bytes = .ok c :: Chunk.stream rest := by
  cases bytes with
  | nil => cases h
  | cons b bytes =>
    rw [Chunk.stream]
    split
    · next h' => rw [h] at h'; cases h'; rfl
    · next h' => rw [h] at h'; cases h'

/-- **Nothing is read after an error.** -/
theorem Chunk.stream_of_read_error {bytes rest : Bytes} {e : ReadError} (hne : bytes ≠ [])
    (h : Chunk.read bytes = .error e rest) : Chunk.stream bytes = [.error e] := by
  obtain rfl := Chunk.eq_nil_of_read_error h
  cases bytes with
  | nil => exact absurd rfl hne
  | cons b bytes =>
    rw [Chunk.stream]
    split
    · next h' => rw [h] at h'; cases h'
    · next h' =>
      rw [h] at h'
      cases h'
      rw [Chunk.stream_nil]

namespace Program

/-- The chunks of a stream, or the error that it ends with. -/
def ofStream : List (Except ReadError Chunk) → Except ReadError Program
  | [] => .ok []
  | .error e :: _ => .error e
  | .ok c :: rest => (ofStream rest).map (c :: ·)

/-- The chunks of a byte string. This fails only if a push claims more bytes than remain; what an
opcode means is left to evaluation. -/
def parse (bytes : Bytes) : Except ReadError Program := ofStream (Chunk.stream bytes)

/-- The byte string of a script. -/
def encode (p : Program) : Bytes := p.flatMap Chunk.encode

/-- The length of the byte string. -/
def byteLength (p : Program) : Nat := p.foldr (fun c n => c.encode.length + n) 0

/-- Assembly notation: the chunks with blanks between them. -/
def asm (p : Program) : String := " ".intercalate (p.map Chunk.asm)

@[simp] theorem encode_nil : encode [] = [] := rfl

@[simp] theorem encode_cons (c : Chunk) (p : Program) :
    encode (c :: p) = c.encode ++ encode p := by
  simp [encode]

@[simp] theorem encode_append (p q : Program) : encode (p ++ q) = encode p ++ encode q := by
  simp [encode]

theorem byteLength_eq (p : Program) : byteLength p = (encode p).length := by
  induction p with
  | nil => rfl
  | cons c p ih =>
    rw [encode_cons, List.length_append, ← ih]
    rfl

/-! ## 2. Questions about a script -/

/-- Whether every chunk starts like a push. The test is on bytes, so the reserved opcode 80 passes,
though it fails when it is run. -/
def isPushOnly (p : Program) : Bool := p.all fun c => c.byte ≤ Chunk.lastPushByte

/-- Whether the script compares the hash of the top element with 20 bytes pushed directly. -/
def isPayToScriptHash : Program → Bool
  | [.operation .hash160, .push (.data ⟨.direct, hash⟩), .operation .equal] => hash.length == 20
  | _ => false

/-- The chunks from a position on. -/
def subscript (p : Program) (start : Nat) : Program := p.drop start

/-- The script without the chunks that are the written push of a byte string. A signature cannot
cover itself, so its pushes are taken out of what it signs. -/
def findAndDelete (p : Program) (data : Bytes) : Program :=
  let pattern := DataPush.written data
  p.filter fun c => c.encode != pattern

/-- The most keys that a signature check of several keys may list. -/
def maxPubKeyCount : Nat := 20

/-- How many signature checks a chunk can cause after the chunk before it. A check of several keys
counts for as many as the number pushed just before it if that is asked for, and else for the most
keys there can be. -/
def sigOpsOf (accurate : Bool) (previous : Option Chunk) : Chunk → Nat
  | .operation .checkSig | .operation .checkSigVerify => 1
  | .operation .checkMultisig | .operation .checkMultisigVerify =>
    match previous with
    | some (.push (.small (.num n))) => if accurate && 1 ≤ n.val then n.val else maxPubKeyCount
    | _ => maxPubKeyCount
  | _ => 0

/-- How many signature checks a script can cause, after the chunk before it. -/
def sigOpsFrom (accurate : Bool) : Option Chunk → Program → Nat
  | _, [] => 0
  | previous, c :: rest => sigOpsOf accurate previous c + sigOpsFrom accurate (some c) rest

/-- How many signature checks a script can cause. -/
def sigOpCount (p : Program) (accurate : Bool) : Nat := sigOpsFrom accurate none p

end Program

end SpendScript
