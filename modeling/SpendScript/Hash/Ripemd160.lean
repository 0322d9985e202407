import SpendScript.Hash.Block
/-!
# RIPEMD-160

What this file fixes:

* `Ripemd160.State` -- the five chaining words, so that a digest has 20 bytes by its type.
* `Ripemd160.Line` -- the data of one of the two parallel lines of eighty rounds: which word a
  round reads, by how much it rotates, which mixing function and which constant it uses.
* `Ripemd160.digest` -- the blocks of the padded message folded over the initial state.
-/

namespace SpendScript.Ripemd160

open Hash

/-- The five chaining words. -/
structure State where
  a : UInt32
  b : UInt32
  c : UInt32
  d : UInt32
  e : UInt32

/-- The initial chaining words. -/
def State.start : State := ⟨0x67452301, 0xefcdab89, 0x98badcfe, 0x10325476, 0xc3d2e1f0⟩

def State.words (s : State) : List UInt32 := [s.a, s.b, s.c, s.d, s.e]

/-- The `j`-th of the five mixing functions. -/
def mix (j : Nat) (x y z : UInt32) : UInt32 :=
  match j with
  | 0 => x ^^^ y ^^^ z
  | 1 => (x &&& y) ||| (~~~x &&& z)
  | 2 => (x ||| ~~~y) ^^^ z
  | 3 => (x &&& z) ||| (y &&& ~~~z)
  | _ => x ^^^ (y ||| ~~~z)

/-- Sixteen rounds of a line: mixing function, constant, and per round the word and the rotation. -/
structure Phase where
  mixer : Nat
  constant : UInt32
  steps : List (Nat × UInt32)

/-- One of the two parallel lines. -/
abbrev Line := List Phase

/-- The line that mixes with the functions in ascending order. -/
def left : Line :=
  [⟨0, 0x00000000, [(0, 11), (1, 14), (2, 15), (3, 12), (4, 5), (5, 8), (6, 7), (7, 9),
      (8, 11), (9, 13), (10, 14), (11, 15), (12, 6), (13, 7), (14, 9), (15, 8)]⟩,
   ⟨1, 0x5a827999, [(7, 7), (4, 6), (13, 8), (1, 13), (10, 11), (6, 9), (15, 7), (3, 15),
      (12, 7), (0, 12), (9, 15), (5, 9), (2, 11), (14, 7), (11, 13), (8, 12)]⟩,
   ⟨2, 0x6ed9eba1, [(3, 11), (10, 13), (14, 6), (4, 7), (9, 14), (15, 9), (8, 13), (1, 15),
      (2, 14), (7, 8), (0, 13), (6, 6), (13, 5), (11, 12), (5, 7), (12, 5)]⟩,
   ⟨3, 0x8f1bbcdc, [(1, 11), (9, 12), (11, 14), (10, 15), (0, 14), (8, 15), (12, 9), (4, 8),
      (13, 9), (3, 14), (7, 5), (15, 6), (14, 8), (5, 6), (6, 5), (2, 12)]⟩,
   ⟨4, 0xa953fd4e, [(4, 9), (0, 15), (5, 5), (9, 11), (7, 6), (12, 8), (2, 13), (10, 12),
      (14, 5), (1, 12), (3, 13), (8, 14), (11, 11), (6, 8), (15, 5), (13, 6)]⟩]

/-- The line that mixes with the functions in descending order. -/
def right : Line :=
  [⟨4, 0x50a28be6, [(5, 8), (14, 9), (7, 9), (0, 11), (9, 13), (2, 15), (11, 15), (4, 5),
      (13, 7), (6, 7), (15, 8), (8, 11), (1, 14), (10, 14), (3, 12), (12, 6)]⟩,
   ⟨3, 0x5c4dd124, [(6, 9), (11, 13), (3, 15), (7, 7), (0, 12), (13, 8), (5, 9), (10, 11),
      (14, 7), (15, 7), (8, 12), (12, 7), (4, 6), (9, 15), (1, 13), (2, 11)]⟩,
   ⟨2, 0x6d703ef3, [(15, 9), (5, 7), (1, 15), (3, 11), (7, 8), (14, 6), (6, 6), (9, 14),
      (11, 12), (8, 13), (12, 5), (2, 14), (10, 13), (0, 13), (4, 7), (13, 5)]⟩,
   ⟨1, 0x7a6d76e9, [(8, 15), (6, 5), (4, 8), (1, 11), (3, 14), (11, 14), (15, 6), (0, 14),
      (5, 6), (12, 9), (2, 12), (13, 9), (9, 12), (7, 5), (10, 15), (14, 8)]⟩,
   ⟨0, 0x00000000, [(12, 8), (15, 5), (10, 12), (4, 9), (1, 12), (5, 5), (8, 14), (7, 6),
      (6, 8), (2, 13), (13, 6), (14, 5), (0, 15), (3, 13), (9, 11), (11, 11)]⟩]

/-- One round. -/
def round (mixer : Nat) (constant : UInt32) (block : Array UInt32) (s : State)
    (step : Nat × UInt32) : State :=
  let t := s.a + mix mixer s.b s.c s.d + block.getD step.1 0 + constant
  ⟨s.e, rotateLeft t step.2 + s.e, s.b, rotateLeft s.c 10, s.d⟩

/-- The eighty rounds of a line. -/
def run (line : Line) (block : Array UInt32) (s : State) : State :=
  line.foldl (fun s p => p.steps.foldl (round p.mixer p.constant block) s) s

/-- The chaining words after a block: both lines start from the same words and are summed
crosswise. -/
def compress (s : State) (block : List UInt32) : State :=
  let l := run left block.toArray s
  let r := run right block.toArray s
  ⟨s.b + l.c + r.d, s.c + l.d + r.e, s.d + l.e + r.a, s.e + l.a + r.b, s.a + l.b + r.c⟩

/-- The 20-byte digest of a message. -/
def digest (message : Bytes) : Bytes :=
  wordsBytes .littleEndian ((blocks .littleEndian message).foldl compress State.start).words

@[simp] theorem length_digest (message : Bytes) : (digest message).length = 20 := by
  simp [digest, State.words]

end SpendScript.Ripemd160
