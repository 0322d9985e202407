import SpendScript.Hash.Block
/-!
# SHA-1

What this file fixes:

* `Sha1.State` -- the five chaining words, so that a digest has 20 bytes by its type.
* `Sha1.schedule` -- the eighty words of a block.
* `Sha1.digest` -- the blocks of the padded message folded over the initial state.
-/

namespace SpendScript.Sha1

open Hash

/-- The five chaining words. -/
structure State where
  a : UInt32
  b : UInt32
  c : UInt32
  d : UInt32
  e : UInt32

/-- The initial chaining words. -/
def State.start : State := ⟨0x67452301, 0xefcdab89, 0x98badcfe, 0x10325476, 0xc3d2e1f0⟩

/-- Word-wise sum. -/
def State.add (s t : State) : State := ⟨s.a + t.a, s.b + t.b, s.c + t.c, s.d + t.d, s.e + t.e⟩

def State.words (s : State) : List UInt32 := [s.a, s.b, s.c, s.d, s.e]

/-- Appends `n` words, each from the words 16, 14, 8 and 3 places before it. -/
def extend : Nat → Array UInt32 → Array UInt32
  | 0, w => w
  | n + 1, w =>
    let at' := fun back => w.getD (w.size - back) 0
    extend n (w.push (rotateLeft (at' 3 ^^^ at' 8 ^^^ at' 14 ^^^ at' 16) 1))

/-- The eighty words that the rounds of a block consume. -/
def schedule (block : List UInt32) : List UInt32 := (extend 64 block.toArray).toList

/-- The mixing function and the constant of the `i`-th round. -/
def mix (i : Nat) (b c d : UInt32) : UInt32 :=
  if i < 20 then ((b &&& c) ||| (~~~b &&& d)) + 0x5a827999
  else if i < 40 then (b ^^^ c ^^^ d) + 0x6ed9eba1
  else if i < 60 then ((b &&& c) ||| (b &&& d) ||| (c &&& d)) + 0x8f1bbcdc
  else (b ^^^ c ^^^ d) + 0xca62c1d6

/-- The rounds from the `i`-th on, one per word. -/
def rounds : Nat → List UInt32 → State → State
  | _, [], s => s
  | i, w :: ws, s =>
    let next := rotateLeft s.a 5 + mix i s.b s.c s.d + s.e + w
    rounds (i + 1) ws ⟨next, s.a, rotateLeft s.b 30, s.c, s.d⟩

/-- The chaining words after a block. -/
def compress (s : State) (block : List UInt32) : State := s.add (rounds 0 (schedule block) s)

/-- The 20-byte digest of a message. -/
def digest (message : Bytes) : Bytes :=
  wordsBytes .bigEndian ((blocks .bigEndian message).foldl compress State.start).words

@[simp] theorem length_digest (message : Bytes) : (digest message).length = 20 := by
  simp [digest, State.words]

end SpendScript.Sha1
