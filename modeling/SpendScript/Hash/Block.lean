import SpendScript.Bytes
/-!
# Messages cut into blocks of sixteen words

The three digest functions of this library read their message the same way: a one bit, zero bits
and the length in bits are appended until blocks of 64 bytes are full, and each block is read as
sixteen words of 32 bits. They differ in the byte order of the length and of the words.

What this file fixes:

* `Hash.Order` -- which byte of a word comes first.
* `Hash.padded` / `Hash.blocks` -- the padded message and its blocks.
* `Hash.words` -- the words of a block, and `Hash.wordBytes`, a word written back.
-/

namespace SpendScript.Hash

/-- Which byte of a word is written first. -/
inductive Order where
  | bigEndian
  | littleEndian
  deriving DecidableEq, Repr

/-- The four bytes of a word. -/
def wordBytes : Order → UInt32 → Bytes
  | .bigEndian, w => [(w >>> 24).toUInt8, (w >>> 16).toUInt8, (w >>> 8).toUInt8, w.toUInt8]
  | .littleEndian, w => [w.toUInt8, (w >>> 8).toUInt8, (w >>> 16).toUInt8, (w >>> 24).toUInt8]

@[simp] theorem length_wordBytes (order : Order) (w : UInt32) :
    (wordBytes order w).length = 4 := by
  cases order <;> rfl

/-- The bytes of a list of words, one word after the other. -/
def wordsBytes (order : Order) (ws : List UInt32) : Bytes := ws.flatMap (wordBytes order)

@[simp] theorem length_wordsBytes (order : Order) (ws : List UInt32) :
    (wordsBytes order ws).length = 4 * ws.length := by
  induction ws with
  | nil => rfl
  | cons w ws ih => simp only [wordsBytes, List.flatMap_cons, List.length_append, length_wordBytes,
      List.length_cons] at ih ⊢; omega

/-- The word that four bytes spell. -/
def word : Order → UInt8 → UInt8 → UInt8 → UInt8 → UInt32
  | .bigEndian, a, b, c, d =>
    (a.toUInt32 <<< 24) ||| (b.toUInt32 <<< 16) ||| (c.toUInt32 <<< 8) ||| d.toUInt32
  | .littleEndian, a, b, c, d =>
    a.toUInt32 ||| (b.toUInt32 <<< 8) ||| (c.toUInt32 <<< 16) ||| (d.toUInt32 <<< 24)

/-- The words of a block; bytes that fill no word are dropped. -/
def words (order : Order) : Bytes → List UInt32
  | a :: b :: c :: d :: rest => word order a b c d :: words order rest
  | _ => []

/-- The message, a one bit, the fewest zero bits, and the length of the message in bits. -/
def padded (order : Order) (message : Bytes) : Bytes :=
  let bits := 8 * message.length
  let zeros := (119 - message.length % 64) % 64
  let length := match order with
    | .bigEndian => Bytes.ofNatBE 8 bits
    | .littleEndian => Bytes.ofNatLE 8 bits
  message ++ 128 :: List.replicate zeros 0 ++ length

/-- The first `n` blocks of 64 bytes. -/
def cut : Nat → Bytes → List Bytes
  | 0, _ => []
  | n + 1, bs => bs.take 64 :: cut n (bs.drop 64)

/-- **Padding fills whole blocks.** -/
theorem length_padded_mod (order : Order) (message : Bytes) :
    (padded order message).length % 64 = 0 := by
  cases order <;>
    simp only [padded, List.length_append, List.length_cons, List.length_replicate,
      Bytes.length_ofNatBE, Bytes.length_ofNatLE] <;> omega

/-- The blocks of the padded message, each as sixteen words. -/
def blocks (order : Order) (message : Bytes) : List (List UInt32) :=
  let all := padded order message
  (cut (all.length / 64) all).map (words order)

/-- Rotation of a word to the left. -/
def rotateLeft (w : UInt32) (n : UInt32) : UInt32 := (w <<< n) ||| (w >>> (32 - n))

/-- Rotation of a word to the right. -/
def rotateRight (w : UInt32) (n : UInt32) : UInt32 := (w >>> n) ||| (w <<< (32 - n))

end SpendScript.Hash
