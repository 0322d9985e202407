import SpendScript.Bytes
import SpendScript.Curve.Point
/-!
# Public keys as byte strings

What this file fixes:

* `PublicKey.point?` -- the point that a serialized key stands for. A key is 33 bytes, of which
  the first says whether `y` is even (2) or odd (3), or 65 bytes starting with 4; 65 bytes may
  also start with 6 or 7, and then the first byte has to tell the parity of `y` as well. Anything
  else, and any point off the curve, is no key.
* `PublicKey.compressed` -- the 33-byte form of a point.
* `PublicKey.isCompressedOrUncompressed` -- the test of the form alone, which the strict encoding
  rule asks for; the point may still be off the curve.
-/

namespace SpendScript.Curve.PublicKey

/-- The point with the given `x` whose `y` has the given parity. -/
def ofX? (x : Nat) (odd : Bool) : Option Point :=
  let root := sqrtMod (cubic x)
  let y := if (root % 2 == 1) == odd then root else fieldPrime - root
  let q : Point := ⟨x, y⟩
  if q.isOnCurve then some q else none

/-- The point with the given coordinates, if it is on the curve. -/
def ofXY? (x y : Nat) : Option Point :=
  let q : Point := ⟨x, y⟩
  if q.isOnCurve then some q else none

/-- The point that a serialized key stands for. -/
def point? : Bytes → Option Point
  | [] => none
  | form :: body =>
    if form = 2 ∨ form = 3 then
      if body.length = 32 then ofX? (Bytes.toNatBE body) (form == 3) else none
    else if form = 4 ∨ form = 6 ∨ form = 7 then
      if body.length = 64 then
        let y := Bytes.toNatBE (body.drop 32)
        if form = 6 ∧ y % 2 = 1 ∨ form = 7 ∧ y % 2 = 0 then none
        else ofXY? (Bytes.toNatBE (body.take 32)) y
      else none
    else none

/-- The 33-byte form of a point. -/
def compressed (q : Point) : Bytes :=
  (if q.y % 2 = 1 then 3 else 2) :: Bytes.ofNatBE 32 q.x

/-- 65 bytes starting with 4, or 33 bytes starting with 2 or 3. -/
def isCompressedOrUncompressed (key : Bytes) : Bool :=
  match key with
  | [] => false
  | form :: _ =>
    if form = 4 then key.length == 65
    else if form = 2 ∨ form = 3 then key.length == 33
    else false

end SpendScript.Curve.PublicKey
