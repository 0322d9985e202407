import SpendScript.Curve.Field
/-!
# Points of the curve `y² = x³ + 7`

What this file fixes:

* `Point` -- a point by its two coordinates.
* `Projective` -- a point as `(x / z², y / z³)`, the form that sums are computed in because they
  need no division; `z = 0` is the point at infinity.
* `Projective.add`, `Projective.double`, `Projective.times` -- the group law and multiples by
  doubling and adding.
* `generator` -- the base point, of which a public key is the multiple by its secret.
-/

namespace SpendScript.Curve

/-- A point by its coordinates. -/
structure Point where
  x : Nat
  y : Nat
  deriving DecidableEq, Repr

/-- The right-hand side of the curve's equation. -/
def cubic (x : Nat) : Nat := (x * x % fieldPrime * x + 7) % fieldPrime

/-- Whether the coordinates are in range and satisfy the equation. -/
def Point.isOnCurve (q : Point) : Bool :=
  q.x < fieldPrime && q.y < fieldPrime && q.y * q.y % fieldPrime == cubic q.x

/-- The base point. -/
def generator : Point where
  x := 0x79be667ef9dcbbac55a06295ce870b07029bfcdb2dce28d959f2815b16f81798
  y := 0x483ada7726a3c4655da4fbfc0e1108a8fd17b448a68554199c47d08ffb10d4b8

/-- The point `(x / z², y / z³)`, or the point at infinity when `z` is zero. -/
structure Projective where
  x : Nat
  y : Nat
  z : Nat

namespace Projective

/-- The point at infinity, which is the neutral element of the group. -/
def infinity : Projective := ⟨1, 1, 0⟩

def ofPoint (q : Point) : Projective := ⟨q.x, q.y, 1⟩

/-- The coordinates, or nothing for the point at infinity. -/
def toPoint? (q : Projective) : Option Point :=
  if q.z = 0 then none
  else
    let inv := inverseMod fieldPrime q.z
    let inv2 := inv * inv % fieldPrime
    some ⟨q.x * inv2 % fieldPrime, q.y * (inv2 * inv % fieldPrime) % fieldPrime⟩

/-- Twice a point, by the tangent. -/
def double (q : Projective) : Projective :=
  if q.z = 0 ∨ q.y = 0 then infinity
  else
    let yy := q.y * q.y % fieldPrime
    let s := 4 * q.x * yy % fieldPrime
    let m := 3 * q.x * q.x % fieldPrime
    let x := subMod (m * m) (2 * s)
    let y := subMod (m * subMod s x) (8 * yy * yy)
    ⟨x, y, 2 * q.y * q.z % fieldPrime⟩

/-- The sum of two points, by the chord, or by the tangent where they are equal. -/
def add (q r : Projective) : Projective :=
  if q.z = 0 then r
  else if r.z = 0 then q
  else
    let qzz := q.z * q.z % fieldPrime
    let rzz := r.z * r.z % fieldPrime
    let u1 := q.x * rzz % fieldPrime
    let u2 := r.x * qzz % fieldPrime
    let s1 := q.y * (rzz * r.z % fieldPrime) % fieldPrime
    let s2 := r.y * (qzz * q.z % fieldPrime) % fieldPrime
    if u1 = u2 then
      if s1 = s2 then double q else infinity
    else
      let h := subMod u2 u1
      let hh := h * h % fieldPrime
      let hhh := hh * h % fieldPrime
      let v := u1 * hh % fieldPrime
      let d := subMod s2 s1
      let x := subMod (d * d) (hhh + 2 * v)
      let y := subMod (d * subMod v x) (s1 * hhh)
      ⟨x, y, h * (q.z * r.z % fieldPrime) % fieldPrime⟩

/-- The `k`-fold sum of a point, by doubling and adding. -/
def times (k : Nat) (q : Projective) : Projective :=
  if k = 0 then infinity
  else
    let half := double (times (k / 2) q)
    if k % 2 = 1 then add half q else half
termination_by k

end Projective

/-- The multiple of a point, or nothing for the point at infinity. -/
def Point.times? (k : Nat) (q : Point) : Option Point :=
  ((Projective.ofPoint q).times k).toPoint?

end SpendScript.Curve
