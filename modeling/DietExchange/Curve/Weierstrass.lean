import DietExchange.Bytes

/-!
Arithmetic on a short Weierstrass curve y ^ 2 = x ^ 3 - 3 x + b over a prime field. Points are
kept in Jacobian coordinates, where (x, y, z) stands for (x / z ^ 2, y / z ^ 3) and z = 0 for the
point at infinity, so that a multiplication needs one inversion at its end.
-/

namespace DietExchange

/-- A curve over the field of `p` elements with a base point of prime order. -/
structure Weierstrass where
  p : Nat
  b : Nat
  order : Nat
  baseX : Nat
  baseY : Nat

namespace Weierstrass

/-- A point in Jacobian coordinates. -/
structure Jacobian where
  x : Nat
  y : Nat
  z : Nat
  deriving DecidableEq

/-- A finite point. -/
structure Affine where
  x : Nat
  y : Nat
  deriving DecidableEq

variable (curve : Weierstrass)

def add (a b : Nat) : Nat := (a + b) % curve.p

def sub (a b : Nat) : Nat := (a + (curve.p - b % curve.p)) % curve.p

def mul (a b : Nat) : Nat := a * b % curve.p

def square (a : Nat) : Nat := a * a % curve.p

/-- The power of `base` whose exponent is the number of the highest `count` of `bits` bits. -/
def powBits (base exponent bits : Nat) : (count : Nat) → Nat
  | 0 => 1
  | count + 1 =>
    let doubled := curve.square (powBits base exponent bits count)
    if exponent.testBit (bits - (count + 1)) then curve.mul doubled base else doubled

/-- The power of a field element. -/
def pow (base exponent : Nat) : Nat :=
  let bits := exponent.log2 + 1
  curve.powBits base exponent bits bits

/-- The inverse of a field element other than 0. -/
def inverse (a : Nat) : Nat := curve.pow a (curve.p - 2)

/-- The right-hand side of the curve's equation. -/
def rightSide (x : Nat) : Nat :=
  curve.add (curve.sub (curve.mul (curve.square x) x) (curve.mul 3 x)) curve.b

/-- Whether both coordinates are field elements that satisfy the curve's equation. -/
def contains (point : Affine) : Bool :=
  point.x < curve.p && point.y < curve.p && curve.square point.y == curve.rightSide point.x

/-- A square root, if there is one. The field has 4 n + 3 elements, so the power with exponent n + 1
    is a root of every square. -/
def squareRoot? (a : Nat) : Option Nat :=
  let root := curve.pow a ((curve.p + 1) / 4)
  if curve.square root = a then some root else none

/-- The point with this first coordinate whose second coordinate is odd or even as asked. -/
def lift? (x : Nat) (odd : Bool) : Option Affine :=
  if x < curve.p then
    (curve.squareRoot? (curve.rightSide x)).map fun root =>
      ⟨x, if (root % 2 == 1) == odd then root else curve.sub 0 root⟩
  else
    none

def infinity : Jacobian := ⟨1, 1, 0⟩

def toJacobian (point : Affine) : Jacobian := ⟨point.x, point.y, 1⟩

/-- Twice a point. -/
def double (point : Jacobian) : Jacobian :=
  let delta := curve.square point.z
  let gamma := curve.square point.y
  let beta := curve.mul point.x gamma
  let alpha := curve.mul 3 (curve.mul (curve.sub point.x delta) (curve.add point.x delta))
  let x := curve.sub (curve.square alpha) (curve.mul 8 beta)
  let z := curve.mul (curve.mul 2 point.y) point.z
  let y := curve.sub (curve.mul alpha (curve.sub (curve.mul 4 beta) x))
    (curve.mul 8 (curve.square gamma))
  ⟨x, y, z⟩

/-- The sum of two points. -/
def addPoints (a b : Jacobian) : Jacobian :=
  if a.z = 0 then b
  else if b.z = 0 then a
  else
    let az := curve.square a.z
    let bz := curve.square b.z
    let ax := curve.mul a.x bz
    let bx := curve.mul b.x az
    let ay := curve.mul a.y (curve.mul bz b.z)
    let otherY := curve.mul b.y (curve.mul az a.z)
    if ax = bx then
      if ay = otherY then curve.double a else infinity
    else
      let h := curve.sub bx ax
      let r := curve.sub otherY ay
      let hh := curve.square h
      let hhh := curve.mul hh h
      let v := curve.mul ax hh
      let x := curve.sub (curve.sub (curve.square r) hhh) (curve.mul 2 v)
      let y := curve.sub (curve.mul r (curve.sub v x)) (curve.mul ay hhh)
      ⟨x, y, curve.mul (curve.mul a.z b.z) h⟩

/-- The multiple of a point by the number of the highest `count` of `bits` bits. -/
def multiplyBits (scalar bits : Nat) (point : Jacobian) : (count : Nat) → Jacobian
  | 0 => infinity
  | count + 1 =>
    let doubled := curve.double (multiplyBits scalar bits point count)
    if scalar.testBit (bits - (count + 1)) then curve.addPoints doubled point else doubled

/-- The finite point with these coordinates; infinity has none. -/
def toAffine? (point : Jacobian) : Option Affine :=
  if point.z = 0 then none
  else
    let inverse := curve.inverse point.z
    let inverse2 := curve.square inverse
    some ⟨curve.mul point.x inverse2, curve.mul point.y (curve.mul inverse2 inverse)⟩

/-- The multiple of a finite point, unless it is infinity. -/
def multiply? (scalar : Nat) (point : Affine) : Option Affine :=
  let bits := scalar.log2 + 1
  curve.toAffine? (curve.multiplyBits scalar bits (toJacobian point) bits)

/-- The base point. -/
def base : Affine := ⟨curve.baseX, curve.baseY⟩

/-- The curve P-256. -/
def p256 : Weierstrass where
  p := 0xffffffff00000001000000000000000000000000ffffffffffffffffffffffff
  b := 0x5ac635d8aa3a93e7b3ebbd55769886bc651d06b0cc53b0f63bce3c3e27d2604b
  order := 0xffffffff00000000ffffffffffffffffbce6faada7179e84f3b9cac2fc632551
  baseX := 0x6b17d1f2e12c4247f8bce6e563a440f277037d812deb33a0f4a13945d898c296
  baseY := 0x4fe342e2fe1a7f9b8ee7eb4a7c0f9e162bce33576b315ececbb6406837bf51f5

/-- The curve P-384. -/
def p384 : Weierstrass where
  p := 0xfffffffffffffffffffffffffffffffffffffffffffffffffffffffffffffffeffffffff0000000000000000ffffffff
  b := 0xb3312fa7e23ee7e4988e056be3f82d19181d9c6efe8141120314088f5013875ac656398d8a2ed19d2a85c8edd3ec2aef
  order :=
    0xffffffffffffffffffffffffffffffffffffffffffffffffc7634d81f4372ddf581a0db248b0a77aecec196accc52973
  baseX :=
    0xaa87ca22be8b05378eb1c71ef320ad746e1d3b628ba79b9859f741e082542a385502f25dbf55296c3a545e3872760ab7
  baseY :=
    0x3617de4a96262c6f5d9e98bf9292dc29f8f41dbd289a147ce9da3113b5f0b8c00a60b1ce1d7e819d7a431d7c90ea0e5f

end Weierstrass

end DietExchange
