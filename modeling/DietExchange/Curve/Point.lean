import DietExchange.Curve.Weierstrass

/-!
Points as byte strings. A point is written as 4 and both coordinates; it is also read from 2 or 3
and its first coordinate, where the leading byte tells whether the second is even or odd, and from
5 and its first coordinate, where the lesser of both candidates is meant.
-/

namespace DietExchange.Weierstrass

/-- A 4 and both coordinates, each of `width` bytes. -/
def encodePoint (width : Nat) (point : Affine) : List UInt8 :=
  0x04 :: (bigEndian width point.x ++ bigEndian width point.y)

/-- The lesser of the two points that share a first coordinate. -/
def liftLesser? (curve : Weierstrass) (x : Nat) : Option Affine :=
  (curve.lift? x false).map fun point => ⟨x, min point.y (curve.sub 0 point.y)⟩

/-- The point that the bytes stand for. Its coordinates have exactly `width` bytes and it lies on
    the curve; infinity is not accepted. -/
def decodePoint? (curve : Weierstrass) (width : Nat) (bytes : List UInt8) : Option Affine :=
  match bytes with
  | [] => none
  | form :: coordinates =>
    let x := bigEndianValue (coordinates.take width)
    if form = 0x04 then
      let point : Affine := ⟨x, bigEndianValue (coordinates.drop width)⟩
      if coordinates.length = 2 * width ∧ curve.contains point then some point else none
    else if coordinates.length ≠ width then none
    else if form = 0x02 then curve.lift? x false
    else if form = 0x03 then curve.lift? x true
    else if form = 0x05 then curve.liftLesser? x
    else none

theorem length_encodePoint (width : Nat) (point : Affine) :
    (encodePoint width point).length = 1 + 2 * width := by
  simp only [encodePoint, List.length_cons, List.length_append, length_bigEndian]
  omega

end DietExchange.Weierstrass
