import DietExchange.Bytes

namespace DietExchange.Aes

/-- Multiplication by x. -/
def timesX (byte : UInt8) : UInt8 :=
  if byte < 0x80 then byte <<< 1 else (byte <<< 1) ^^^ 0x1b

/-- Multiplication of two bytes: `a` times the lowest `bits` bits of `b`. -/
def mulBits : (bits : Nat) → (a b : UInt8) → UInt8
  | 0, _, _ => 0
  | bits + 1, a, b =>
    (if b &&& 1 = 1 then a else 0) ^^^ mulBits bits (timesX a) (b >>> 1)

def mul (a b : UInt8) : UInt8 := mulBits 8 a b

/-- The product of the first `count` powers of `byte` whose exponents are 2, 4, 8 and so on. -/
def mulSquares : (count : Nat) → (byte : UInt8) → UInt8
  | 0, _ => 1
  | count + 1, byte =>
    let square := mul byte byte
    mul square (mulSquares count square)

/-- The multiplicative inverse, with 0 for 0. The field has 255 other elements, so the inverse is
    the power with exponent 254, which is 2 + 4 + ... + 128. -/
def inverse (byte : UInt8) : UInt8 := mulSquares 7 byte

def rotateLeft (byte : UInt8) (count : Nat) : UInt8 :=
  UInt8.ofNat (byte.toNat <<< count) ||| UInt8.ofNat (byte.toNat >>> (8 - count))

/-- The affine map that follows the inversion. -/
def affine (byte : UInt8) : UInt8 :=
  byte ^^^ rotateLeft byte 1 ^^^ rotateLeft byte 2 ^^^ rotateLeft byte 3 ^^^ rotateLeft byte
    4 ^^^ 0x63

/-- The substitution box as a table. -/
def substitutionTable : Vector UInt8 256 :=
  Vector.ofFn fun index => affine (inverse (UInt8.ofNat index.val))

/-- The substitution box. -/
def substitute (byte : UInt8) : UInt8 := substitutionTable[byte.toFin]

/-- The table holds the affine image of each byte's inverse. -/
theorem substitute_eq (byte : UInt8) : substitute byte = affine (inverse byte) := by
  have hbyte : UInt8.ofNat byte.toFin.val = byte := UInt8.ofNat_toNat
  rw [substitute, substitutionTable, Fin.getElem_fin, Vector.getElem_ofFn, hbyte]

end DietExchange.Aes
