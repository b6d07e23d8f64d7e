import DietExchange.Bytes

namespace DietExchange

/-- Whether the leftmost `bits` bits are there and are all zero. -/
def hasLeadingZeros : (bits : Nat) → List UInt8 → Bool
  | 0, _ => true
  | _ + 1, [] => false
  | bits + 1, byte :: rest =>
    if bits + 1 < 8 then byte.toNat >>> (8 - (bits + 1)) == 0
    else byte == 0 && hasLeadingZeros (bits + 1 - 8) rest

/-- The bytes that hold the leftmost `bits` bits, with the unused low bits of the last one cleared.
    If there are not so many bits, all bytes as they are. -/
def leftTruncate : (bits : Nat) → List UInt8 → List UInt8
  | 0, _ => []
  | _ + 1, [] => []
  | bits + 1, byte :: rest =>
    if bits + 1 < 8 then
      [UInt8.ofNat (byte.toNat >>> (8 - (bits + 1)) <<< (8 - (bits + 1)))]
    else
      byte :: leftTruncate (bits + 1 - 8) rest

end DietExchange
