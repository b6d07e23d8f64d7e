import DietExchange.Bytes

namespace DietExchange

/-- The 16-bit words of a byte string added to `sum`; an odd last byte is the high byte of a
    word. -/
def addWords (sum : Nat) : List UInt8 → Nat
  | high :: low :: rest => addWords (sum + (high.toNat * 256 + low.toNat)) rest
  | [last] => sum + last.toNat * 256
  | [] => sum

/-- The end-around carry: what exceeds 16 bits is added to the low end until nothing exceeds
    them. -/
def foldSum (sum : Nat) : Nat :=
  if sum < 65536 then sum else foldSum (sum % 65536 + sum / 65536)
termination_by sum
decreasing_by omega

/-- The checksum of a byte string. -/
def internetChecksum (bytes : List UInt8) : UInt16 :=
  ~~~ UInt16.ofNat (foldSum (addWords 0 bytes))

/-- The checksum of a packet whose checksum field, bytes 4 and 5, is left out. What is too short to
    have that field is summed as it is. -/
def packetChecksum (packet : List UInt8) : UInt16 :=
  if packet.length < 6 then internetChecksum packet
  else ~~~ UInt16.ofNat (foldSum (addWords (addWords 0 (packet.take 4)) (packet.drop 6)))

theorem foldSum_lt (sum : Nat) : foldSum sum < 65536 := by
  fun_induction foldSum sum with
  | case1 sum hsmall => exact hsmall
  | case2 sum hlarge ih => exact ih

theorem foldSum_mod (sum : Nat) : foldSum sum % 65535 = sum % 65535 := by
  fun_induction foldSum sum with
  | case1 sum hsmall => rfl
  | case2 sum hlarge ih => rw [ih]; omega

theorem addWords_add (start sum : Nat) (bytes : List UInt8) :
    addWords (start + sum) bytes = start + addWords sum bytes := by
  fun_induction addWords sum bytes with
  | case1 sum high low rest ih => rw [addWords, Nat.add_assoc, ih]
  | case2 sum last => rw [addWords, Nat.add_assoc]
  | case3 sum => rfl

end DietExchange
