import DietExchange.Packet.Grammar

namespace DietExchange

/-- The byte string with one bit of one byte flipped, counted from the least significant. -/
def flipBit (bytes : List UInt8) (index bit : Nat) : List UInt8 :=
  bytes.modify index (· ^^^ (1 <<< UInt8.ofNat bit))

@[simp]
theorem length_flipBit (bytes : List UInt8) (index bit : Nat) :
    (flipBit bytes index bit).length = bytes.length := List.length_modify _ _ _

/-- What a byte counts in a sum of words, by its place: the high bytes of the words come first. -/
def byteWeight (index : Nat) : Nat := if index % 2 = 0 then 256 else 1

section Sums

theorem addWords_eq_add (sum : Nat) (bytes : List UInt8) :
    addWords sum bytes = sum + addWords 0 bytes := by
  simpa using addWords_add sum 0 bytes

theorem addWords_append {front : List UInt8} (heven : front.length % 2 = 0) (sum : Nat)
    (back : List UInt8) : addWords sum (front ++ back) = addWords sum front + addWords 0 back := by
  fun_induction addWords sum front with
  | case1 sum high low rest ih =>
    have hrest : rest.length % 2 = 0 := by
      simp only [List.length_cons] at heven
      omega
    rw [List.cons_append, List.cons_append, addWords, ih hrest]
  | case2 sum last => simp at heven
  | case3 sum => rw [List.nil_append, addWords_eq_add]

@[simp]
theorem addWords_wordBytes (word : UInt16) : addWords 0 (wordBytes word) = word.toNat := by
  have hword : word.toNat < 65536 := word.toNat_lt
  simp only [wordBytes, bigEndian, addWords, UInt8.toNat_ofNat', Nat.reducePow]
  change 0 + (word.toNat / (256 * 1) % 256 * 256 + word.toNat / 1 % 256) = word.toNat
  omega

/-- A byte adds its value to the sum, times its weight. -/
theorem addWords_append_cons (sum : Nat) (front : List UInt8) (byte : UInt8) (back : List UInt8) :
    addWords sum (front ++ byte :: back) =
      addWords sum (front ++ 0 :: back) + byteWeight front.length * byte.toNat := by
  fun_induction addWords sum front with
  | case1 sum high low rest ih =>
    have hweight : byteWeight (high :: low :: rest).length = byteWeight rest.length := by
      rw [byteWeight, byteWeight, List.length_cons, List.length_cons, Nat.add_assoc,
        Nat.add_mod_right]
    rw [hweight]
    simpa only [List.cons_append, addWords] using ih
  | case2 sum last =>
    simp only [List.cons_append, List.nil_append, addWords]
    rw [addWords_eq_add, addWords_eq_add (sum + (last.toNat * 256 + UInt8.toNat 0))]
    simp [byteWeight]
    omega
  | case3 sum =>
    cases back with
    | nil =>
      simp [addWords, byteWeight]
      omega
    | cons low rest =>
      simp only [List.nil_append, addWords]
      rw [addWords_eq_add, addWords_eq_add (sum + (UInt8.toNat 0 * 256 + low.toNat))]
      simp [byteWeight]
      omega

end Sums

section Folding

theorem foldSum_pos {sum : Nat} (hpos : 0 < sum) : 0 < foldSum sum := by
  fun_induction foldSum sum with
  | case1 sum hsmall => exact hpos
  | case2 sum hlarge ih => exact ih (by omega)

theorem toNat_complement_foldSum (sum : Nat) :
    (~~~ UInt16.ofNat (foldSum sum)).toNat = 65535 - foldSum sum := by
  rw [UInt16.toNat_not, UInt16.toNat_ofNat_of_lt' (foldSum_lt sum)]
  rfl

/-- A checksum fits a sum exactly if it makes it a multiple of 65535, and no sum of anything but
    zeros has the checksum 65535. -/
theorem eq_complement_foldSum_iff {sum : Nat} {checksum : UInt16} (hpos : 0 < sum) :
    checksum = ~~~ UInt16.ofNat (foldSum sum) ↔ 65535 ∣ sum + checksum.toNat ∧
    checksum ≠ 65535 := by
  have hlt := foldSum_lt sum
  have hmod := foldSum_mod sum
  have hfold := foldSum_pos hpos
  have hchecksum : checksum.toNat < 65536 := checksum.toNat_lt
  rw [← UInt16.toNat_inj, toNat_complement_foldSum, Ne, ← UInt16.toNat_inj]
  change _ ↔ _ ∧ ¬checksum.toNat = 65535
  omega

end Folding

section Flips

/-- Flipping a bit of a byte takes its power of two away if it is set, and else adds it. -/
theorem toNat_xor_bit {bit : Nat} (hbit : bit < 8) (byte : UInt8) :
    (byte ^^^ (1 <<< UInt8.ofNat bit)).toNat +
      (if byte.toNat.testBit bit then Nat.pow 2 bit else 0) =
      byte.toNat + (if byte.toNat.testBit bit then 0 else Nat.pow 2 bit) := by
  have hall : ∀ (value : Fin 256) (place : Fin 8),
      (UInt8.ofNat value.val ^^^ (1 <<< UInt8.ofNat place.val)).toNat +
          (if value.val.testBit place.val then Nat.pow 2 place.val else 0) =
        value.val + (if value.val.testBit place.val then 0 else Nat.pow 2 place.val) := by
    decide +kernel
  simpa using hall ⟨byte.toNat, byte.toNat_lt⟩ ⟨bit, hbit⟩

/-- Flipping one bit moves the sum of the words by a power of two, up or down. -/
theorem addWords_flipBit {bytes : List UInt8} {index bit : Nat} (hindex : index < bytes.length)
    (hbit : bit < 8) :
    addWords 0 (flipBit bytes index bit) +
        (if bytes[index].toNat.testBit bit then byteWeight index * Nat.pow 2 bit else 0) =
      addWords 0 bytes +
        (if bytes[index].toNat.testBit bit then 0 else byteWeight index * Nat.pow 2 bit) := by
  obtain ⟨front, byte, back, rfl, rfl⟩ :
      ∃ front byte back, bytes = front ++ byte :: back ∧ index = front.length :=
    ⟨bytes.take index, bytes[index], bytes.drop (index + 1), by simp, by simp; omega⟩
  have hflip : flipBit (front ++ byte :: back) front.length bit =
      front ++ (byte ^^^ (1 <<< UInt8.ofNat bit)) :: back := by
    rw [flipBit, List.modify_eq_take_cons_drop (by simp)]
    simp
  have hbyte := toNat_xor_bit hbit byte
  have hget : (front ++ byte :: back)[front.length] = byte := by simp
  rw [hflip, hget, addWords_append_cons 0 front (byte ^^^ _), addWords_append_cons 0 front byte]
  split <;> rename_i htest <;> simp only [htest, if_true, Bool.false_eq_true, if_false] at hbyte
  · rw [Nat.add_assoc, ← Nat.mul_add, hbyte]
    simp
  · rw [Nat.add_zero] at hbyte
    rw [hbyte, Nat.mul_add]
    omega

/-- So little does one bit count that the sum cannot stay a multiple of 65535. -/
theorem not_dvd_addWords_flipBit {bytes : List UInt8} {index bit : Nat}
    (hindex : index < bytes.length) (hbit : bit < 8) (hsum : 65535 ∣ addWords 0 bytes) :
      ¬65535 ∣ addWords 0 (flipBit bytes index bit) := by
  have hflip := addWords_flipBit hindex hbit
  have hpos : 0 < byteWeight index * Nat.pow 2 bit := by
    have hpow : 0 < Nat.pow 2 bit := Nat.two_pow_pos bit
    unfold byteWeight
    split <;> omega
  have hsmall : byteWeight index * Nat.pow 2 bit < 65535 := by
    have hpow : Nat.pow 2 bit ≤ Nat.pow 2 7 := Nat.pow_le_pow_right (by omega) (by omega)
    rw [show Nat.pow 2 7 = 128 from rfl] at hpow
    unfold byteWeight
    split <;> omega
  generalize byteWeight index * Nat.pow 2 bit = step at *
  split at hflip <;> omega

end Flips

namespace Header

theorem Describes.kind_ne_zero {header : Header} {packet : Packet}
    (hdescribes : header.Describes packet) : header.kind ≠ 0 := by
  intro hzero
  have hkind := hdescribes.kind
  rw [hzero] at hkind
  cases hcode : packet.kind <;> rw [hcode] at hkind <;> cases hkind

/-- A header holds the checksum of its packet exactly if all words of the packet sum to a multiple
    of 65535. That the kind is not 0 makes sure that the sum is not either. -/
theorem checksum_eq_iff {header : Header} {body : List UInt8} (hkind : header.kind ≠ 0) :
    header.checksum = packetChecksum (header.encode ++ body) ↔
      65535 ∣ addWords 0 (header.encode ++ body) ∧ header.checksum ≠ 65535 := by
  let front := [header.nextHeader, header.units, header.kind, header.version]
  let back := wordBytes header.controls ++ header.sender.toBytes ++ header.receiver.toBytes ++ body
  have hbytes : header.encode ++ body = front ++ (wordBytes header.checksum ++ back) := by
    simp [front, back, encode]
  have hlong : ¬(header.encode ++ body).length < 6 := by
    rw [List.length_append, length_encode, headerLength]
    omega
  have hchecksum : packetChecksum (header.encode ++ body) =
      ~~~ UInt16.ofNat (foldSum (addWords 0 front + addWords 0 back)) := by
    rw [packetChecksum, if_neg hlong, ← addWords_eq_add]
    rfl
  have hsum : addWords 0 (header.encode ++ body) =
      addWords 0 front + addWords 0 back + header.checksum.toNat := by
    rw [hbytes, addWords_append (by simp [front]), addWords_append (by simp), addWords_wordBytes]
    omega
  have hpos : 0 < addWords 0 front + addWords 0 back := by
    have hne : header.kind.toNat ≠ 0 := fun hzero => hkind (UInt8.toNat_inj.mp hzero)
    simp only [front, addWords]
    omega
  rw [hchecksum, hsum, eq_complement_foldSum_iff hpos]

end Header

end DietExchange
