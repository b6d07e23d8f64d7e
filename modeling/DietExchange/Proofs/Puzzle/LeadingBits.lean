import DietExchange.Puzzle.Bits
import Mathlib.Algebra.GroupWithZero.Nat

/-!
The leftmost bits of a byte string, told by place. The zero test and the cut each go through the
bytes on their own; what they come to is said of single bits here, and the number that the bytes
spell has the same bits.
-/

namespace DietExchange

/-- The bit at a place of a byte string, counted from the leftmost. Behind the end all bits are
    0. -/
def bitAt (bytes : List UInt8) (place : Nat) : Bool :=
  (bytes.getD (place / 8) 0).toNat.testBit (7 - place % 8)

section Places

theorem bitAt_nil (place : Nat) : bitAt [] place = false := by
  rw [bitAt, List.getD_nil]
  exact Nat.zero_testBit _

theorem bitAt_cons_of_lt {place : Nat} (hplace : place < 8) (byte : UInt8) (rest : List UInt8) :
    bitAt (byte :: rest) place = byte.toNat.testBit (7 - place) := by
  rw [bitAt, Nat.div_eq_of_lt hplace, Nat.mod_eq_of_lt hplace, List.getD_cons_zero]

theorem bitAt_cons_add (byte : UInt8) (rest : List UInt8) (place : Nat) :
    bitAt (byte :: rest) (place + 8) = bitAt rest place := by
  rw [bitAt, bitAt, Nat.add_div_right place (by omega), Nat.add_mod_right, List.getD_cons_succ]

theorem bitAt_of_le {bytes : List UInt8} {place : Nat} (hplace : 8 * bytes.length ≤ place) :
    bitAt bytes place = false := by
  have hend : bytes.length ≤ place / 8 := by omega
  rw [bitAt, List.getD_eq_getElem?_getD, List.getElem?_eq_none hend]
  exact Nat.zero_testBit _

/-- The bits of a byte string are those of its first byte and those of the others. -/
theorem forall_bitAt_cons_iff {bits : Nat} (hbits : 8 ≤ bits) (byte : UInt8) (rest : List UInt8) :
    (∀ place < bits, bitAt (byte :: rest) place = false) ↔
      (∀ place < 8, byte.toNat.testBit (7 - place) = false) ∧
        ∀ place < bits - 8, bitAt rest place = false := by
  constructor
  · intro hall
    refine ⟨fun place hplace => ?_, fun place hplace => ?_⟩
    · rw [← bitAt_cons_of_lt hplace byte rest]
      exact hall place (by omega)
    · rw [← bitAt_cons_add byte rest place]
      exact hall (place + 8) (by omega)
  · rintro ⟨hfirst, hrest⟩ place hplace
    rcases Nat.lt_or_ge place 8 with hlt | hge
    · rw [bitAt_cons_of_lt hlt]
      exact hfirst place hlt
    · obtain ⟨place, rfl⟩ := Nat.exists_eq_add_of_le' hge
      rw [bitAt_cons_add]
      exact hrest place (by omega)

/-- What a byte has in its leftmost bits is zero exactly if they all are. -/
theorem shiftRight_eq_zero_iff (byte : UInt8) {bits : Nat} (hbits : bits ≤ 8) :
    byte.toNat >>> (8 - bits) = 0 ↔ ∀ place < bits, byte.toNat.testBit (7 - place) = false := by
  constructor
  · intro hzero place hplace
    have hbit : 7 - place = 8 - bits + (bits - 1 - place) := by omega
    rw [hbit, ← Nat.testBit_shiftRight, hzero, Nat.zero_testBit]
  · intro hall
    apply Nat.eq_of_testBit_eq
    intro index
    rw [Nat.testBit_shiftRight, Nat.zero_testBit]
    rcases Nat.lt_or_ge index bits with hlt | hge
    · have hbit : 8 - bits + index = 7 - (bits - 1 - index) := by omega
      rw [hbit]
      exact hall _ (by omega)
    · apply Nat.testBit_lt_two_pow
      calc byte.toNat < 2 ^ 8 := byte.toNat_lt
        _ ≤ 2 ^ (8 - bits + index) := Nat.pow_le_pow_right (by omega) (by omega)

theorem eq_zero_iff_testBit (byte : UInt8) :
    byte = 0 ↔ ∀ place < 8, byte.toNat.testBit (7 - place) = false := by
  rw [← shiftRight_eq_zero_iff byte (Nat.le_refl 8), ← UInt8.toNat_inj]
  exact Iff.rfl

/-- Bytes are all zero exactly if their bits are. -/
theorem forall_eq_zero_iff_bitAt (bytes : List UInt8) :
    (∀ byte ∈ bytes, byte = 0) ↔ ∀ place < 8 * bytes.length, bitAt bytes place = false := by
  induction bytes with
  | nil => simp
  | cons byte rest ih =>
    rw [List.forall_mem_cons, ih, eq_zero_iff_testBit, List.length_cons, Nat.mul_succ,
      forall_bitAt_cons_iff (Nat.le_add_left 8 _), Nat.add_sub_cancel]

theorem pow_256_eq (width : Nat) : Nat.pow 256 width = 2 ^ (8 * width) := by
  rw [Nat.pow_mul]
  rfl

/-- The number that bytes spell has their bits, the leftmost as its highest. -/
theorem testBit_bigEndianValue {bytes : List UInt8} {place : Nat}
    (hplace : place < 8 * bytes.length) :
    (bigEndianValue bytes).testBit (8 * bytes.length - 1 - place) = bitAt bytes place := by
  induction bytes generalizing place with
  | nil => simp at hplace
  | cons byte rest ih =>
    have hrest := bigEndianValue_lt rest
    rw [pow_256_eq] at hrest
    rw [List.length_cons] at hplace
    rw [bigEndianValue_cons, pow_256_eq, Nat.mul_comm byte.toNat,
      Nat.testBit_two_pow_mul_add _ hrest, List.length_cons]
    rcases Nat.lt_or_ge place 8 with hlt | hge
    · rw [if_neg (by omega), bitAt_cons_of_lt hlt]
      congr 1
      omega
    · obtain ⟨place, rfl⟩ := Nat.exists_eq_add_of_le' hge
      rw [if_pos (by omega), bitAt_cons_add, ← ih (by omega)]
      congr 1
      omega

/-- The number that bytes spell is small exactly if their leftmost bits are zero. -/
theorem bigEndianValue_lt_iff {bytes : List UInt8} {bits : Nat} (hbits : bits ≤ 8 * bytes.length) :
    bigEndianValue bytes < 2 ^ (8 * bytes.length - bits) ↔ ∀ place < bits, bitAt bytes place =
      false := by
  constructor
  · intro hsmall place hplace
    rw [← testBit_bigEndianValue (by omega)]
    apply Nat.testBit_lt_two_pow
    calc bigEndianValue bytes < 2 ^ (8 * bytes.length - bits) := hsmall
      _ ≤ 2 ^ (8 * bytes.length - 1 - place) := Nat.pow_le_pow_right (by omega) (by omega)
  · intro hall
    apply Nat.lt_pow_two_of_testBit
    intro index hindex
    rcases Nat.lt_or_ge index (8 * bytes.length) with hlt | hge
    · have hplace : index = 8 * bytes.length - 1 - (8 * bytes.length - 1 - index) := by omega
      rw [hplace, testBit_bigEndianValue (by omega)]
      exact hall _ (by omega)
    · apply Nat.testBit_lt_two_pow
      calc bigEndianValue bytes < 2 ^ (8 * bytes.length) :=
            pow_256_eq bytes.length ▸ bigEndianValue_lt bytes
        _ ≤ 2 ^ index := Nat.pow_le_pow_right (by omega) hge

end Places

section Agreement

variable {bits : Nat} {bytes : List UInt8}

theorem hasLeadingZeros_iff_bitAt :
    hasLeadingZeros bits bytes = true ↔
      bits ≤ 8 * bytes.length ∧ ∀ place < bits, bitAt bytes place = false := by
  fun_induction hasLeadingZeros bits bytes with
  | case1 bytes => simp
  | case2 bits => simp
  | case3 bits byte rest hfew =>
    have hplaces : (∀ place < bits + 1, bitAt (byte :: rest) place = false) ↔
        ∀ place < bits + 1, byte.toNat.testBit (7 - place) = false :=
      forall₂_congr fun place hplace => by rw [bitAt_cons_of_lt (by omega)]
    rw [beq_iff_eq, shiftRight_eq_zero_iff byte (by omega), hplaces, List.length_cons]
    exact ⟨fun hall => ⟨by omega, hall⟩, fun hall => hall.2⟩
  | case4 bits byte rest hmany ih =>
    have hlength : bits + 1 ≤ 8 * (byte :: rest).length ↔ bits + 1 - 8 ≤ 8 * rest.length := by
      rw [List.length_cons]
      omega
    rw [Bool.and_eq_true, beq_iff_eq, ih, eq_zero_iff_testBit, hlength,
      forall_bitAt_cons_iff (Nat.not_lt.mp hmany)]
    exact and_left_comm

/-- There have to be as many bits as are asked for. -/
theorem le_of_hasLeadingZeros (hzeros : hasLeadingZeros bits bytes = true) :
    bits ≤ 8 * bytes.length :=
  (hasLeadingZeros_iff_bitAt.mp hzeros).1

theorem hasLeadingZeros_of_le (hzeros : hasLeadingZeros bits bytes = true) {fewer : Nat}
    (hfewer : fewer ≤ bits) : hasLeadingZeros fewer bytes = true := by
  obtain ⟨hbits, hall⟩ := hasLeadingZeros_iff_bitAt.mp hzeros
  apply hasLeadingZeros_iff_bitAt.mpr
  exact ⟨by omega, fun place hplace => hall place (by omega)⟩

/-- Cut off behind some bits, a byte string keeps these and has no others. -/
theorem bitAt_leftTruncate (bits : Nat) (bytes : List UInt8) (place : Nat) :
    bitAt (leftTruncate bits bytes) place = (decide (place < bits) && bitAt bytes place) := by
  fun_induction leftTruncate bits bytes generalizing place with
  | case1 bytes => simp [bitAt_nil]
  | case2 bits => simp [bitAt_nil]
  | case3 bits byte rest hfew =>
    rcases Nat.lt_or_ge place 8 with hlt | hge
    · have hbyte : byte.toNat >>> (8 - (bits + 1)) <<< (8 - (bits + 1)) < 256 := by
        rw [Nat.shiftLeft_eq, Nat.shiftRight_eq_div_pow]
        exact Nat.lt_of_le_of_lt (Nat.div_mul_le_self _ _) byte.toNat_lt
      rw [bitAt_cons_of_lt hlt, bitAt_cons_of_lt hlt, UInt8.toNat_ofNat_of_lt' hbyte,
        Nat.testBit_shiftLeft, Nat.testBit_shiftRight]
      by_cases hplace : place < bits + 1
      · have hindex : 8 - (bits + 1) + (7 - place - (8 - (bits + 1))) = 7 - place := by omega
        rw [hindex, decide_eq_true (show 7 - place ≥ 8 - (bits + 1) by omega),
          decide_eq_true hplace]
      · rw [decide_eq_false (show ¬7 - place ≥ 8 - (bits + 1) by omega), decide_eq_false hplace,
          Bool.false_and, Bool.false_and]
    · have hplace : ¬place < bits + 1 := by omega
      rw [bitAt_of_le hge, decide_eq_false hplace, Bool.false_and]
  | case4 bits byte rest hmany ih =>
    rcases Nat.lt_or_ge place 8 with hlt | hge
    · rw [bitAt_cons_of_lt hlt, bitAt_cons_of_lt hlt, decide_eq_true (by omega), Bool.true_and]
    · obtain ⟨place, rfl⟩ := Nat.exists_eq_add_of_le' hge
      have hplace : place < bits + 1 - 8 ↔ place + 8 < bits + 1 := by omega
      rw [bitAt_cons_add, bitAt_cons_add, ih, decide_eq_decide.mpr hplace]

/-- As many bytes are left as hold the bits, or all there are. -/
theorem length_leftTruncate (bits : Nat) (bytes : List UInt8) :
    (leftTruncate bits bytes).length = min ((bits + 7) / 8) bytes.length := by
  fun_induction leftTruncate bits bytes with
  | case1 bytes => simp
  | case2 bits => simp
  | case3 bits byte rest hfew =>
    rw [List.length_singleton, List.length_cons]
    omega
  | case4 bits byte rest hmany ih =>
    rw [List.length_cons, List.length_cons, ih]
    omega

theorem forall_leftTruncate_eq_zero_iff (hbits : bits ≤ 8 * bytes.length) :
    (∀ byte ∈ leftTruncate bits bytes, byte = 0) ↔ ∀ place < bits, bitAt bytes place = false := by
  rw [forall_eq_zero_iff_bitAt, length_leftTruncate]
  constructor
  · intro hall place hplace
    have hcut := hall place (by omega)
    rwa [bitAt_leftTruncate, decide_eq_true hplace, Bool.true_and] at hcut
  · intro hall place hin
    rw [bitAt_leftTruncate]
    by_cases hplace : place < bits
    · rw [hall place hplace, Bool.and_false]
    · rw [decide_eq_false hplace, Bool.false_and]

end Agreement

section ByPlace

/-- The zero test as it is done in place: first the bytes that all bits of are asked for, then the
    high bits of the one behind them. -/
def testZeros (bits : Nat) (bytes : List UInt8) : Bool :=
  let full := bits / 8
  let rest := bits % 8
  if bytes.length < full + (if 0 < rest then 1 else 0) then false
  else if (bytes.take full).any (· != 0) then false
  else rest == 0 || bytes.getD full 0 >>> UInt8.ofNat (8 - rest) == 0

/-- The cut as it is done in place: the bytes that hold the bits are copied, and if they were all
    there a mask is laid on the last one. -/
def cutBits (bits : Nat) (bytes : List UInt8) : List UInt8 :=
  let needed := (bits + 7) / 8
  let length := min needed bytes.length
  let rest := bits % 8
  let front := bytes.take length
  if 0 < rest ∧ length = needed then
    front.modify (length - 1) (· &&& 0xff <<< UInt8.ofNat (8 - rest))
  else
    front

theorem toNat_unused {unused : Nat} (hunused : unused < 8) : (UInt8.ofNat unused).toNat = unused :=
  UInt8.toNat_ofNat_of_lt' (by simp only [UInt8.size]; omega)

/-- A mask clears what shifting down and up again clears. -/
theorem and_mask_eq (byte : UInt8) {unused : Nat} (hunused : unused < 8) :
    byte &&& 0xff <<< UInt8.ofNat unused = UInt8.ofNat (byte.toNat >>> unused <<< unused) := by
  apply UInt8.toNat_inj.mp
  apply Nat.eq_of_testBit_eq
  intro index
  rw [UInt8.toNat_and, UInt8.toNat_shiftLeft, toNat_unused hunused, Nat.mod_eq_of_lt hunused,
    UInt8.toNat_ofNat', Nat.testBit_and, Nat.testBit_mod_two_pow, Nat.testBit_mod_two_pow,
    Nat.testBit_shiftLeft, Nat.testBit_shiftLeft, Nat.testBit_shiftRight]
  rcases Nat.lt_or_ge index unused with hcleared | hkept
  · rw [decide_eq_false (Nat.not_le.mpr hcleared)]
    simp
  · have hindex : unused + (index - unused) = index := by omega
    have hmask : (UInt8.toNat 0xff).testBit (index - unused) = decide (index - unused < 8) :=
      Nat.testBit_two_pow_sub_one 8 _
    rw [hindex, hmask, Bool.and_comm, Bool.and_assoc]
    by_cases hin : index < 8
    · have hinside : index - unused < 8 := by omega
      simp [hin, hinside]
    · simp [hin]

theorem testZeros_cons {bits : Nat} (hbits : 8 ≤ bits) (byte : UInt8) (rest : List UInt8) :
    testZeros bits (byte :: rest) = (byte == 0 && testZeros (bits - 8) rest) := by
  obtain ⟨bits, rfl⟩ := Nat.exists_eq_add_of_le' hbits
  rw [Nat.add_sub_cancel]
  have hlength : rest.length + 1 < bits / 8 + 1 + (if 0 < bits % 8 then 1 else 0) ↔
      rest.length < bits / 8 + (if 0 < bits % 8 then 1 else 0) := by omega
  simp only [testZeros, Nat.add_div_right bits (show 0 < 8 by omega), Nat.add_mod_right,
    List.length_cons, List.take_succ_cons, List.any_cons, List.getD_cons_succ, hlength]
  cases hbyte : byte == 0 with
  | true => simp [bne, hbyte]
  | false => simp [bne, hbyte]

theorem testZeros_eq_hasLeadingZeros (bits : Nat) (bytes : List UInt8) :
    testZeros bits bytes = hasLeadingZeros bits bytes := by
  fun_induction hasLeadingZeros bits bytes with
  | case1 bytes => simp [testZeros]
  | case2 bits =>
    apply if_pos
    rw [List.length_nil]
    split <;> omega
  | case3 bits byte rest hfew =>
    have hbyte : byte >>> UInt8.ofNat (8 - (bits + 1)) = 0 ↔
        byte.toNat >>> (8 - (bits + 1)) = 0 := by
      rw [← UInt8.toNat_inj, UInt8.toNat_shiftRight, toNat_unused (by omega),
        Nat.mod_eq_of_lt (by omega)]
      exact Iff.rfl
    simp only [testZeros, Nat.div_eq_of_lt hfew, Nat.mod_eq_of_lt hfew, List.take_zero,
      List.any_nil, List.length_cons, List.getD_cons_zero]
    rw [if_neg (by split <;> omega), if_neg Bool.false_ne_true, Bool.eq_iff_iff, Bool.or_eq_true,
      beq_iff_eq, beq_iff_eq, beq_iff_eq, hbyte]
    exact or_iff_right (Nat.succ_ne_zero bits)
  | case4 bits byte rest hmany ih => rw [testZeros_cons (Nat.not_lt.mp hmany), ih]

theorem cutBits_cons {bits : Nat} (hbits : 8 ≤ bits) (byte : UInt8) (rest : List UInt8) :
    cutBits bits (byte :: rest) = byte :: cutBits (bits - 8) rest := by
  obtain ⟨bits, rfl⟩ := Nat.exists_eq_add_of_le' hbits
  rw [Nat.add_sub_cancel]
  have hneeded : (bits + 8 + 7) / 8 = (bits + 7) / 8 + 1 := by omega
  have hmin : min ((bits + 7) / 8 + 1) (rest.length + 1) = min ((bits + 7) / 8) rest.length + 1 :=
    by omega
  simp only [cutBits, hneeded, List.length_cons, hmin, Nat.add_mod_right, List.take_succ_cons,
    Nat.add_right_cancel_iff, Nat.add_sub_cancel]
  split
  · rename_i hmask
    have hpos : min ((bits + 7) / 8) rest.length ≠ 0 := by omega
    rw [List.modify_cons, if_neg hpos]
  · rfl

theorem cutBits_eq_leftTruncate (bits : Nat) (bytes : List UInt8) :
    cutBits bits bytes = leftTruncate bits bytes := by
  fun_induction leftTruncate bits bytes with
  | case1 bytes => simp [cutBits]
  | case2 bits => simp [cutBits]
  | case3 bits byte rest hfew =>
    have hneeded : (bits + 1 + 7) / 8 = 1 := by omega
    have hmin : min 1 (rest.length + 1) = 1 := by omega
    simp only [cutBits, hneeded, List.length_cons, hmin, Nat.mod_eq_of_lt hfew, List.take_succ_cons,
      List.take_zero]
    rw [if_pos ⟨Nat.succ_pos bits, trivial⟩, ← and_mask_eq byte (by omega)]
    rfl
  | case4 bits byte rest hmany ih => rw [cutBits_cons (Nat.not_lt.mp hmany), ih]

end ByPlace

/-- The zero test, the cut and the number agree, for any number of bits. The test holds exactly if
    there are so many bits and the cut behind them leaves nothing but zeros, and exactly if there
    are so many and the number that the bytes spell is that small; so it holds of fewer bits too.
    The cut leaves the bytes that hold the bits, with the bits as they were and the others cleared.
    Done in place, both come to the same. -/
theorem leadingZeros_agree (bits : Nat) (bytes : List UInt8) :
    (hasLeadingZeros bits bytes = true ↔
      bits ≤ 8 * bytes.length ∧ ∀ byte ∈ leftTruncate bits bytes, byte = 0) ∧
    (hasLeadingZeros bits bytes = true ↔
      bits ≤ 8 * bytes.length ∧ bigEndianValue bytes < 2 ^ (8 * bytes.length - bits)) ∧
    (hasLeadingZeros bits bytes = true → ∀ fewer ≤ bits, hasLeadingZeros fewer bytes = true) ∧
    (bits ≤ 8 * bytes.length → (leftTruncate bits bytes).length = (bits + 7) / 8 ∧
      ∀ place, bitAt (leftTruncate bits bytes) place =
        (decide (place < bits) && bitAt bytes place)) ∧
    testZeros bits bytes = hasLeadingZeros bits bytes ∧
    cutBits bits bytes = leftTruncate bits bytes := by
  refine ⟨?_, ?_, fun hzeros fewer => hasLeadingZeros_of_le hzeros, fun hbits => ⟨?_, ?_⟩,
    testZeros_eq_hasLeadingZeros bits bytes, cutBits_eq_leftTruncate bits bytes⟩
  · rw [hasLeadingZeros_iff_bitAt]
    exact and_congr_right fun hbits => (forall_leftTruncate_eq_zero_iff hbits).symm
  · rw [hasLeadingZeros_iff_bitAt]
    exact and_congr_right fun hbits => (bigEndianValue_lt_iff hbits).symm
  · rw [length_leftTruncate]
    omega
  · exact bitAt_leftTruncate bits bytes

/-- Twelve bits, of which the last four are in the middle of a byte. -/
theorem leadingZeros_agree_twelve :
    hasLeadingZeros 12 [0x00, 0x0f] = true ∧ bigEndianValue [0x00, 0x0f] < 2 ^ 4 ∧
    hasLeadingZeros 9 [0x00, 0x0f] = true ∧ hasLeadingZeros 12 [0x00, 0x1f] = false ∧
    (leftTruncate 12 [0xab, 0xff]).length = 2 ∧ cutBits 12 [0xab, 0xff] = [0xab, 0xf0] := by
  have hzeros : hasLeadingZeros 12 [0x00, 0x0f] = true := by decide
  obtain ⟨-, hnumber, hfewer, -⟩ := leadingZeros_agree 12 [0x00, 0x0f]
  obtain ⟨-, -, -, hcut, -, hinPlace⟩ := leadingZeros_agree 12 [0xab, 0xff]
  exact ⟨hzeros, (hnumber.mp hzeros).2, hfewer hzeros 9 (by decide),
    by decide, (hcut (by decide)).1, hinPlace.trans (by decide)⟩

end DietExchange
