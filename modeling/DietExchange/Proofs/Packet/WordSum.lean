import DietExchange.Proofs.Packet.Checksum
import Mathlib.Algebra.Order.BigOperators.Group.Finset
import Mathlib.Data.Nat.Find
import Mathlib.Logic.Function.Iterate

namespace DietExchange

section Words

/-- The 16-bit word at a place of a byte string. An odd last byte is the high byte of a word, and
    behind the end all words are 0. -/
def wordAt (bytes : List UInt8) (index : Nat) : Nat :=
  (bytes.getD (2 * index) 0).toNat * 256 + (bytes.getD (2 * index + 1) 0).toNat

def wordCount (bytes : List UInt8) : Nat := (bytes.length + 1) / 2

theorem wordCount_cons_cons (high low : UInt8) (rest : List UInt8) :
    wordCount (high :: low :: rest) = wordCount rest + 1 := by
  simp only [wordCount, List.length_cons]
  omega

theorem wordAt_lt (bytes : List UInt8) (index : Nat) : wordAt bytes index < 65536 := by
  have hhigh := (bytes.getD (2 * index) 0).toNat_lt
  have hlow := (bytes.getD (2 * index + 1) 0).toNat_lt
  unfold wordAt
  omega

theorem wordAt_cons_zero (high low : UInt8) (rest : List UInt8) :
    wordAt (high :: low :: rest) 0 = high.toNat * 256 + low.toNat := rfl

theorem wordAt_cons_succ (high low : UInt8) (rest : List UInt8) (index : Nat) :
    wordAt (high :: low :: rest) (index + 1) = wordAt rest index := by
  have hhigh : 2 * (index + 1) = 2 * index + 1 + 1 := by omega
  rw [wordAt, wordAt, hhigh]
  simp only [List.getD_cons_succ]

theorem wordAt_of_le {bytes : List UInt8} {index : Nat} (hindex : wordCount bytes ≤ index) :
    wordAt bytes index = 0 := by
  unfold wordCount at hindex
  have hhigh : bytes.length ≤ 2 * index := by omega
  rw [wordAt, List.getD_eq_getElem?_getD, List.getD_eq_getElem?_getD, List.getElem?_eq_none hhigh,
    List.getElem?_eq_none (Nat.le_succ_of_le hhigh)]
  rfl

theorem addWords_eq_sum (sum : Nat) (bytes : List UInt8) :
    addWords sum bytes = sum + ∑ index ∈ Finset.range (wordCount bytes), wordAt bytes index := by
  fun_induction addWords sum bytes with
  | case1 sum high low rest ih =>
    rw [ih, wordCount_cons_cons, Finset.sum_range_succ', wordAt_cons_zero]
    simp only [wordAt_cons_succ]
    omega
  | case2 sum last => simp [wordCount, wordAt]
  | case3 sum => rfl

end Words

section Cleared

/-- The byte string with the two bytes of the checksum set to 0. -/
def clearChecksum (bytes : List UInt8) : List UInt8 := (bytes.set 4 0).set 5 0

theorem exists_first_six {bytes : List UInt8} (hlength : 6 ≤ bytes.length) :
    ∃ a b c d high low rest, bytes = a :: b :: c :: d :: high :: low :: rest := by
  match bytes with
  | a :: b :: c :: d :: high :: low :: rest => exact ⟨a, b, c, d, high, low, rest, rfl⟩
  | [] | [_] | [_, _] | [_, _, _] | [_, _, _, _] | [_, _, _, _, _] => simp at hlength

variable {bytes : List UInt8}

/-- Leaving the checksum out is taking it as 0. -/
theorem packetChecksum_eq_clear (hlength : 6 ≤ bytes.length) :
    packetChecksum bytes = internetChecksum (clearChecksum bytes) := by
  obtain ⟨a, b, c, d, high, low, rest, rfl⟩ := exists_first_six hlength
  rw [packetChecksum, if_neg (Nat.not_lt.mpr hlength)]
  rfl

/-- The checksum of a packet is that of all its words but the third. -/
theorem packetChecksum_eq_sum (hlength : 6 ≤ bytes.length) :
    packetChecksum bytes = ~~~ UInt16.ofNat (foldSum
      (∑ index ∈ (Finset.range (wordCount bytes)).erase 2, wordAt bytes index)) := by
  have hin : 2 ∈ Finset.range (wordCount bytes) := by
    rw [Finset.mem_range, wordCount]
    omega
  have hall := Finset.add_sum_erase _ (wordAt bytes) hin
  have hsum := addWords_eq_sum 0 bytes
  have hsplit : addWords 0 bytes =
      addWords (addWords 0 (bytes.take 4)) (bytes.drop 6) + wordAt bytes 2 := by
    obtain ⟨a, b, c, d, high, low, rest, rfl⟩ := exists_first_six hlength
    have hword : wordAt (a :: b :: c :: d :: high :: low :: rest) 2 =
        high.toNat * 256 + low.toNat := rfl
    simp only [List.take_succ_cons, List.take_zero, List.drop_succ_cons, List.drop_zero,
      addWords, hword]
    rw [addWords_eq_add,
      addWords_eq_add (0 + (a.toNat * 256 + b.toNat) + (c.toNat * 256 + d.toNat))]
    omega
  rw [packetChecksum, if_neg (Nat.not_lt.mpr hlength)]
  congr 3
  omega

end Cleared

section Folding

theorem foldSum_of_lt {sum : Nat} (hsmall : sum < 65536) : foldSum sum = sum := by
  rw [foldSum, if_pos hsmall]

/-- What a sum folds to is told by its remainder and by whether it is 0. -/
theorem foldSum_eq_foldSum_iff {first second : Nat} :
    foldSum first = foldSum second ↔ first % 65535 = second % 65535 ∧ (first = 0 ↔ second = 0) := by
  have hzero : foldSum 0 = 0 := foldSum_of_lt (by omega)
  have hfirst := foldSum_lt first
  have hsecond := foldSum_lt second
  rw [← foldSum_mod first, ← foldSum_mod second]
  rcases Nat.eq_zero_or_pos first with rfl | hpos <;> rcases Nat.eq_zero_or_pos second with
    rfl | hpos'
  · simp
  · have hfold := foldSum_pos hpos'
    omega
  · have hfold := foldSum_pos hpos
    omega
  · have hfold := foldSum_pos hpos
    have hfold' := foldSum_pos hpos'
    omega

theorem complement_foldSum_inj {first second : Nat} :
    ~~~ UInt16.ofNat (foldSum first) = ~~~ UInt16.ofNat (foldSum second) ↔
      foldSum first = foldSum second := by
  have hfirst := foldSum_lt first
  have hsecond := foldSum_lt second
  rw [← UInt16.toNat_inj, toNat_complement_foldSum, toNat_complement_foldSum]
  omega

/-- The checksum is 0 exactly if the words sum to a multiple of 65535 other than 0. -/
theorem internetChecksum_eq_zero_iff {bytes : List UInt8} :
    internetChecksum bytes = 0 ↔ 65535 ∣ addWords 0 bytes ∧ 0 < addWords 0 bytes := by
  have hlt := foldSum_lt (addWords 0 bytes)
  have hmod := foldSum_mod (addWords 0 bytes)
  have hzero : foldSum 0 = 0 := foldSum_of_lt (by omega)
  rw [internetChecksum, ← UInt16.toNat_inj, toNat_complement_foldSum]
  change 65535 - foldSum (addWords 0 bytes) = 0 ↔ _
  rcases Nat.eq_zero_or_pos (addWords 0 bytes) with hnone | hpos
  · rw [hnone, hzero]
    omega
  · have hfold := foldSum_pos hpos
    omega

end Folding

/-- The kind of a packet makes sure that its words do not sum to 0. -/
theorem Header.addWords_pos {header : Header} (hkind : header.kind ≠ 0) (body : List UInt8) :
    0 < addWords 0 (header.encode ++ body) := by
  have hne : header.kind.toNat ≠ 0 := fun hzero => hkind (UInt8.toNat_inj.mp hzero)
  simp only [Header.encode, List.cons_append, addWords]
  rw [addWords_eq_add]
  omega

/-- With its checksum in place, an encoded packet has the checksum 0. -/
theorem Packet.internetChecksum_of_encode {packet : Packet} {bytes : List UInt8}
    (hencode : packet.encode = .ok bytes) : internetChecksum bytes = 0 := by
  obtain ⟨header, body, hdescribes, -, rfl, -, hchecksum⟩ := exists_header_of_encode hencode
  have hkind := hdescribes.kind_ne_zero
  apply internetChecksum_eq_zero_iff.mpr
  exact ⟨((Header.checksum_eq_iff hkind).mp hchecksum).1, Header.addWords_pos hkind body⟩

section Exchange

/-- Whether two byte strings of one length, with room for a checksum, differ in the word of one
    place, which is not that of the checksum. In all other places but that of the checksum they
    agree. -/
structure DiffersAt (first second : List UInt8) (index : Nat) : Prop where
  length : first.length = second.length
  le_length : 6 ≤ first.length
  ne_checksum : index ≠ 2
  differs : wordAt first index ≠ wordAt second index
  agrees : ∀ other, other ≠ index → other ≠ 2 → wordAt first other = wordAt second other

/-- The sum of the words in all places but that of the checksum and this one. -/
def sumBeside (bytes : List UInt8) (index : Nat) : Nat :=
  ∑ other ∈ ((Finset.range (wordCount bytes)).erase 2).erase index, wordAt bytes other

theorem sumBeside_eq_zero_iff {bytes : List UInt8} {index : Nat} :
    sumBeside bytes index = 0 ↔ ∀ other, other ≠ index → other ≠ 2 → wordAt bytes other = 0 := by
  rw [sumBeside, Finset.sum_eq_zero_iff]
  simp only [Finset.mem_erase, Finset.mem_range]
  constructor
  · intro hall other hindex hchecksum
    rcases Nat.lt_or_ge other (wordCount bytes) with hlt | hge
    · exact hall other ⟨hindex, hchecksum, hlt⟩
    · exact wordAt_of_le hge
  · rintro hall other ⟨hindex, hchecksum, -⟩
    exact hall other hindex hchecksum

theorem packetChecksum_eq_sumBeside {bytes : List UInt8} {index : Nat} (hlength : 6 ≤ bytes.length)
    (hchecksum : index ≠ 2) (hindex : index < wordCount bytes) :
    packetChecksum bytes =
      ~~~ UInt16.ofNat (foldSum (wordAt bytes index + sumBeside bytes index)) := by
  have hmem : index ∈ (Finset.range (wordCount bytes)).erase 2 :=
    Finset.mem_erase.mpr ⟨hchecksum, Finset.mem_range.mpr hindex⟩
  rw [packetChecksum_eq_sum hlength, sumBeside, Finset.add_sum_erase _ _ hmem]

namespace DiffersAt

variable {first second : List UInt8} {index : Nat}

theorem wordCount_eq (hdiffers : DiffersAt first second index) : wordCount first =
    wordCount second := by
  rw [wordCount, wordCount, hdiffers.length]

theorem index_lt (hdiffers : DiffersAt first second index) : index < wordCount first := by
  apply Nat.not_le.mp
  intro hle
  apply hdiffers.differs
  rw [wordAt_of_le hle, wordAt_of_le (hdiffers.wordCount_eq ▸ hle)]

theorem sumBeside_eq (hdiffers : DiffersAt first second index) :
    sumBeside first index = sumBeside second index := by
  rw [sumBeside, sumBeside, hdiffers.wordCount_eq]
  apply Finset.sum_congr rfl
  intro other hother
  simp only [Finset.mem_erase] at hother
  exact hdiffers.agrees other hother.1 hother.2.1

/-- One word is taken for another exactly if they are 0x0000 and 0xffff, and then only beside a word
    that is not 0: both are zeros of the one's complement, but a sum of zeros has the first of them
    only. -/
theorem packetChecksum_eq_iff (hdiffers : DiffersAt first second index) :
    packetChecksum first = packetChecksum second ↔
      (wordAt first index = 0 ∧ wordAt second index = 0xffff ∨
        wordAt first index = 0xffff ∧ wordAt second index = 0) ∧
      ∃ other, other ≠ index ∧ other ≠ 2 ∧ wordAt first other ≠ 0 := by
  have hbeside : (∃ other, other ≠ index ∧ other ≠ 2 ∧ wordAt first other ≠ 0) ↔
      sumBeside second index ≠ 0 := by
    rw [← hdiffers.sumBeside_eq, Ne, sumBeside_eq_zero_iff]
    simp only [not_forall, exists_prop]
  have hfirst := wordAt_lt first index
  have hsecond := wordAt_lt second index
  have hdiffer := hdiffers.differs
  rw [packetChecksum_eq_sumBeside hdiffers.le_length hdiffers.ne_checksum hdiffers.index_lt,
    packetChecksum_eq_sumBeside (hdiffers.length ▸ hdiffers.le_length) hdiffers.ne_checksum
      (hdiffers.wordCount_eq ▸ hdiffers.index_lt),
    complement_foldSum_inj, foldSum_eq_foldSum_iff, hdiffers.sumBeside_eq, hbeside]
  -- two different words are the same modulo 65535 only as its two zeros
  omega

end DiffersAt

end Exchange

section Rounds

/-- One round of the carry on a 64-bit sum. -/
def carryRound (sum : UInt64) : UInt64 := (sum &&& (0xffff : UInt64)) + sum >>> 16

/-- Whether the carry on a 64-bit sum ends after this many rounds, and not before, with the folded
    sum. -/
structure FoldsIn (sum : UInt64) (rounds : Nat) : Prop where
  ends : carryRound^[rounds] sum >>> 16 = 0
  goesOn : ∀ earlier < rounds, carryRound^[earlier] sum >>> 16 ≠ 0
  folded : (carryRound^[rounds] sum).toNat = foldSum sum.toNat

theorem toNat_carryRound (sum : UInt64) :
    (carryRound sum).toNat = sum.toNat % 65536 + sum.toNat / 65536 := by
  have hsum : sum.toNat < 2 ^ 64 := sum.toNat_lt
  have hlow : (0xffff : UInt64).toNat = 2 ^ 16 - 1 := rfl
  have hshift : (16 : UInt64).toNat % 64 = 16 := rfl
  rw [carryRound, UInt64.toNat_add, UInt64.toNat_and, UInt64.toNat_shiftRight, hlow, hshift,
    Nat.and_two_pow_sub_one_eq_mod, Nat.shiftRight_eq_div_pow]
  omega

theorem shiftRight_eq_zero_iff_lt {sum : UInt64} : sum >>> 16 = 0 ↔ sum.toNat < 65536 := by
  have hshift : (16 : UInt64).toNat % 64 = 16 := rfl
  rw [← UInt64.toNat_inj, UInt64.toNat_shiftRight, hshift, Nat.shiftRight_eq_div_pow]
  change sum.toNat / 65536 = 0 ↔ _
  omega

/-- A round keeps what the sum folds to. -/
theorem foldSum_carryRound (sum : UInt64) : foldSum (carryRound sum).toNat = foldSum sum.toNat := by
  rw [toNat_carryRound, foldSum_eq_foldSum_iff]
  omega

theorem foldSum_iterate (rounds : Nat) (sum : UInt64) :
    foldSum (carryRound^[rounds] sum).toNat = foldSum sum.toNat := by
  induction rounds generalizing sum with
  | zero => rfl
  | succ rounds ih => rw [Function.iterate_succ_apply, ih, foldSum_carryRound]

/-- Four rounds are enough: each takes 16 bits off the sum but for a carry. -/
theorem iterate_carryRound_lt (sum : UInt64) : (carryRound^[4] sum).toNat < 65536 := by
  have hsum : sum.toNat < 2 ^ 64 := sum.toNat_lt
  simp only [Function.iterate_succ_apply, Function.iterate_zero_apply]
  have hfirst : (carryRound sum).toNat < 2 ^ 48 + 65535 := by
    rw [toNat_carryRound]
    omega
  have hsecond : (carryRound (carryRound sum)).toNat < 2 ^ 32 + 65535 := by
    rw [toNat_carryRound]
    omega
  have hthird : (carryRound (carryRound (carryRound sum))).toNat < 2 ^ 16 + 65535 := by
    rw [toNat_carryRound]
    omega
  rw [toNat_carryRound]
  omega

/-- The carry comes to its end on any 64-bit sum. -/
theorem exists_foldsIn (sum : UInt64) : ∃ rounds ≤ 4, FoldsIn sum rounds := by
  have hends : ∃ rounds, carryRound^[rounds] sum >>> 16 = 0 :=
    ⟨4, shiftRight_eq_zero_iff_lt.mpr (iterate_carryRound_lt sum)⟩
  have hspec := Nat.find_spec hends
  refine ⟨Nat.find hends, ?_, hspec, fun earlier hearlier => Nat.find_min hends hearlier, ?_⟩
  · exact Nat.find_min' hends (shiftRight_eq_zero_iff_lt.mpr (iterate_carryRound_lt sum))
  · rw [← foldSum_iterate (Nat.find hends) sum, foldSum_of_lt (shiftRight_eq_zero_iff_lt.mp hspec)]

/-- The words of a byte string added to a 64-bit sum. -/
def addWords64 (sum : UInt64) : List UInt8 → UInt64
  | high :: low :: rest => addWords64 (sum + (high.toUInt64 * 256 + low.toUInt64)) rest
  | [last] => sum + last.toUInt64 * 256
  | [] => sum

theorem toNat_highByte (high : UInt8) : (high.toUInt64 * 256).toNat = high.toNat * 256 := by
  have hhigh := high.toNat_lt
  rw [UInt64.toNat_mul, UInt8.toNat_toUInt64]
  exact Nat.mod_eq_of_lt (by change high.toNat * 256 < _; omega)

theorem toNat_addWords64 {sum : UInt64} {bytes : List UInt8}
    (hfits : addWords sum.toNat bytes < 2 ^ 64) :
    (addWords64 sum bytes).toNat = addWords sum.toNat bytes := by
  fun_induction addWords64 sum bytes with
  | case1 sum high low rest ih =>
    have hword : (high.toUInt64 * 256 + low.toUInt64).toNat = high.toNat * 256 + low.toNat := by
      have hhigh := high.toNat_lt
      have hlow := low.toNat_lt
      rw [UInt64.toNat_add, toNat_highByte, UInt8.toNat_toUInt64]
      exact Nat.mod_eq_of_lt (by omega)
    rw [addWords] at hfits ⊢
    have hsum : (sum + (high.toUInt64 * 256 + low.toUInt64)).toNat =
        sum.toNat + (high.toNat * 256 + low.toNat) := by
      rw [UInt64.toNat_add, hword]
      rw [addWords_eq_add] at hfits
      exact Nat.mod_eq_of_lt (by omega)
    rw [← hsum] at hfits ⊢
    exact ih hfits
  | case2 sum last =>
    rw [addWords] at hfits ⊢
    rw [UInt64.toNat_add, toNat_highByte, Nat.mod_eq_of_lt hfits]
  | case3 sum => rfl

theorem addWords_le (sum : Nat) (bytes : List UInt8) :
    addWords sum bytes ≤ sum + 65535 * wordCount bytes := by
  fun_induction addWords sum bytes with
  | case1 sum high low rest ih =>
    have hhigh := high.toNat_lt
    have hlow := low.toNat_lt
    rw [wordCount_cons_cons]
    omega
  | case2 sum last =>
    have hlast := last.toNat_lt
    simp only [wordCount, List.length_singleton]
    omega
  | case3 sum => exact Nat.le_add_right _ _

/-- No byte string of up to 2 ^ 48 bytes makes the sum too large for 64 bits. -/
theorem toNat_addWords64_zero {bytes : List UInt8} (hlength : bytes.length ≤ 2 ^ 48) :
    (addWords64 0 bytes).toNat = addWords 0 bytes := by
  apply toNat_addWords64
  have hle := addWords_le 0 bytes
  unfold wordCount at hle
  change addWords 0 bytes < 2 ^ 64
  omega

/-- Where the rounds end on the sum of the words, its low 16 bits are the complement of the
    checksum. -/
theorem FoldsIn.complement_eq {bytes : List UInt8} {rounds : Nat}
    (hfolds : FoldsIn (addWords64 0 bytes) rounds) (hlength : bytes.length ≤ 2 ^ 48) :
    ~~~ (carryRound^[rounds] (addWords64 0 bytes)).toUInt16 = internetChecksum bytes := by
  have hlow : (carryRound^[rounds] (addWords64 0 bytes)).toUInt16 =
      UInt16.ofNat (foldSum (addWords 0 bytes)) := by
    apply UInt16.toNat_inj.mp
    rw [UInt64.toNat_toUInt16, hfolds.folded, toNat_addWords64_zero hlength, UInt16.toNat_ofNat']
  rw [hlow, internetChecksum]

end Rounds

/-- The algebra of the checksum. Leaving the checksum of a packet out is taking it as 0; with it in
    place, an encoded packet has the checksum 0; one word is taken for another exactly if they are
    the two zeros of the one's complement and not all other words are 0; and on any 64-bit sum the
    carry ends, within four rounds, which for the sum of the words of a byte string is where its
    checksum is taken. -/
theorem checksum_algebra :
    (∀ bytes : List UInt8, 6 ≤ bytes.length →
      packetChecksum bytes = internetChecksum (clearChecksum bytes)) ∧
    (∀ (packet : Packet) (bytes : List UInt8), packet.encode = .ok bytes →
      internetChecksum bytes = 0) ∧
    (∀ (first second : List UInt8) (index : Nat), DiffersAt first second index →
      (packetChecksum first = packetChecksum second ↔
        (wordAt first index = 0 ∧ wordAt second index = 0xffff ∨
          wordAt first index = 0xffff ∧ wordAt second index = 0) ∧
        ∃ other, other ≠ index ∧ other ≠ 2 ∧ wordAt first other ≠ 0)) ∧
    (∀ sum : UInt64, ∃ rounds ≤ 4, FoldsIn sum rounds) ∧
    ∀ (bytes : List UInt8) (rounds : Nat), bytes.length ≤ 2 ^ 48 →
    FoldsIn (addWords64 0 bytes) rounds →
      ~~~ (carryRound^[rounds] (addWords64 0 bytes)).toUInt16 = internetChecksum bytes :=
  ⟨fun _ hlength => packetChecksum_eq_clear hlength,
    fun _ _ hencode => Packet.internetChecksum_of_encode hencode,
    fun _ _ _ hdiffers => hdiffers.packetChecksum_eq_iff, exists_foldsIn,
    fun _ _ hlength hfolds => hfolds.complement_eq hlength⟩

/-- The last word is 0x0000 here and 0xffff there: beside a word that is not 0 the checksums are the
    same, and beside zeros alone they are not. -/
theorem checksum_algebra_zeros :
    DiffersAt [0, 0, 0, 1, 9, 9, 0, 0] [0, 0, 0, 1, 9, 9, 0xff, 0xff] 3 ∧
    packetChecksum [0, 0, 0, 1, 9, 9, 0, 0] = packetChecksum [0, 0, 0, 1, 9, 9, 0xff, 0xff] ∧
    packetChecksum [0, 0, 0, 0, 9, 9, 0, 0] ≠ packetChecksum [0, 0, 0, 0, 9, 9, 0xff, 0xff] ∧
    packetChecksum [0, 0, 0, 1, 9, 9, 0, 0] = internetChecksum [0, 0, 0, 1, 0, 0, 0, 0] ∧
    (∃ bytes, (Packet.ofParameters .i1 Hit.zero Hit.zero []).encode = .ok bytes ∧
      internetChecksum bytes = 0) ∧
    (∃ rounds ≤ 4, FoldsIn 0xffffffffffffffff rounds) ∧
    ∃ rounds ≤ 4, ~~~ (carryRound^[rounds] (addWords64 0 [1, 2, 3])).toUInt16 =
      internetChecksum [1, 2, 3] := by
  obtain ⟨hclear, hencoded, hexchange, hrounds, hbytes⟩ := checksum_algebra
  have hsame : ∀ kind : UInt8,
      DiffersAt [0, 0, 0, kind, 9, 9, 0, 0] [0, 0, 0, kind, 9, 9, 0xff, 0xff] 3 := by
    intro kind
    refine ⟨rfl, by simp, by decide, by simp [wordAt], fun other hindex hchecksum => ?_⟩
    have hother : other = 0 ∨ other = 1 ∨ 4 ≤ other := by omega
    rcases hother with rfl | rfl | hend
    · rfl
    · rfl
    · have hcount : ∀ low : UInt8, wordCount [0, 0, 0, kind, 9, 9, low, low] = 4 := fun low => by
        simp [wordCount]
      rw [wordAt_of_le ((hcount 0).trans_le hend), wordAt_of_le ((hcount 0xff).trans_le hend)]
  have hbeside : packetChecksum [0, 0, 0, 1, 9, 9, 0, 0] =
      packetChecksum [0, 0, 0, 1, 9, 9, 0xff, 0xff] :=
    (hexchange _ _ 3 (hsame 1)).mpr ⟨.inl ⟨rfl, rfl⟩, 1, by decide, by decide, by decide⟩
  have hcleared : packetChecksum [0, 0, 0, 1, 9, 9, 0, 0] =
      internetChecksum [0, 0, 0, 1, 0, 0, 0, 0] :=
    hclear [0, 0, 0, 1, 9, 9, 0, 0] (by decide)
  obtain ⟨bytes, hencode⟩ : ∃ bytes, (Packet.ofParameters .i1 Hit.zero Hit.zero []).encode =
    .ok bytes :=
    ⟨_, rfl⟩
  have hshort : ([1, 2, 3] : List UInt8).length ≤ 2 ^ 48 := by decide
  obtain ⟨rounds, hfew, hfolds⟩ := hrounds (addWords64 0 [1, 2, 3])
  refine ⟨hsame 1, hbeside, ?_, hcleared, ⟨bytes, hencode, hencoded _ bytes hencode⟩, hrounds _,
    rounds, hfew, hbytes [1, 2, 3] rounds hshort hfolds⟩
  intro hequal
  obtain ⟨-, other, hindex, hchecksum, hword⟩ := (hexchange _ _ 3 (hsame 0)).mp hequal
  have hother : other = 0 ∨ other = 1 ∨ 4 ≤ other := by omega
  rcases hother with rfl | rfl | hend
  · exact hword (by decide)
  · exact hword (by decide)
  · exact hword (wordAt_of_le hend)

end DietExchange
