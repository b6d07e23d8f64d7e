import DietExchange.Cmac.Tag

/-!
CMAC as the standard writes it: the message cut into numbered blocks, the subkeys as products with
x in GF(2 ^ 128) on strings of 128 bits, and the running value of every block number.
-/

namespace DietExchange

namespace Block

/-- The block as a string of bits, most significant first. -/
def toBits (block : Block) : BitVec 128 := BitVec.ofNat 128 block.toNat

/-- The block that a string of bits spells. -/
def ofBits (bits : BitVec 128) : Block := ofNat bits.toNat

theorem toNat_lt (block : Block) : block.toNat < Nat.pow 2 128 := by
  have hlt := bigEndianValue_lt block.toList
  rwa [length_toList] at hlt

theorem toNat_toBits (block : Block) : block.toBits.toNat = block.toNat :=
  Nat.mod_eq_of_lt block.toNat_lt

/-- Only the low 128 bits of a number show in its block. -/
theorem ofNat_mod (value : Nat) : ofNat (value % Nat.pow 2 128) = ofNat value := by
  have hagain := bigEndian_bigEndianValue (bigEndian 16 value)
  rw [length_bigEndian, bigEndianValue_bigEndian] at hagain
  exact congrArg ofPadded hagain

end Block

namespace Cmac

/-- The product with x in GF(2 ^ 128): the string moves up by one bit, and a one that falls out is
    reduced by the field's polynomial x ^ 128 + x ^ 7 + x ^ 2 + x + 1. -/
def timesX (bits : BitVec 128) : BitVec 128 :=
  if bits.msb then (bits <<< 1) ^^^ 0x87#128 else bits <<< 1

/-- The subkey for a last block that is complete. -/
def subkey1 (cipher : Block → Block) : Block := Block.ofBits (timesX (cipher Block.zero).toBits)

/-- The subkey for a last block that had to be padded. -/
def subkey2 (cipher : Block → Block) : Block := Block.ofBits (timesX (subkey1 cipher).toBits)

/-- The number of blocks of a message; an empty message has one, which is empty. -/
def blockCount (message : List UInt8) : Nat := max 1 ((message.length + 15) / 16)

/-- The bytes of the block of this number, counted from 0. -/
def blockAt (message : List UInt8) (index : Nat) : List UInt8 := (message.drop (16 * index)).take 16

/-- Bytes followed by a one bit and as many zeros as a block still takes. -/
def pad (bytes : List UInt8) : List UInt8 := bytes ++ 0x80 :: List.replicate (15 - bytes.length) 0

/-- The running value after so many blocks. -/
def chained (cipher : Block → Block) (message : List UInt8) : (count : Nat) → Block
  | 0 => Block.zero
  | count + 1 =>
    cipher ((chained cipher message count).xor (Block.ofPadded (blockAt message count)))

/-- The last block, under the subkey that says whether it is complete. -/
def lastBlock (cipher : Block → Block) (message : List UInt8) : Block :=
  let last := blockAt message (blockCount message - 1)
  if 0 < message.length ∧ message.length % 16 = 0 then
    (Block.ofPadded last).xor (subkey1 cipher)
  else
    (Block.ofPadded (pad last)).xor (subkey2 cipher)

/-- The CMAC of a message. -/
def tag (cipher : Block → Block) (message : List UInt8) : Block :=
  cipher ((chained cipher message (blockCount message - 1)).xor (lastBlock cipher message))

theorem blockCount_sub_one (message : List UInt8) :
    blockCount message - 1 = (message.length - 1) / 16 := by
  unfold blockCount
  omega

/-- A block that is there does not change when the message grows behind it. -/
theorem blockAt_append {message : List UInt8} (more : List UInt8) {index : Nat}
    (hindex : 16 * (index + 1) ≤ message.length) :
    blockAt (message ++ more) index = blockAt message index := by
  have hstart : 16 * index ≤ message.length := by omega
  have hend : 16 ≤ (message.drop (16 * index)).length := by
    rw [List.length_drop]
    omega
  rw [blockAt, List.drop_append_of_le_length hstart, List.take_append_of_le_length hend, blockAt]

/-- Nor does the running value after blocks that are there. -/
theorem chained_append (cipher : Block → Block) {message : List UInt8} (more : List UInt8)
    {count : Nat} (hcount : 16 * count ≤ message.length) :
    chained cipher (message ++ more) count = chained cipher message count := by
  induction count with
  | zero => rfl
  | succ count ih => rw [chained, chained, ih (by omega), blockAt_append more hcount]

theorem ofPadded_take (bytes : List UInt8) : Block.ofPadded (bytes.take 16) =
    Block.ofPadded bytes := by
  simp only [Block.ofPadded, List.take_take, Nat.min_self]

theorem ofPadded_pad {bytes : List UInt8} (hshort : bytes.length < 16) :
    Block.ofPadded (pad bytes) = Block.ofPadded (bytes ++ [0x80]) := by
  have hpad : (pad bytes).length = 16 := by
    simp only [pad, List.length_append, List.length_cons, List.length_replicate]
    omega
  have hmark : (bytes ++ [0x80]).length ≤ 16 := by
    rw [List.length_append, List.length_singleton]
    omega
  apply Vector.toList_inj.mp
  rw [Block.toList_ofPadded hpad]
  simp only [Block.ofPadded, Vector.toList, List.take_of_length_le hmark, List.rightpad,
    List.length_append, List.length_singleton, pad, List.append_assoc, List.singleton_append,
    Nat.add_comm bytes.length 1, Nat.sub_add_eq]

end Cmac

/-- Doubling a block is the product with x. -/
theorem Block.double_eq_timesX (block : Block) :
    block.double = Block.ofBits (Cmac.timesX block.toBits) := by
  have hmsb : block.toBits.msb = block.toNat.testBit 127 := by
    rw [BitVec.msb_eq_getLsbD_last, BitVec.getLsbD, toNat_toBits]
  have hshift : (block.toBits <<< 1).toNat = 2 * block.toNat % 2 ^ 128 := by
    rw [BitVec.toNat_shiftLeft, toNat_toBits, Nat.shiftLeft_eq, Nat.pow_one, Nat.mul_comm]
  have hmod : ∀ value, ofNat (value % 2 ^ 128) = ofNat value := ofNat_mod
  rw [double, Cmac.timesX, hmsb, ofBits]
  split
  · rw [BitVec.toNat_xor, hshift, ← hmod, Nat.xor_mod_two_pow]
    rfl
  · rw [hshift, hmod]

namespace CmacKey

open Cmac (blockAt blockCount chained)

/-- Chaining goes from one block number to a later one. -/
theorem chainBlocks_chained (key : CmacKey) (message : List UInt8) (done count : Nat) :
    key.chainBlocks count (chained key.cipher message done) (message.drop (16 * done)) =
      (chained key.cipher message (done + count), message.drop (16 * (done + count))) := by
  induction count generalizing done with
  | zero => rfl
  | succ count ih =>
    have hstep : key.chain (chained key.cipher message done)
        (Block.ofPadded (message.drop (16 * done))) = chained key.cipher message (done + 1) := by
      rw [chained, blockAt, Cmac.ofPadded_take, chain]
    have hdrop : (message.drop (16 * done)).drop 16 = message.drop (16 * (done + 1)) := by
      rw [List.drop_drop, Nat.mul_succ]
    rw [chainBlocks, hstep, hdrop, ih (done + 1), Nat.add_right_comm, Nat.add_assoc]

/-- The tag of a message is what its numbered blocks but the last are chained to, and the masked
    last block. -/
theorem tag_eq_chained (key : CmacKey) (message : List UInt8) :
    key.tag message =
      key.chain (chained key.cipher message ((message.length - 1) / 16))
        (key.maskLast (message.drop (16 * ((message.length - 1) / 16)))) := by
  have hblocks := chainBlocks_chained key message 0 ((message.length - 1) / 16)
  rw [Nat.zero_add, Nat.mul_zero, List.drop_zero] at hblocks
  exact congrArg (fun pair => key.chain pair.1 (key.maskLast pair.2)) hblocks

/-- Masking the last block is what the standard does to it. -/
theorem maskLast_ofCipher (cipher : Block → Block) (message : List UInt8) :
    (ofCipher cipher).maskLast (message.drop (16 * ((message.length - 1) / 16))) =
      Cmac.lastBlock cipher message := by
  have hlength : (message.drop (16 * ((message.length - 1) / 16))).length =
      message.length - 16 * ((message.length - 1) / 16) := List.length_drop
  have hat : blockAt message ((message.length - 1) / 16) =
      message.drop (16 * ((message.length - 1) / 16)) := by
    apply List.take_of_length_le
    omega
  have hk1 : (ofCipher cipher).k1 = Cmac.subkey1 cipher := Block.double_eq_timesX _
  have hk2 : (ofCipher cipher).k2 = Cmac.subkey2 cipher := by
    rw [Cmac.subkey2, ← hk1]
    exact Block.double_eq_timesX _
  rw [maskLast, Cmac.lastBlock, Cmac.blockCount_sub_one, hat, hk1, hk2]
  by_cases hcomplete : 0 < message.length ∧ message.length % 16 = 0
  · rw [if_pos hcomplete, if_pos (by omega)]
  · have hshort : (message.drop (16 * ((message.length - 1) / 16))).length < 16 := by omega
    rw [if_neg hcomplete, if_neg (Nat.ne_of_lt hshort), Cmac.ofPadded_pad hshort]

/-- The tag under a key made of a cipher is the standard's. -/
theorem tag_ofCipher (cipher : Block → Block) (message : List UInt8) :
    (ofCipher cipher).tag message = Cmac.tag cipher message := by
  rw [tag_eq_chained, maskLast_ofCipher, Cmac.tag, Cmac.blockCount_sub_one]
  rfl

end CmacKey

end DietExchange
