import DietExchange.Aes.Cipher
import DietExchange.Error

/-!
CMAC, the message authentication code built on a block cipher. The message is cut into blocks of
16 bytes, at least one; each block but the last is added to the running value and encrypted; the
last is masked with one of two subkeys, the first if it is complete, the second after it was
padded with a one bit and zeros.
-/

namespace DietExchange

/-- Doubling in GF(2 ^ 128): all bits move up by one, and a bit that falls out at the top comes back
    as the low bits of the field's polynomial. -/
def Block.double (block : Block) : Block :=
  let value := block.toNat
  Block.ofNat (if value.testBit 127 then (2 * value) ^^^ 0x87 else 2 * value)

/-- A keyed block cipher with the two subkeys of its CMAC. -/
structure CmacKey where
  cipher : Block → Block
  k1 : Block
  k2 : Block

namespace CmacKey

/-- The subkeys are the encryption of the zero block, doubled once and twice. -/
def ofCipher (cipher : Block → Block) : CmacKey :=
  let k1 := (cipher Block.zero).double
  { cipher := cipher, k1 := k1, k2 := k1.double }

/-- AES under this schedule. -/
def ofSchedule (schedule : Aes.Schedule) : CmacKey := ofCipher (Aes.encrypt schedule)

/-- AES under a key of one block, which cannot fail. -/
def ofBlock (key : Block) : CmacKey := ofSchedule (Aes.scheduleOfBlock key)

/-- AES under a key of 16, 24 or 32 bytes. -/
def ofBytes (key : List UInt8) : Except Error CmacKey :=
  match Aes.schedule? key with
  | some schedule => .ok (ofSchedule schedule)
  | none => .error (.crypto (.cmacKeyLength key.length))

/-- The next running value: the block is added to the running one, and the sum is encrypted. -/
def chain (key : CmacKey) (running block : Block) : Block := key.cipher (running.xor block)

/-- The last block of a message, of at most 16 bytes, masked with the subkey that tells whether it
    was padded. -/
def maskLast (key : CmacKey) (last : List UInt8) : Block :=
  if last.length = 16 then (Block.ofPadded last).xor key.k1
  else (Block.ofPadded (last ++ [0x80])).xor key.k2

/-- Chain the first `count` blocks of the message, and hand back the running value and what is
    left. -/
def chainBlocks (key : CmacKey) : (count : Nat) → Block → List UInt8 → Block × List UInt8
  | 0, running, message => (running, message)
  | count + 1, running, message =>
    chainBlocks key count (key.chain running (Block.ofPadded message)) (message.drop 16)

/-- The CMAC of a message: every block but the last is chained from zero, then the masked last
    one. -/
def tag (key : CmacKey) (message : List UInt8) : Block :=
  let (running, last) := key.chainBlocks ((message.length - 1) / 16) Block.zero message
  key.chain running (key.maskLast last)

theorem ofBytes_toList (key : Block) : ofBytes key.toList = .ok (ofBlock key) := by
  simp [ofBytes, Aes.schedule?_toList, ofBlock]

theorem ofBytes_ok_iff {key : List UInt8} :
    (∃ cmac, ofBytes key = .ok cmac) ↔ key.length = 16 ∨ key.length = 24 ∨ key.length = 32 := by
  rw [← Aes.schedule?_isSome_iff]
  unfold ofBytes
  cases Aes.schedule? key <;> simp

end CmacKey

end DietExchange
