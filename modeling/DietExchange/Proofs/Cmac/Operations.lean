import DietExchange.Proofs.Cmac.Streaming

/-!
Everything that can be done to a streamed CMAC, in any order, against a ledger that only keeps the
key and the bytes fed and computes each tag from scratch. The block cipher is any family of
functions on blocks, one for each key of 16, 24 or 32 bytes.
-/

namespace DietExchange

/-- A key of a length that the cipher has. -/
def CipherKey : Type := { key : List UInt8 // key.length = 16 ∨ key.length = 24 ∨ key.length = 32 }

/-- A block cipher: what each key does to a block. -/
abbrev BlockCipher : Type := CipherKey → Block → Block

/-- The cipher's CMAC under these bytes, if they are a key. -/
def CmacKey.keyedBy (cipher : BlockCipher) (key : List UInt8) : Except Error CmacKey :=
  if hkey : key.length = 16 ∨ key.length = 24 ∨ key.length = 32 then
    .ok (ofCipher (cipher ⟨key, hkey⟩))
  else
    .error (.crypto (.cmacKeyLength key.length))

/-- AES, with the number of rounds that the length of the key asks for. -/
def Aes.blockCipher : BlockCipher := fun key => encrypt (Schedule.ofKey (key.1.length / 4) key.1)

theorem CmacKey.keyedBy_aes : keyedBy Aes.blockCipher = ofBytes := by
  funext key
  unfold keyedBy ofBytes Aes.schedule?
  by_cases hkey : key.length = 16 ∨ key.length = 24 ∨ key.length = 32
  · rw [dif_pos hkey, if_pos hkey]
    rfl
  · rw [dif_neg hkey, if_neg hkey]

namespace Cmac

/-- What can be asked of a streamed CMAC. -/
inductive Operation
  | update (bytes : List UInt8)
  | updateU8 (value : UInt8)
  | updateU16 (value : UInt16)
  | updateU32 (value : UInt32)
  | finalize
  | finalizeInto (length : Nat)
  | reset
  | rekey (key : List UInt8)

/-- What an operation hands back. -/
inductive Answer
  | nothing
  | tag (tag : Block)
  | shortened (result : Except Error (List UInt8))
  | rekeyed (result : Except Error Unit)

/-- The key, and the bytes fed since the last tag, reset or change of key. -/
structure Ledger where
  key : CipherKey
  fed : List UInt8

namespace Ledger

/-- More bytes are fed. -/
def feed (ledger : Ledger) (bytes : List UInt8) : Ledger :=
  { ledger with fed := ledger.fed ++ bytes }

/-- The tag of what was fed. -/
def tag (cipher : BlockCipher) (ledger : Ledger) : Block := Cmac.tag (cipher ledger.key) ledger.fed

/-- What an operation answers and what it leaves on the ledger. -/
def perform (cipher : BlockCipher) (ledger : Ledger) : Operation → Answer × Ledger
  | .update bytes => (.nothing, ledger.feed bytes)
  | .updateU8 value => (.nothing, ledger.feed [value])
  | .updateU16 value => (.nothing, ledger.feed [(value >>> 8).toUInt8, value.toUInt8])
  | .updateU32 value =>
    (.nothing, ledger.feed
      [(value >>> 24).toUInt8, (value >>> 16).toUInt8, (value >>> 8).toUInt8, value.toUInt8])
  | .finalize => (.tag (ledger.tag cipher), ⟨ledger.key, []⟩)
  | .finalizeInto length =>
    if length ≤ 16 then
      (.shortened (.ok ((ledger.tag cipher).toList.take length)), ⟨ledger.key, []⟩)
    else
      (.shortened (.error (.crypto (.cmacOutputLength length))), ledger)
  | .reset => (.nothing, ⟨ledger.key, []⟩)
  | .rekey key =>
    if hkey : key.length = 16 ∨ key.length = 24 ∨ key.length = 32 then
      (.rekeyed (.ok ()), ⟨⟨key, hkey⟩, []⟩)
    else
      (.rekeyed (.error (.crypto (.cmacKeyLength key.length))), ledger)

/-- The answers to a sequence of operations. -/
def answers (cipher : BlockCipher) : Ledger → List Operation → List Answer
  | _, [] => []
  | ledger, operation :: rest =>
    (ledger.perform cipher operation).1 :: (ledger.perform cipher operation).2.answers cipher rest

end Ledger

theorem bigEndian_toNat_uint8 (value : UInt8) : bigEndian 1 value.toNat = [value] := by
  simp [bigEndian]

theorem bigEndian_toNat_uint16 (value : UInt16) :
    bigEndian 2 value.toNat = [(value >>> 8).toUInt8, value.toUInt8] := by
  simp [bigEndian, ← UInt8.toNat_inj, Nat.shiftRight_eq_div_pow]

theorem bigEndian_toNat_uint32 (value : UInt32) :
    bigEndian 4 value.toNat =
      [(value >>> 24).toUInt8, (value >>> 16).toUInt8, (value >>> 8).toUInt8, value.toUInt8] := by
  simp [bigEndian, ← UInt8.toNat_inj, Nat.shiftRight_eq_div_pow]

end Cmac

namespace CmacStream

open Cmac (Answer Ledger Operation)

/-- What an operation answers and what it makes of the stream, where `keyed` turns bytes into a
    key. -/
def perform (keyed : List UInt8 → Except Error CmacKey) (stream : CmacStream) :
    Operation → Answer × CmacStream
  | .update bytes => (.nothing, stream.update bytes)
  | .updateU8 value => (.nothing, stream.updateNumber 1 value.toNat)
  | .updateU16 value => (.nothing, stream.updateNumber 2 value.toNat)
  | .updateU32 value => (.nothing, stream.updateNumber 4 value.toNat)
  | .finalize => (.tag stream.finalize.1, stream.finalize.2)
  | .finalizeInto length =>
    (.shortened (stream.finalizeInto length).1, (stream.finalizeInto length).2)
  | .reset => (.nothing, stream.reset)
  | .rekey key => (.rekeyed (stream.rekeyWith keyed key).1, (stream.rekeyWith keyed key).2)

/-- The answers to a sequence of operations. -/
def answers (keyed : List UInt8 → Except Error CmacKey) : CmacStream → List Operation → List Answer
  | _, [] => []
  | stream, operation :: rest =>
    (stream.perform keyed operation).1 :: (stream.perform keyed operation).2.answers keyed rest

variable {cipher : BlockCipher} {stream : CmacStream} {ledger : Ledger}

/-- The stream is under the ledger's key and holds what was fed. -/
structure Follows (cipher : BlockCipher) (stream : CmacStream) (ledger : Ledger) : Prop where
  key_eq : stream.key = CmacKey.ofCipher (cipher ledger.key)
  holds : stream.Holds ledger.fed

theorem follows_start (cipher : BlockCipher) (key : CipherKey) :
    Follows cipher (start (CmacKey.ofCipher (cipher key))) ⟨key, []⟩ :=
  ⟨rfl, holds_start _⟩

theorem Follows.update (hfollows : Follows cipher stream ledger) (bytes : List UInt8) :
    Follows cipher (stream.update bytes) (ledger.feed bytes) :=
  ⟨(key_update stream bytes).trans hfollows.key_eq, hfollows.holds.update bytes⟩

theorem Follows.updateNumber (hfollows : Follows cipher stream ledger) {width value : Nat}
    {bytes : List UInt8} (hbytes : bigEndian width value = bytes) :
    Follows cipher (stream.updateNumber width value) (ledger.feed bytes) := by
  rw [CmacStream.updateNumber, hbytes]
  exact hfollows.update bytes

theorem Follows.reset (hfollows : Follows cipher stream ledger) :
    Follows cipher stream.reset ⟨ledger.key, []⟩ := by
  rw [CmacStream.reset, hfollows.key_eq]
  exact follows_start cipher ledger.key

theorem Follows.finalize (hfollows : Follows cipher stream ledger) :
    stream.finalize = (ledger.tag cipher, stream.reset) := by
  rw [hfollows.holds.finalize, hfollows.key_eq, CmacKey.tag_ofCipher, CmacStream.reset,
    hfollows.key_eq]
  rfl

/-- One operation: the answers agree, and the stream goes on following the ledger. -/
theorem Follows.perform (hfollows : Follows cipher stream ledger) (operation : Operation) :
    (stream.perform (CmacKey.keyedBy cipher) operation).1 = (ledger.perform cipher operation).1 ∧
      Follows cipher (stream.perform (CmacKey.keyedBy cipher) operation).2
        (ledger.perform cipher operation).2 := by
  cases operation with
  | update bytes => exact ⟨rfl, hfollows.update bytes⟩
  | updateU8 value => exact ⟨rfl, hfollows.updateNumber (Cmac.bigEndian_toNat_uint8 value)⟩
  | updateU16 value => exact ⟨rfl, hfollows.updateNumber (Cmac.bigEndian_toNat_uint16 value)⟩
  | updateU32 value => exact ⟨rfl, hfollows.updateNumber (Cmac.bigEndian_toNat_uint32 value)⟩
  | finalize =>
    rw [CmacStream.perform, hfollows.finalize]
    exact ⟨rfl, hfollows.reset⟩
  | finalizeInto length =>
    rw [CmacStream.perform, Ledger.perform, finalizeInto, blockLength, hfollows.finalize]
    by_cases hlength : length ≤ 16
    · rw [if_neg (Nat.not_lt.mpr hlength), if_pos hlength]
      exact ⟨rfl, hfollows.reset⟩
    · rw [if_pos (Nat.lt_of_not_le hlength), if_neg hlength]
      exact ⟨rfl, hfollows⟩
  | reset => exact ⟨rfl, hfollows.reset⟩
  | rekey key =>
    rw [CmacStream.perform, Ledger.perform, rekeyWith, CmacKey.keyedBy]
    by_cases hkey : key.length = 16 ∨ key.length = 24 ∨ key.length = 32
    · rw [dif_pos hkey, dif_pos hkey]
      exact ⟨rfl, follows_start cipher ⟨key, hkey⟩⟩
    · rw [dif_neg hkey, dif_neg hkey]
      exact ⟨rfl, hfollows⟩

/-- Any number of operations, one after another. -/
theorem Follows.answers (hfollows : Follows cipher stream ledger) (operations : List Operation) :
    stream.answers (CmacKey.keyedBy cipher) operations = ledger.answers cipher operations := by
  induction operations generalizing stream ledger with
  | nil => rfl
  | cons operation rest ih =>
    obtain ⟨hanswer, hnext⟩ := hfollows.perform operation
    rw [CmacStream.answers, Ledger.answers, hanswer, ih hnext]

/-- Whatever the block cipher, the key and the operations, a stream answers as the ledger does:
    every tag is the CMAC, under the key in force, of the bytes fed since the last tag, reset or
    change of key, and a refused operation changes no later answer. -/
theorem answers_eq_ledger (cipher : BlockCipher) (key : CipherKey) (operations : List Operation) :
    (start (CmacKey.ofCipher (cipher key))).answers (CmacKey.keyedBy cipher) operations =
      (Ledger.mk key []).answers cipher operations :=
  (follows_start cipher key).answers operations

/-- In particular a stream that was started under AES, with `rekey` to change the key. -/
theorem answers_of_ofBytes {key : List UInt8} {stream : CmacStream}
    (hstream : ofBytes key = .ok stream) (operations : List Operation) :
    ∃ hkey : key.length = 16 ∨ key.length = 24 ∨ key.length = 32,
      stream.answers CmacKey.ofBytes operations =
        (Ledger.mk ⟨key, hkey⟩ []).answers Aes.blockCipher operations := by
  rw [← CmacKey.keyedBy_aes]
  rw [ofBytes, ← CmacKey.keyedBy_aes, CmacKey.keyedBy] at hstream
  split at hstream
  case isTrue hkey =>
    obtain rfl := Except.ok.inj hstream
    exact ⟨hkey, (follows_start Aes.blockCipher ⟨key, hkey⟩).answers operations⟩
  case isFalse => cases hstream

end CmacStream

end DietExchange
