import DietExchange.KeySet
import DietExchange.Proofs.Cmac.Operations

namespace DietExchange

namespace KeyDerivation

section Recurrence

variable (cipher : Block → Block)

/-- The block of this number. Blocks are counted from 1, and what stands before the first is
    empty. -/
def streamBlock : (index : Nat) → List UInt8
  | 0 => []
  | index + 1 =>
    (Cmac.tag cipher (streamBlock index ++ expandLabel ++ [UInt8.ofNat (index + 1)])).toList

/-- The first `count` blocks of the stream. -/
def streamBlocks (count : Nat) : List UInt8 := (List.range' 1 count).flatMap (streamBlock cipher)

theorem streamBlocks_succ (count : Nat) :
    streamBlocks cipher (count + 1) = streamBlocks cipher count ++
      streamBlock cipher (count + 1) := by
  rw [streamBlocks, List.range'_1_concat, List.flatMap_append, List.flatMap_singleton,
    Nat.add_comm 1 count, streamBlocks]

theorem length_streamBlocks (count : Nat) : (streamBlocks cipher count).length = 16 * count := by
  induction count with
  | zero => rfl
  | succ count ih =>
    rw [streamBlocks_succ, List.length_append, ih, streamBlock, Block.length_toList, Nat.mul_succ]

/-- A longer stream goes on behind a shorter one. -/
theorem streamBlocks_isPrefix {count more : Nat} (hle : count ≤ more) :
    streamBlocks cipher count <+: streamBlocks cipher more := by
  induction hle with
  | refl => exact List.prefix_rfl
  | step _ ih =>
    rw [streamBlocks_succ]
    exact ih.trans (List.prefix_append _ _)

/-- How many blocks are there does not matter to bytes that all of them have. -/
theorem take_streamBlocks {count more length : Nat} (hcount : length ≤ 16 * count)
    (hmore : length ≤ 16 * more) :
    (streamBlocks cipher count).take length = (streamBlocks cipher more).take length := by
  have hfront : ∀ {few many : Nat}, few ≤ many → length ≤ 16 * few →
      (streamBlocks cipher few).take length = (streamBlocks cipher many).take length := by
    intro few many hle hfew
    obtain ⟨rest, hrest⟩ := streamBlocks_isPrefix cipher hle
    rw [← hrest, List.take_append_of_le_length (by rwa [length_streamBlocks])]
  rcases Nat.le_total count more with hle | hle
  · exact hfront hle hcount
  · exact (hfront hle hmore).symm

/-- The blocks from some number on, with the one before them at hand. -/
theorem expandBlocks_eq (count done : Nat) :
    expandBlocks (CmacKey.ofCipher cipher) count (done + 1) (streamBlock cipher done) =
      (List.range' (done + 1) count).flatMap (streamBlock cipher) := by
  induction count generalizing done with
  | zero => rfl
  | succ count ih =>
    have hblock : ((CmacKey.ofCipher cipher).tag
        (streamBlock cipher done ++ expandLabel ++ [UInt8.ofNat (done + 1)])).toList =
        streamBlock cipher (done + 1) := by rw [CmacKey.tag_ofCipher, streamBlock]
    rw [expandBlocks, hblock, ih (done + 1), List.range'_succ, List.flatMap_cons]

end Recurrence

/-- Between two blocks: the CMAC in use, the last block, and the stream so far. -/
structure Expansion where
  mac : CmacStream
  previous : Block
  out : List UInt8

namespace Expansion

/-- Nothing is made yet. What stands in place of a last block is not used. -/
def start (mac : CmacStream) : Expansion := ⟨mac, Block.zero, []⟩

/-- Make the block of this number: the last block is fed unless there is none, then the label and
    one byte of the number. -/
def step (expansion : Expansion) (index : Nat) : Expansion :=
  let mac := if 1 < index then expansion.mac.update expansion.previous.toList else expansion.mac
  let (tag, mac) := ((mac.update expandLabel).updateNumber 1 index).finalize
  ⟨mac, tag, expansion.out ++ tag.toList⟩

/-- After `count` blocks of the recurrence: the CMAC is as new, and the last block is at hand. -/
structure Follows (cipher : Block → Block) (count : Nat) (expansion : Expansion) : Prop where
  mac : expansion.mac = CmacStream.start (CmacKey.ofCipher cipher)
  previous : 0 < count → expansion.previous.toList = streamBlock cipher count
  out : expansion.out = streamBlocks cipher count

variable {cipher : Block → Block} {count : Nat} {expansion : Expansion}

/-- The last block is fed, and before the first there is none to feed. -/
theorem Follows.feed (hfollows : expansion.Follows cipher count) :
    (if 1 < count + 1 then expansion.mac.update expansion.previous.toList else expansion.mac) =
      (CmacStream.start (CmacKey.ofCipher cipher)).update (streamBlock cipher count) := by
  cases count with
  | zero => rw [if_neg (Nat.lt_irrefl 1), streamBlock, CmacStream.update_nil, hfollows.mac]
  | succ count =>
    rw [if_pos (Nat.lt_add_of_pos_left (Nat.succ_pos count)),
      hfollows.previous (Nat.succ_pos count), hfollows.mac]

/-- What is fed for a block piece by piece has the block as its tag, and the CMAC is as new then. -/
theorem finalize_fed (cipher : Block → Block) (count : Nat) :
    ((((CmacStream.start (CmacKey.ofCipher cipher)).update (streamBlock cipher count)).update
      expandLabel).updateNumber 1 (count + 1)).finalize =
      (Cmac.tag cipher (streamBlock cipher count ++ expandLabel ++ [UInt8.ofNat (count + 1)]),
        CmacStream.start (CmacKey.ofCipher cipher)) := by
  have hheld := (((CmacStream.holds_start (CmacKey.ofCipher cipher)).update
    (streamBlock cipher count)).update expandLabel).update (bigEndian 1 (count + 1))
  have hnumber : bigEndian 1 (count + 1) = [UInt8.ofNat (count + 1)] := by simp [bigEndian]
  have hkey : (CmacStream.start (CmacKey.ofCipher cipher)).key = CmacKey.ofCipher cipher := rfl
  rw [CmacStream.updateNumber, hheld.finalize]
  simp only [CmacStream.key_update, hkey, CmacKey.tag_ofCipher, List.nil_append, hnumber]

/-- One round of the loop makes the next block of the recurrence. -/
theorem Follows.step (hfollows : expansion.Follows cipher count) :
    (expansion.step (count + 1)).Follows cipher (count + 1) := by
  have hstep : expansion.step (count + 1) =
      ⟨CmacStream.start (CmacKey.ofCipher cipher),
        Cmac.tag cipher (streamBlock cipher count ++ expandLabel ++ [UInt8.ofNat (count + 1)]),
        expansion.out ++ streamBlock cipher (count + 1)⟩ := by
    simp only [Expansion.step, hfollows.feed, finalize_fed, streamBlock]
  rw [hstep]
  exact ⟨rfl, fun _ => rfl, by rw [streamBlocks_succ, hfollows.out]⟩

/-- The whole loop. -/
theorem follows_foldl (cipher : Block → Block) (count : Nat) :
    ((List.range' 1 count).foldl Expansion.step
      (start (CmacStream.start (CmacKey.ofCipher cipher)))).Follows cipher count := by
  induction count with
  | zero => exact ⟨rfl, fun hpos => absurd hpos (Nat.lt_irrefl 0), rfl⟩
  | succ count ih =>
    rw [List.range'_1_concat, List.foldl_append, Nat.add_comm 1 count]
    exact ih.step

end Expansion

/-- The stream, made block by block. -/
def expandInSteps (key : List UInt8) (length : Nat) : Except Error (List UInt8) :=
  if 255 < blockCount length then
    .error (.crypto (.expansionTooLong length))
  else do
    let mac ← CmacStream.ofBytes key
    let expansion := (List.range' 1 (blockCount length)).foldl Expansion.step (Expansion.start mac)
    return expansion.out.take length

theorem le_blockCount (length : Nat) : length ≤ 16 * blockCount length := by
  unfold blockCount
  omega

theorem ofBytes_cipherKey (key : CipherKey) :
    CmacKey.ofBytes key.1 = .ok (CmacKey.ofCipher (Aes.blockCipher key)) := by
  rw [← CmacKey.keyedBy_aes]
  exact dif_pos key.2

section Expand

variable {key : CipherKey} {length : Nat} {bytes : List UInt8}

theorem expand_of_le (key : CipherKey) (hlength : length ≤ 4080) :
    expand key.1 length =
      .ok ((streamBlocks (Aes.blockCipher key) (blockCount length)).take length) := by
  rw [expand, if_neg (Nat.not_lt.mpr (blockCount_le_iff.mpr hlength)), ofBytes_cipherKey]
  exact congrArg (fun blocks => Except.ok (blocks.take length)) (expandBlocks_eq _ _ 0)

theorem expand_of_lt (key : List UInt8) (hlength : 4080 < length) :
    expand key length = .error (.crypto (.expansionTooLong length)) :=
  if_pos (Nat.not_le.mp (mt blockCount_le_iff.mp (Nat.not_le.mpr hlength)))

theorem exists_expand_iff : (∃ bytes, expand key.1 length = .ok bytes) ↔ length ≤ 4080 := by
  constructor
  · rintro ⟨bytes, hbytes⟩
    refine Nat.not_lt.mp fun hlong => ?_
    cases (expand_of_lt key.1 hlong).symm.trans hbytes
  · intro hshort
    exact ⟨_, expand_of_le key hshort⟩

/-- What a key is expanded to is the front of its stream, however far that is carried on. -/
theorem eq_take_of_expand (hexpand : expand key.1 length = .ok bytes) {count : Nat}
    (hcount : length ≤ 16 * count) : bytes =
      (streamBlocks (Aes.blockCipher key) count).take length := by
  have hlength := exists_expand_iff.mp ⟨bytes, hexpand⟩
  obtain rfl := Except.ok.inj ((expand_of_le key hlength).symm.trans hexpand)
  exact take_streamBlocks _ (le_blockCount length) hcount

theorem length_of_expand (hexpand : expand key.1 length = .ok bytes) : bytes.length = length := by
  rw [eq_take_of_expand hexpand (le_blockCount length), List.length_take, length_streamBlocks,
    Nat.min_eq_left (le_blockCount length)]

/-- One byte has the number of every block that is made. -/
theorem toNat_index (hlength : length ≤ 4080) {index : Nat}
    (hindex : index ∈ List.range' 1 (blockCount length)) :
    1 ≤ index ∧ index ≤ 255 ∧ (UInt8.ofNat index).toNat = index := by
  have hcount := blockCount_le_iff.mpr hlength
  rw [List.mem_range'_1] at hindex
  have hbyte : index < UInt8.size := by
    unfold UInt8.size
    omega
  exact ⟨hindex.1, by omega, UInt8.toNat_ofNat_of_lt' hbyte⟩

/-- The loop makes the same bytes, and fails where no block is made. -/
theorem expandInSteps_eq_expand (key : CipherKey) (length : Nat) :
    expandInSteps key.1 length = expand key.1 length := by
  by_cases hlength : length ≤ 4080
  · have hmac : CmacStream.ofBytes key.1 =
        .ok (CmacStream.start (CmacKey.ofCipher (Aes.blockCipher key))) := by
      rw [CmacStream.ofBytes, ofBytes_cipherKey]
      rfl
    have hloop := (Expansion.follows_foldl (Aes.blockCipher key) (blockCount length)).out
    rw [expandInSteps, if_neg (Nat.not_lt.mpr (blockCount_le_iff.mpr hlength)), hmac,
      expand_of_le key hlength]
    exact congrArg (fun out => Except.ok (out.take length)) hloop
  · rw [expand_of_lt key.1 (Nat.not_le.mp hlength)]
    exact if_pos (Nat.not_le.mp (mt blockCount_le_iff.mp hlength))

theorem exists_isPrefix_of_expand (hexpand : expand key.1 length = .ok bytes) {shorter : Nat}
    (hle : shorter ≤ length) : ∃ front, expand key.1 shorter = .ok front ∧ front <+: bytes := by
  have hlength := exists_expand_iff.mp ⟨bytes, hexpand⟩
  obtain ⟨front, hfront⟩ : ∃ front, expand key.1 shorter = .ok front :=
    exists_expand_iff.mpr (Nat.le_trans hle hlength)
  refine ⟨front, hfront, ?_⟩
  rw [eq_take_of_expand hfront (Nat.le_trans hle (le_blockCount length)),
    eq_take_of_expand hexpand (le_blockCount length)]
  exact List.take_prefix_take_left hle

end Expand

/-- A key is expanded to any number of bytes up to 4080, and to no more. They are the first of its
    stream, the number of every block they are from fits one byte, the loop makes them, and fewer
    bytes are the front of more. -/
theorem expand_eq_stream (key : CipherKey) (length : Nat) :
    ((∃ bytes, expand key.1 length = .ok bytes) ↔ length ≤ 4080) ∧
    (4080 < length → expand key.1 length = .error (.crypto (.expansionTooLong length))) ∧
    (∀ bytes, expand key.1 length = .ok bytes → bytes.length = length ∧
      (∀ count, length ≤ 16 * count →
        bytes = (streamBlocks (Aes.blockCipher key) count).take length) ∧
      (∀ index ∈ List.range' 1 (blockCount length),
        1 ≤ index ∧ index ≤ 255 ∧ (UInt8.ofNat index).toNat = index) ∧
      ∀ shorter ≤ length, ∃ front, expand key.1 shorter = .ok front ∧ front <+: bytes) ∧
    expandInSteps key.1 length = expand key.1 length := by
  refine ⟨exists_expand_iff, expand_of_lt key.1, ?_, expandInSteps_eq_expand key length⟩
  intro bytes hexpand
  have hlength := exists_expand_iff.mp ⟨bytes, hexpand⟩
  exact ⟨length_of_expand hexpand, fun count => eq_take_of_expand hexpand,
    fun index => toNat_index hlength, fun shorter => exists_isPrefix_of_expand hexpand⟩

/-- The longest stream under a key of 16 bytes, and a stream that ends inside its second block. -/
theorem expand_eq_stream_longest : ∃ short long : List UInt8,
    expand (List.replicate 16 7) 20 = .ok short ∧ expand (List.replicate 16 7) 4080 = .ok long ∧
    short.length = 20 ∧ long.length = 4080 ∧ short <+: long ∧
    expand (List.replicate 16 7) 4081 = .error (.crypto (.expansionTooLong 4081)) := by
  have spec := expand_eq_stream ⟨List.replicate 16 7, .inl rfl⟩
  obtain ⟨long, hlong⟩ := (spec 4080).1.mpr (Nat.le_refl 4080)
  obtain ⟨hlength, -, -, hfront⟩ := (spec 4080).2.2.1 long hlong
  obtain ⟨short, hshort, hprefix⟩ := hfront 20 (by decide)
  exact ⟨short, long, hshort, hlong, ((spec 20).2.2.1 short hshort).1, hlength, hprefix,
    (spec 4081).2.1 (by decide)⟩

end KeyDerivation

end DietExchange
