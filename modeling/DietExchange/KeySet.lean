import DietExchange.Cmac.Tag
import DietExchange.Hit

/-!
Session keys and their derivation from a shared secret. The secret is extracted into one key under
the puzzle value I, and that key is expanded into a stream. The greater of the two HITs gets the
first encryption and integrity key of the stream and the lesser gets the next, so that keys belong
to hosts and both hosts derive the same four.
-/

namespace DietExchange

/-- Lengths of the derived keys, in bytes. -/
structure KeyLengths where
  encryption : Nat
  integrity : Nat
  deriving DecidableEq, Repr

namespace KeyLengths

def standard : KeyLengths := ⟨16, 16⟩

instance : Inhabited KeyLengths := ⟨standard⟩

/-- Both keys of both hosts. -/
def total (lengths : KeyLengths) : Nat := 2 * lengths.encryption + 2 * lengths.integrity

end KeyLengths

/-- The two keys with which one host protects what it sends. -/
structure HostKeys where
  encryption : List UInt8
  integrity : List UInt8
  deriving DecidableEq, Inhabited

/-- The four session keys, by handshake role, and the role that we have. -/
structure KeySet where
  initiator : HostKeys
  responder : HostKeys
  isInitiator : Bool
  deriving DecidableEq, Inhabited

namespace KeySet

/-- The keys of what we send. -/
def ours (keys : KeySet) : HostKeys := if keys.isInitiator then keys.initiator else keys.responder

/-- The keys of what the peer sends. -/
def peers (keys : KeySet) : HostKeys := if keys.isInitiator then keys.responder else keys.initiator

/-- Whether both sets hold the same four keys, whatever our role. -/
def SameKeys (a b : KeySet) : Prop := a.initiator = b.initiator ∧ a.responder = b.responder

instance (a b : KeySet) : Decidable (a.SameKeys b) := inferInstanceAs (Decidable (_ ∧ _))

/-- What may be shown of a key set: our role and the lengths, and nothing secret. -/
def summary (keys : KeySet) : String :=
  "KeySet \x7b is_initiator: " ++ toString keys.isInitiator ++ ", encryption_len: " ++
    toString keys.initiator.encryption.length ++ ", integrity_len: " ++
    toString keys.initiator.integrity.length ++ ", .. \x7d"

end KeySet

namespace KeyDerivation

/-- The ASCII text CKDF-Extract. -/
def extractLabel : List UInt8 :=
  [0x43, 0x4b, 0x44, 0x46, 0x2d, 0x45, 0x78, 0x74, 0x72, 0x61, 0x63, 0x74]

/-- The ASCII text CKDF-Expand. -/
def expandLabel : List UInt8 :=
  [0x43, 0x4b, 0x44, 0x46, 0x2d, 0x45, 0x78, 0x70, 0x61, 0x6e, 0x64]

/-- The blocks of the key stream from number `index` on, `count` of them: each is the CMAC of the
    one before, the label and its number. -/
def expandBlocks (key : CmacKey) : (count index : Nat) → (previous : List UInt8) → List UInt8
  | 0, _, _ => []
  | count + 1, index, previous =>
    let block := (key.tag (previous ++ expandLabel ++ [UInt8.ofNat index])).toList
    block ++ expandBlocks key count (index + 1) block

/-- How many blocks `length` bytes take up. -/
def blockCount (length : Nat) : Nat := (length + 15) / 16

/-- The first `length` bytes of the key stream. Blocks are numbered by one byte from 1 on, so there
    are 255 at most. -/
def expand (key : List UInt8) (length : Nat) : Except Error (List UInt8) :=
  if 255 < blockCount length then
    .error (.crypto (.expansionTooLong length))
  else do
    let cmac ← CmacKey.ofBytes key
    return (expandBlocks cmac (blockCount length) 1 []).take length

/-- The key of the stream: the CMAC under the puzzle value of the secret, the lesser HIT, the
    greater HIT and the label. -/
def extract (secret : List UInt8) (initiator responder : Hit) (challenge : Block) : Block :=
  let (lesser, greater) := Hit.sortPair initiator responder
  (CmacKey.ofBlock challenge).tag (secret ++ lesser.toBytes ++ greater.toBytes ++ extractLabel)

/-- The keys at the front of a stream, and the rest of it. -/
def takeKeys (lengths : KeyLengths) (stream : List UInt8) : HostKeys × List UInt8 :=
  let afterEncryption := stream.drop lengths.encryption
  (⟨stream.take lengths.encryption, afterEncryption.take lengths.integrity⟩,
    afterEncryption.drop lengths.integrity)

/-- The session keys of an association. -/
def derive (secret : List UInt8) (initiator responder : Hit) (challenge : Block)
    (isInitiator : Bool) (lengths : KeyLengths) : Except Error KeySet := do
  let stream ← expand (extract secret initiator responder challenge).toList lengths.total
  let (greater, rest) := takeKeys lengths stream
  let (lesser, _) := takeKeys lengths rest
  return if responder < initiator then ⟨greater, lesser, isInitiator⟩
    else ⟨lesser, greater, isInitiator⟩

theorem blockCount_le_iff {length : Nat} : blockCount length ≤ 255 ↔ length ≤ 4080 := by
  unfold blockCount
  omega

/-- A stream is refused for its length exactly when it takes more blocks than can be numbered. -/
theorem expand_eq_error_iff {key : Block} {length : Nat} :
    expand key.toList length = .error (.crypto (.expansionTooLong length)) ↔ 4080 < length := by
  unfold expand
  rw [CmacKey.ofBytes_toList]
  split
  · rename_i hlong
    simp only [true_iff]
    have := (not_congr (@blockCount_le_iff length)).mp (Nat.not_le.mpr hlong)
    omega
  · rename_i hshort
    have := blockCount_le_iff.mp (Nat.not_lt.mp hshort)
    simp only [bind, Except.bind, pure, Except.pure, reduceCtorEq, false_iff]
    omega

end KeyDerivation

end DietExchange
