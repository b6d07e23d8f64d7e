import DietExchange.Block
import DietExchange.CipherSuite
import DietExchange.Curve.Basic
import DietExchange.DhGroup
import DietExchange.Parameter.Kind

namespace DietExchange

/-- The lifetime exponent of our puzzles: a puzzle holds for 2 ^ (lifetime - 32) seconds. -/
def defaultLifetime : UInt8 := 64

/-- The challenge of a responder: find a value that makes the puzzle's CMAC start with `k` zero
    bits. -/
structure Puzzle where
  k : UInt8
  lifetime : UInt8
  /-- Comes back unchanged in the solution. -/
  cookie : UInt16
  /-- The value I that the puzzle is about. -/
  challenge : Block
  deriving DecidableEq, Inhabited

/-- The answer of an initiator to a puzzle. -/
structure Solution where
  k : UInt8
  /-- Copied from the puzzle. -/
  cookie : UInt16
  /-- The value I, copied from the puzzle. -/
  challenge : Block
  /-- The value J that solves it. -/
  answer : Block
  deriving DecidableEq, Inhabited

/-- An encrypted byte string with its initialization vector. -/
structure Encrypted where
  iv : Block
  data : List UInt8
  deriving DecidableEq, Inhabited

/-- The algorithm number of host identities on elliptic curves. -/
def ecdhAlgorithm : UInt16 := 11

/-- The longest domain identifier: its length has twelve bits. -/
def maxDomainIdentifierLength : Nat := 0x0fff

/-- The sender's public key and an optional domain identifier. -/
structure HostId where
  curve : Curve
  publicKey : List UInt8
  domainType : UInt8
  domainIdentifier : List UInt8
  deriving DecidableEq, Inhabited

/-- A host identity without a domain identifier. -/
def HostId.ofKey (curve : Curve) (publicKey : List UInt8) : HostId := ⟨curve, publicKey, 0, []⟩

/-- A parameter of a packet. -/
inductive Parameter where
  | r1Counter (counter : UInt64)
  | puzzle (puzzle : Puzzle)
  | solution (solution : Solution)
  | hipCipher (offer : CipherOffer)
  | encrypted (encrypted : Encrypted)
  | encryptedKey (data : List UInt8)
  | hostId (hostId : HostId)
  | hitSuiteList (data : List UInt8)
  | dhGroupList (list : DhGroupList)
  | hipMac3 (tag : List UInt8)
  | echoResponseUnsigned (data : List UInt8)
  | echoRequestUnsigned (data : List UInt8)
  deriving DecidableEq

namespace Parameter

def kind : Parameter → ParameterKind
  | r1Counter _ => .r1Counter
  | puzzle _ => .puzzle
  | solution _ => .solution
  | hipCipher _ => .hipCipher
  | encrypted _ => .encrypted
  | encryptedKey _ => .encryptedKey
  | hostId _ => .hostId
  | hitSuiteList _ => .hitSuiteList
  | dhGroupList _ => .dhGroupList
  | hipMac3 _ => .hipMac3
  | echoResponseUnsigned _ => .echoResponseUnsigned
  | echoRequestUnsigned _ => .echoRequestUnsigned

/-- Whether reading back what is written can give the parameter again: its key has the length of its
    curve, its domain type fits four bits, and no identifier hides behind an unknown code. -/
def IsWellFormed : Parameter → Prop
  | hostId id => id.publicKey.length = id.curve.publicKeyLength ∧ id.domainType < 16
  | hipCipher offer => ∀ suite ∈ offer.suites, suite.IsCanonical
  | dhGroupList list => ∀ group ∈ list.groups, group.IsCanonical
  | _ => True

instance (parameter : Parameter) : Decidable parameter.IsWellFormed := by
  unfold IsWellFormed
  split <;> infer_instance

end Parameter

end DietExchange
