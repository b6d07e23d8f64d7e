import DietExchange.Hit
import DietExchange.Parameter.Kind

namespace DietExchange

/-- How parameter content fails to match the layout of its kind. -/
inductive LayoutFault where
  /-- The content ends too early. -/
  | endOfInput
  /-- A fixed field has another value than it must have. -/
  | fixedField
  /-- An identifier selects no known alternative. -/
  | noAlternative
  /-- A length does not fit what it measures. -/
  | lengthMismatch
  /-- A list holds more entries than are kept. -/
  | tooManyEntries
  deriving DecidableEq, Repr

/-- Every fault. -/
def LayoutFault.all : List LayoutFault :=
  [endOfInput, fixedField, noAlternative, lengthMismatch, tooManyEntries]

def LayoutFault.name : LayoutFault → String
  | endOfInput => "Eof"
  | fixedField => "Verify"
  | noAlternative => "Alt"
  | lengthMismatch => "LengthValue"
  | tooManyEntries => "TooLarge"

/-- Why a handshake is refused, apart from tag, puzzle solution and group. -/
inductive SecurityFault where
  | complexityAbove (k limit : UInt8)
  | unsolvable (k : UInt8)
  | hostIdMismatch (peer : Hit)
  | noCommonCipher
  | keysMissing
  /-- A refusal in the words of whoever refuses. -/
  | stated (text : String)
  deriving DecidableEq

def SecurityFault.message : SecurityFault → String
  | complexityAbove k limit => s!"Puzzle complexity {k} above our max {limit}"
  | unsolvable k => s!"Puzzle complexity {k} can never be solved"
  | hostIdMismatch peer => s!"HOST_ID does not match HIT {peer}"
  | noCommonCipher => "No common HIP cipher"
  | keysMissing => "R2 before keys"
  | stated text => text

/-- Why a call is not allowed at the moment. -/
inductive UsageFault where
  | closed
  | ownHit
  | tableFull
  /-- The connection with `peer` has left the state that `connect` starts from; `state` is the name
      of the state it is in. -/
  | alreadyConnecting (peer : Hit) (state : String)
  | noSecret
  | stated (text : String)
  deriving DecidableEq

def UsageFault.message : UsageFault → String
  | closed => "Engine is closed"
  | ownHit => "Cannot connect to ourselves"
  | tableFull => "Connection table full"
  | alreadyConnecting peer state => s!"Cannot connect to {peer} in state {state}"
  | noSecret => "No puzzle secret"
  | stated text => text

/-- Why the cryptographic helpers could not do their job. -/
inductive CryptoFault where
  | cmacKeyLength (length : Nat)
  | cmacOutputLength (length : Nat)
  | expansionTooLong (length : Nat)
  | notUncompressed
  | entropyFailed (reason : String)
  /-- The key agreement's own words. -/
  | stated (text : String)
  deriving DecidableEq

def CryptoFault.message : CryptoFault → String
  | cmacKeyLength length => s!"Invalid CMAC key length {length}"
  | cmacOutputLength length => s!"CMAC output length {length} exceeds {blockLength}"
  | expansionTooLong length => s!"CKDF cannot expand to {length} bytes"
  | notUncompressed => "Public key is not an uncompressed point"
  | entropyFailed reason => s!"Secure random failed: {reason}"
  | stated text => text

/-- Which of the two session key lengths is meant. -/
inductive KeyLengthName where
  | encryption
  | integrity
  deriving DecidableEq

def KeyLengthName.option : KeyLengthName → String
  | encryption => "encryption_key_len"
  | integrity => "integrity_key_len"

/-- The largest complexity that a puzzle can have: the number of bits of a CMAC. -/
def maxComplexity : UInt8 := 128

/-- What is wrong with a configuration. -/
inductive ConfigFault where
  | limitAboveMaximum (limit : UInt8)
  | complexityAboveLimit (k limit : UInt8)
  | complexityAboveMaximum (k : UInt8)
  | keyLength (which : KeyLengthName) (length : Nat)
  | emptyBatch
  | noCurves
  | entropyUnavailable (reason : String)
  | stated (text : String)
  deriving DecidableEq

def ConfigFault.message : ConfigFault → String
  | limitAboveMaximum limit => s!"max_puzzle_complexity {limit} exceeds {maxComplexity}"
  | complexityAboveLimit k limit =>
    s!"puzzle_complexity {k} exceeds max_puzzle_complexity {limit}"
  | complexityAboveMaximum k => s!"Puzzle complexity {k} exceeds {maxComplexity}"
  | keyLength which length => s!"{which.option} must be 16, 24 or 32, not {length}"
  | emptyBatch => "solve_batch must be > 0"
  | noCurves => "Crypto provider supports no curves"
  | entropyUnavailable reason => s!"Secure random unavailable: {reason}"
  | stated text => text

/-- Everything that a codec, the cryptography or the handshake can refuse. -/
inductive Error where
  /-- Input ended before the structure was complete. -/
  | parseIncomplete
  /-- Content does not match its layout, and nothing says which parameter it was. -/
  | parseError (fault : LayoutFault)
  /-- Fewer bytes than a fixed part needs, or a length that points past the end. -/
  | tooShort
  | badChecksum (computed received : UInt16)
  | unknownPacketType (code : UInt8)
  | unsupportedVersion (version : UInt8)
  | unknownParameter (code : UInt16)
  /-- Parameter content does not match the layout of its kind. -/
  | invalidParameter (kind : ParameterKind)
  /-- A parameter that a packet of this kind must carry is absent. -/
  | missingParameter (packet : PacketKind) (kind : ParameterKind)
  | unknownCurve (code : UInt16)
  /-- An encoded packet would not fit the length byte. -/
  | packetTooLarge (length : Nat)
  /-- A packet is addressed to another host. -/
  | receiverMismatch
  /-- A tag does not verify. -/
  | badMac
  /-- A puzzle solution does not verify under any retained secret. -/
  | badSolution
  /-- The peer's groups do not include ours. -/
  | dhGroupMismatch
  | security (fault : SecurityFault)
  | usage (fault : UsageFault)
  | crypto (fault : CryptoFault)
  | config (fault : ConfigFault)
  deriving DecidableEq

/-- The coarse classes of error, by what the receiver of one does about it. -/
inductive ErrorCategory where
  /-- Drop silently: no reply, no change of state. -/
  | malformed
  /-- Drop, and stay where the handshake is. -/
  | authentication
  /-- Report to the caller at once. -/
  | usage
  /-- Give up the current step, and stay where the handshake is. -/
  | cryptoUnavailable
  /-- The configuration has to change. -/
  | config
  deriving DecidableEq, Repr

def ErrorCategory.name : ErrorCategory → String
  | malformed => "Malformed"
  | authentication => "Authentication"
  | usage => "Usage"
  | cryptoUnavailable => "CryptoUnavailable"
  | config => "Config"

namespace Error

/-- The name of the kind of error. -/
def name : Error → String
  | parseIncomplete => "ParseIncomplete"
  | parseError _ => "ParseError"
  | tooShort => "TooShort"
  | badChecksum _ _ => "BadChecksum"
  | unknownPacketType _ => "UnknownPacketType"
  | unsupportedVersion _ => "UnsupportedVersion"
  | unknownParameter _ => "UnknownParameter"
  | invalidParameter _ => "InvalidParameter"
  | missingParameter _ _ => "MissingParameter"
  | unknownCurve _ => "UnknownCurve"
  | packetTooLarge _ => "PacketTooLarge"
  | receiverMismatch => "ReceiverMismatch"
  | badMac => "BadMac"
  | badSolution => "BadSolution"
  | dhGroupMismatch => "DhGroupMismatch"
  | security _ => "SecurityError"
  | usage _ => "UsageError"
  | crypto _ => "CryptoError"
  | config _ => "ConfigError"

/-- A 16-bit word as four hexadecimal digits after 0x. -/
def hexWord (word : UInt16) : String := "0x" ++ hexString (wordBytes word)

def message : Error → String
  | parseIncomplete => "Parse incomplete"
  | parseError fault => s!"Parse error: {fault.name}"
  | tooShort => "Too short"
  | badChecksum computed received =>
    s!"Bad checksum: computed {hexWord computed}, packet has {hexWord received}"
  | unknownPacketType code => s!"Unknown packet type {code}"
  | unsupportedVersion version => s!"Unsupported HIP version {version}"
  | unknownParameter code => s!"Unknown parameter type {code}"
  | invalidParameter kind => s!"Invalid {kind.name} parameter"
  | missingParameter packet kind => s!"{packet.name} is missing mandatory {kind.name}"
  | unknownCurve code => s!"Unknown curve identifier {code}"
  | packetTooLarge length => s!"Packet too large: {length} bytes"
  | receiverMismatch => "Receiver HIT is not ours"
  | badMac => "HIP_MAC_3 mismatch"
  | badSolution => "Puzzle solution rejected"
  | dhGroupMismatch => "DH group mismatch"
  | security fault => s!"Security error: {fault.message}"
  | usage fault => s!"Usage error: {fault.message}"
  | crypto fault => s!"Crypto error: {fault.message}"
  | config fault => s!"Config error: {fault.message}"

def category : Error → ErrorCategory
  | parseIncomplete | parseError _ | tooShort | badChecksum _ _ | unknownPacketType _
  | unsupportedVersion _ | unknownParameter _ | invalidParameter _ | missingParameter _ _
  | packetTooLarge _ | receiverMismatch => .malformed
  | badMac | badSolution | dhGroupMismatch | security _ => .authentication
  | usage _ | unknownCurve _ => .usage
  | crypto _ => .cryptoUnavailable
  | config _ => .config

instance : ToString Error := ⟨message⟩

end Error

end DietExchange
