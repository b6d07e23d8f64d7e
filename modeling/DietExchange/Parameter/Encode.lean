import DietExchange.Error
import DietExchange.Parameter.Basic

namespace DietExchange

/-- The size of a parameter whose content has `length` bytes: four more, rounded up to a multiple of
    eight. -/
def paddedLength (length : Nat) : Nat := (4 + length + 7) / 8 * 8

namespace HostId

/-- The domain type in the four high bits and the length of the domain identifier in the others. -/
def domainField (id : HostId) : Nat :=
  id.domainType.toNat % 16 * 4096 + id.domainIdentifier.length

/-- The length of curve and key, the domain field, the algorithm, the curve, the key and the domain
    identifier. -/
def layout (id : HostId) : List UInt8 :=
  bigEndian 2 (2 + id.publicKey.length) ++ bigEndian 2 id.domainField ++ wordBytes ecdhAlgorithm ++
    wordBytes id.curve.code ++ id.publicKey ++ id.domainIdentifier

/-- The content of a host identity. A key or a domain identifier too long for its length field is
    refused. -/
def content (id : HostId) : Except Error (List UInt8) :=
  if 65535 < 2 + id.publicKey.length ∨ maxDomainIdentifierLength < id.domainIdentifier.length then
    .error (.invalidParameter .hostId)
  else
    .ok id.layout

end HostId

namespace Parameter

/-- The content of a parameter, without code, length and padding. -/
def content : Parameter → Except Error (List UInt8)
  | r1Counter counter => .ok (bigEndian 4 0 ++ bigEndian 8 counter.toNat)
  | puzzle p => .ok ([p.k, p.lifetime] ++ wordBytes p.cookie ++ p.challenge.toList)
  | solution s => .ok ([s.k, 0] ++ wordBytes s.cookie ++ s.challenge.toList ++ s.answer.toList)
  | hipCipher offer => .ok offer.encode
  | encrypted e => .ok (bigEndian 4 0 ++ e.iv.toList ++ e.data)
  | hostId id => id.content
  | dhGroupList list => .ok list.encode
  | encryptedKey data | hitSuiteList data | hipMac3 data | echoResponseUnsigned data
  | echoRequestUnsigned data => .ok data

/-- Code, length, content and padding. -/
def encodeTlv (code : UInt16) (content : List UInt8) : List UInt8 :=
  wordBytes code ++ bigEndian 2 content.length ++ content ++
    List.replicate (paddedLength content.length - 4 - content.length) 0

/-- The wire form of a parameter. Content too long for the length field is refused. -/
def encode (parameter : Parameter) : Except Error (List UInt8) := do
  let content ← parameter.content
  if 65535 < content.length then
    .error (.invalidParameter parameter.kind)
  else
    .ok (encodeTlv parameter.kind.code content)

/-- The wire forms of a list of parameters, one after the other. The first that has none decides. -/
def encodeAll : List Parameter → Except Error (List UInt8)
  | [] => .ok []
  | parameter :: rest => do
    let first ← parameter.encode
    let others ← encodeAll rest
    return first ++ others

/-- The wire form put behind what a buffer holds already. A parameter without one leaves the buffer
    as it was. -/
def appendTo (buffer : List UInt8) (parameter : Parameter) : Except Error Unit × List UInt8 :=
  match parameter.encode with
  | .ok bytes => (.ok (), buffer ++ bytes)
  | .error error => (.error error, buffer)

theorem length_encodeTlv (code : UInt16) (content : List UInt8) :
    (encodeTlv code content).length = paddedLength content.length := by
  simp only [encodeTlv, wordBytes, paddedLength, List.length_append, length_bigEndian,
    List.length_replicate]
  omega

end Parameter

end DietExchange
