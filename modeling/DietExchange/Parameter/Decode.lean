import DietExchange.Outcome
import DietExchange.Parameter.Basic
import DietExchange.Parameter.Encode
import DietExchange.Parameter.Reader

namespace DietExchange

/-- The 16-bit words at the front of a byte string, and the odd byte that may be left. -/
def splitWords : List UInt8 → List UInt16 × List UInt8
  | high :: low :: rest =>
    let (words, left) := splitWords rest
    (UInt16.ofNat (bigEndianValue [high, low]) :: words, left)
  | left => ([], left)

namespace CipherOffer

/-- As many suites as there are pairs of bytes, which must not be more than an offer keeps. -/
def read : Reader CipherOffer := fun bytes =>
  let (codes, left) := splitWords bytes
  let suites := codes.map CipherSuite.ofCode
  if h : suites.length ≤ maxCipherSuites then .ok (⟨suites, h⟩, left) else .error .tooManyEntries

end CipherOffer

namespace DhGroupList

/-- As many groups as there are bytes, which must not be more than a list keeps. -/
def read : Reader DhGroupList := fun bytes =>
  let groups := bytes.map DhGroup.ofCode
  if h : groups.length ≤ maxDhGroups then .ok (⟨groups, h⟩, []) else .error .tooManyEntries

end DhGroupList

namespace Puzzle

def read : Reader Puzzle := do
  let k ← Reader.byte
  let lifetime ← Reader.byte
  let cookie ← Reader.word
  let challenge ← Reader.block
  return ⟨k, lifetime, cookie, challenge⟩

end Puzzle

namespace Solution

/-- The byte after `k` is reserved and its value does not matter. -/
def read : Reader Solution := do
  let k ← Reader.byte
  let _ ← Reader.byte
  let cookie ← Reader.word
  let challenge ← Reader.block
  let answer ← Reader.block
  return ⟨k, cookie, challenge, answer⟩

end Solution

namespace Encrypted

/-- The first four bytes are reserved and their value does not matter. -/
def read : Reader Encrypted := do
  let _ ← Reader.take 4
  let iv ← Reader.block
  let data ← Reader.rest
  return ⟨iv, data⟩

end Encrypted

namespace HostId

/-- The public key part of a host identity: the curve and a key of exactly its length. -/
def readKey (part : List UInt8) : Except LayoutFault (Curve × List UInt8) := do
  let (code, publicKey) ← Reader.word part
  let some curve := Curve.ofCode? code | throw .noAlternative
  if publicKey.length = curve.publicKeyLength then
    return (curve, publicKey)
  else
    throw .lengthMismatch

/-- A host identity. That the algorithm is the one of elliptic curves is checked before the parts
    are taken, and the curve only after them. -/
def read : Reader HostId := do
  let keyLength ← Reader.word
  let domain ← Reader.word
  let algorithm ← Reader.word
  if algorithm ≠ ecdhAlgorithm then
    Reader.fail .fixedField
  else
    let keyPart ← Reader.take keyLength.toNat
    let domainIdentifier ← Reader.take (domain.toNat % 4096)
    let (curve, publicKey) ← StateT.lift (readKey keyPart)
    return ⟨curve, publicKey, UInt8.ofNat (domain.toNat / 4096), domainIdentifier⟩

end HostId

namespace Parameter

/-- The reader of the content of a kind. -/
def reader : ParameterKind → Reader Parameter
  | .r1Counter => do
    let _ ← Reader.take 4
    let counter ← Reader.number 8
    return r1Counter (UInt64.ofNat counter)
  | .puzzle => puzzle <$> Puzzle.read
  | .solution => solution <$> Solution.read
  | .hipCipher => hipCipher <$> CipherOffer.read
  | .encrypted => encrypted <$> Encrypted.read
  | .hostId => hostId <$> HostId.read
  | .dhGroupList => dhGroupList <$> DhGroupList.read
  | .encryptedKey => encryptedKey <$> Reader.rest
  | .hitSuiteList => hitSuiteList <$> Reader.rest
  | .hipMac3 => hipMac3 <$> Reader.rest
  | .echoResponseUnsigned => echoResponseUnsigned <$> Reader.rest
  | .echoRequestUnsigned => echoRequestUnsigned <$> Reader.rest

/-- The parameter with this content, all of which must be used. -/
def ofContent (kind : ParameterKind) (content : List UInt8) : Except Error Parameter :=
  match reader kind content with
  | .ok (parameter, []) => .ok parameter
  | _ => .error (.invalidParameter kind)

/-- The parameter with this code and content. -/
def decode (code : UInt16) (content : List UInt8) : Except Error Parameter :=
  match ParameterKind.ofCode? code with
  | none => .error (.unknownParameter code)
  | some kind => ofContent kind content

/-- The code and the content of the parameter in front, with its padding left out. -/
def readTlv : Reader (UInt16 × List UInt8) := do
  let code ← Reader.word
  let length ← Reader.number 2
  let content ← Reader.take length
  let _ ← Reader.take (paddedLength length - 4 - length)
  return (code, content)

/-- One parameter off the front of a byte string, padding included, and the bytes behind it. -/
def parse (bytes : List UInt8) : Except Error (Parameter × List UInt8) :=
  match readTlv bytes with
  | .error _ => .error .tooShort
  | .ok ((code, content), rest) => do
    let parameter ← decode code content
    return (parameter, rest)

theorem readTlv_eq_ok_iff {bytes content rest : List UInt8} {code : UInt16} :
    readTlv bytes = .ok ((code, content), rest) ↔ content.length < 65536 ∧ ∃ padding,
      padding.length = paddedLength content.length - 4 - content.length ∧
      bytes = wordBytes code ++ bigEndian 2 content.length ++ content ++ padding ++ rest := by
  unfold readTlv
  simp only [Reader.bind_eq_ok_iff, Reader.word_eq_ok_iff, Reader.number_eq_ok_iff,
    Reader.take_eq_ok_iff, Reader.pure_eq_ok_iff, Prod.mk.injEq]
  constructor
  · rintro ⟨_, _, rfl, length, _, ⟨hlength, rfl⟩, _, _, ⟨rfl, rfl⟩, padding, _, ⟨hpadding, rfl⟩,
      ⟨rfl, rfl⟩, rfl⟩
    exact ⟨hlength, padding, hpadding, by simp only [List.append_assoc]⟩
  · rintro ⟨hlength, padding, hpadding, rfl⟩
    exact ⟨code, _, by simp only [List.append_assoc], content.length, _, ⟨hlength, rfl⟩, content, _,
      ⟨rfl, rfl⟩, padding, rest, ⟨hpadding, rfl⟩, ⟨rfl, rfl⟩, rfl⟩

theorem length_lt_of_parse {bytes rest : List UInt8} {parameter : Parameter}
    (hparse : parse bytes = .ok (parameter, rest)) : rest.length < bytes.length := by
  unfold parse at hparse
  split at hparse
  · simp at hparse
  · rename_i code content left htlv
    obtain ⟨found, -, hpure⟩ := bind_eq_ok_iff.mp hparse
    obtain ⟨-, rfl⟩ := Prod.mk.inj (pure_eq_ok_iff.mp hpure)
    obtain ⟨-, padding, -, rfl⟩ := readTlv_eq_ok_iff.mp htlv
    simp only [List.length_append, length_wordBytes]
    omega

/-- The parameters that make up a byte string, in order. -/
def parseAll (bytes : List UInt8) : Except Error (List Parameter) :=
  if bytes = [] then .ok []
  else
    match _hparse : parse bytes with
    | .error error => .error error
    | .ok (parameter, rest) => (parameter :: ·) <$> parseAll rest
termination_by bytes.length
decreasing_by exact length_lt_of_parse _hparse

end Parameter

end DietExchange
