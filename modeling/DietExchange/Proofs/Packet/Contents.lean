import DietExchange.Parameter.Tlv
import Mathlib.Data.List.Forall2

namespace DietExchange

/-- The big-endian number of `width` bytes that stands `offset` bytes into a byte string. -/
def numberAt (bytes : List UInt8) (offset width : Nat) : Nat :=
  bigEndianValue ((bytes.drop offset).take width)

theorem numberAt_append (front rest : List UInt8) (width value : Nat) :
    numberAt (front ++ (bigEndian width value ++ rest)) front.length width =
      value % Nat.pow 256 width := by
  rw [numberAt, List.drop_left, List.take_left' (length_bigEndian width value),
    bigEndianValue_bigEndian]

theorem numberAt_append_word (front rest : List UInt8) (word : UInt16) :
    numberAt (front ++ (wordBytes word ++ rest)) front.length 2 = word.toNat :=
  (numberAt_append front rest 2 word.toNat).trans (Nat.mod_eq_of_lt word.toNat_lt)

section Splitting

variable (bytes : List UInt8)

theorem exists_eq_append (length : Nat) (hlength : length ≤ bytes.length) :
    ∃ front rest, front.length = length ∧ bytes = front ++ rest :=
  ⟨_, _, List.length_take_of_le hlength, (List.take_append_drop length bytes).symm⟩

theorem exists_wordBytes_append (hlength : 2 ≤ bytes.length) :
    ∃ (word : UInt16) (rest : List UInt8), bytes = wordBytes word ++ rest := by
  obtain ⟨front, rest, hfront, rfl⟩ := exists_eq_append bytes _ hlength
  have hvalue : bigEndianValue front < 65536 := by simpa [hfront] using bigEndianValue_lt front
  refine ⟨UInt16.ofNat (bigEndianValue front), rest, ?_⟩
  rw [wordBytes_ofNat hvalue, ← hfront, bigEndian_bigEndianValue]

theorem exists_block_append (hlength : 16 ≤ bytes.length) :
    ∃ (block : Block) (rest : List UInt8), bytes = block.toList ++ rest := by
  obtain ⟨front, rest, hfront, rfl⟩ := exists_eq_append bytes _ hlength
  exact ⟨Block.ofPadded front, rest, by rw [Block.toList_ofPadded hfront]⟩

/-- An even number of bytes is a number of words. -/
theorem exists_splitWords (heven : 2 ∣ bytes.length) : ∃ words, splitWords bytes = (words, []) := by
  fun_induction splitWords bytes with
  | case1 high low rest found left hsplit ih =>
    obtain ⟨words, hwords⟩ := ih (by simp only [List.length_cons] at heven; omega)
    rw [hsplit] at hwords
    obtain ⟨rfl, rfl⟩ := Prod.mk.inj hwords
    exact ⟨_, rfl⟩
  | case2 left hshort =>
    cases left with
    | nil => exact ⟨[], rfl⟩
    | cons high tail =>
      cases tail with
      | nil => simp at heven
      | cons low rest => exact absurd rfl (hshort high low rest)

end Splitting

/-- Whether the content is laid out as a host identity: the algorithm of elliptic curves, a known
    curve, a key of exactly its length, and as many bytes as the two lengths say. -/
def HostId.IsContent (content : List UInt8) : Prop :=
  8 ≤ content.length ∧ ∃ curve : Curve, numberAt content 4 2 = 11 ∧
    numberAt content 6 2 = curve.code.toNat ∧ numberAt content 0 2 = 2 + curve.publicKeyLength ∧
    content.length = 6 + numberAt content 0 2 + numberAt content 2 2 % 4096

/-- Whether a parameter of this kind may have this content. -/
def ParameterKind.Admits (content : List UInt8) : ParameterKind → Prop
  | r1Counter => content.length = 12
  | puzzle => content.length = 20
  | solution => content.length = 36
  | hipCipher => 2 ∣ content.length ∧ content.length ≤ 16
  | encrypted => 20 ≤ content.length
  | dhGroupList => content.length ≤ 16
  | hostId => HostId.IsContent content
  | encryptedKey | hitSuiteList | hipMac3 | echoResponseUnsigned | echoRequestUnsigned => True

section Fields

open Parameter (Written)

variable {content : List UInt8}

theorem Parameter.exists_written_r1Counter (hlength : content.length = 12) :
    ∃ counter, (r1Counter counter).Written content := by
  obtain ⟨reserved, rest, hreserved, rfl⟩ := exists_eq_append content 4 (by omega)
  rw [List.length_append] at hlength
  have hrest : rest.length = 8 := by omega
  have hvalue : bigEndianValue rest < UInt64.size := by
    simpa [hrest, UInt64.size] using bigEndianValue_lt rest
  refine ⟨UInt64.ofNat (bigEndianValue rest), reserved, hreserved, ?_⟩
  rw [UInt64.toNat_ofNat_of_lt' hvalue, ← hrest, bigEndian_bigEndianValue]

theorem Puzzle.exists_written (hlength : content.length = 20) :
    ∃ puzzle, (Parameter.puzzle puzzle).Written content := by
  obtain ⟨k, rest, rfl⟩ := List.exists_cons_of_length_pos (l := content) (by omega)
  obtain ⟨lifetime, rest, rfl⟩ := List.exists_cons_of_length_pos (l := rest)
    (by simp at hlength; omega)
  obtain ⟨cookie, rest, rfl⟩ := exists_wordBytes_append rest (by simp at hlength; omega)
  obtain ⟨challenge, rest, rfl⟩ := exists_block_append rest (by simp at hlength; omega)
  obtain rfl := List.eq_nil_of_length_eq_zero (l := rest) (by simp at hlength; omega)
  exact ⟨⟨k, lifetime, cookie, challenge⟩, by simp [Written]⟩

theorem Solution.exists_written (hlength : content.length = 36) :
    ∃ solution, (Parameter.solution solution).Written content := by
  obtain ⟨k, rest, rfl⟩ := List.exists_cons_of_length_pos (l := content) (by omega)
  obtain ⟨reserved, rest, rfl⟩ := List.exists_cons_of_length_pos (l := rest)
    (by simp at hlength; omega)
  obtain ⟨cookie, rest, rfl⟩ := exists_wordBytes_append rest (by simp at hlength; omega)
  obtain ⟨challenge, rest, rfl⟩ := exists_block_append rest (by simp at hlength; omega)
  obtain ⟨answer, rest, rfl⟩ := exists_block_append rest (by simp at hlength; omega)
  obtain rfl := List.eq_nil_of_length_eq_zero (l := rest) (by simp at hlength; omega)
  exact ⟨⟨k, cookie, challenge, answer⟩, reserved, by simp⟩

theorem CipherOffer.exists_written (heven : 2 ∣ content.length) (hle : content.length ≤ 16) :
    ∃ offer, (Parameter.hipCipher offer).Written content := by
  obtain ⟨words, hwords⟩ := exists_splitWords _ heven
  have hbytes := splitWords_eq_iff.mp hwords
  have hcount : (words.map CipherSuite.ofCode).length ≤ maxCipherSuites := by
    simp [hbytes, maxCipherSuites] at hle ⊢
    omega
  refine ⟨⟨words.map CipherSuite.ofCode, hcount⟩, read_eq_ok_iff.mp ?_⟩
  simp only [read, hwords]
  exact dif_pos hcount

theorem Encrypted.exists_written (hlength : 20 ≤ content.length) :
    ∃ encrypted, (Parameter.encrypted encrypted).Written content := by
  obtain ⟨reserved, rest, hreserved, rfl⟩ := exists_eq_append content 4 (by omega)
  obtain ⟨iv, data, rfl⟩ := exists_block_append rest (by simp at hlength; omega)
  exact ⟨⟨iv, data⟩, reserved, hreserved, (List.append_assoc _ _ _).symm⟩

theorem DhGroupList.exists_written (hlength : content.length ≤ 16) :
    ∃ list, (Parameter.dhGroupList list).Written content := by
  have hcount : (content.map DhGroup.ofCode).length ≤ maxDhGroups := by
    rw [List.length_map]
    exact hlength
  have hread : read content = .ok (⟨content.map DhGroup.ofCode, hcount⟩, []) := by
    simp only [read]
    exact dif_pos hcount
  exact ⟨_, (read_eq_ok_iff.mp hread).1⟩

end Fields

namespace HostId

variable {content : List UInt8}

theorem isContent_layout {id : HostId} (hkey : id.publicKey.length = id.curve.publicKeyLength)
    (hidentifier : id.domainIdentifier.length ≤ maxDomainIdentifierLength) :
      IsContent id.layout := by
  have hshort := publicKeyLength_lt id.curve
  have hfield := domainField_lt hidentifier
  have hkeyLength : numberAt id.layout 0 2 = 2 + id.publicKey.length := by
    simp only [layout, List.append_assoc]
    exact (numberAt_append [] _ 2 _).trans (Nat.mod_eq_of_lt (by rw [hkey]; exact hshort))
  have hdomain : numberAt id.layout 2 2 = id.domainField := by
    simp only [layout, List.append_assoc]
    exact (numberAt_append (bigEndian 2 _) _ 2 _).trans (Nat.mod_eq_of_lt hfield)
  have halgorithm : numberAt id.layout 4 2 = 11 := by
    have hat :=
      numberAt_append_word (bigEndian 2 (2 + id.publicKey.length) ++ bigEndian 2 id.domainField)
      (wordBytes id.curve.code ++ id.publicKey ++ id.domainIdentifier) ecdhAlgorithm
    simp only [layout, List.append_assoc] at hat ⊢
    exact hat
  have hcurve : numberAt id.layout 6 2 = id.curve.code.toNat := by
    have hat := numberAt_append_word (bigEndian 2 (2 + id.publicKey.length) ++
      bigEndian 2 id.domainField ++ wordBytes ecdhAlgorithm) (id.publicKey ++ id.domainIdentifier)
      id.curve.code
    simp only [layout, List.append_assoc] at hat ⊢
    exact hat
  have hlength : id.layout.length = 8 + id.publicKey.length + id.domainIdentifier.length := by
    simp only [layout, List.length_append, length_bigEndian, length_wordBytes, Nat.reduceAdd]
  refine ⟨by omega, id.curve, halgorithm, hcurve, by rw [hkeyLength, hkey], ?_⟩
  unfold maxDomainIdentifierLength at hidentifier
  unfold domainField at hdomain
  omega

/-- The host identity that is laid out: the fields are cut out at their places. -/
theorem exists_layout (hcontent : IsContent content) :
    ∃ id : HostId, id.publicKey.length = id.curve.publicKeyLength ∧ id.domainType < 16 ∧
      id.domainIdentifier.length ≤ maxDomainIdentifierLength ∧ content = id.layout := by
  obtain ⟨hlong, curve, halgorithm, hcurve, hkeyLength, hlength⟩ := hcontent
  obtain ⟨keyLength, rest, rfl⟩ := exists_wordBytes_append content (by omega)
  simp only [List.length_append, length_wordBytes] at hlong hlength
  obtain ⟨domain, rest, rfl⟩ := exists_wordBytes_append rest (by omega)
  simp only [List.length_append, length_wordBytes] at hlong hlength
  obtain ⟨algorithm, rest, rfl⟩ := exists_wordBytes_append rest (by omega)
  simp only [List.length_append, length_wordBytes] at hlong hlength
  obtain ⟨code, rest, rfl⟩ := exists_wordBytes_append rest (by omega)
  simp only [List.length_append, length_wordBytes] at hlong hlength
  have hkeyLengthAt := numberAt_append_word [] (wordBytes domain ++ (wordBytes algorithm ++
    (wordBytes code ++ rest))) keyLength
  have hdomainAt := numberAt_append_word (wordBytes keyLength) (wordBytes algorithm ++
    (wordBytes code ++ rest)) domain
  have halgorithmAt := numberAt_append_word (wordBytes keyLength ++ wordBytes domain)
    (wordBytes code ++ rest) algorithm
  have hcodeAt :=
    numberAt_append_word (wordBytes keyLength ++ wordBytes domain ++ wordBytes algorithm) rest code
  simp only [List.append_assoc, List.nil_append, List.length_append, length_wordBytes,
    List.length_nil, Nat.reduceAdd] at hkeyLengthAt hdomainAt halgorithmAt hcodeAt
  rw [hkeyLengthAt, hdomainAt] at hlength
  rw [hkeyLengthAt] at hkeyLength
  rw [halgorithmAt] at halgorithm
  rw [hcodeAt] at hcurve
  obtain ⟨key, identifier, hkey, rfl⟩ := exists_eq_append rest curve.publicKeyLength
    (by omega)
  rw [List.length_append] at hlength
  obtain ⟨htype, hidentifier, hfield⟩ :=
    split_domainField curve key domain identifier (by omega)
  refine ⟨⟨curve, key, UInt8.ofNat (domain.toNat / 4096), identifier⟩, hkey, htype, hidentifier, ?_⟩
  have hkeyBytes : 2 + key.length = keyLength.toNat := by omega
  obtain rfl : algorithm = ecdhAlgorithm := UInt16.toNat_inj.mp halgorithm
  obtain rfl : code = curve.code := UInt16.toNat_inj.mp hcurve
  simp only [layout, hfield, hkeyBytes, wordBytes, List.append_assoc]

end HostId

namespace ParameterKind

open Parameter (Written)

variable {content : List UInt8}

theorem admits_of_written {parameter : Parameter} (hwritten : parameter.Written content) :
    parameter.kind.Admits content := by
  cases parameter with
  | r1Counter counter =>
    obtain ⟨reserved, hreserved, rfl⟩ := hwritten
    simp [Parameter.kind, Admits, hreserved]
  | puzzle p =>
    obtain rfl := hwritten
    simp [Parameter.kind, Admits]
  | solution s =>
    obtain ⟨reserved, rfl⟩ := hwritten
    simp [Parameter.kind, Admits]
  | hipCipher offer =>
    obtain ⟨-, rfl⟩ := hwritten
    have hlength : offer.encode.length = 2 * offer.suites.length := by
      simp [CipherOffer.encode, Nat.mul_comm]
    have hle : offer.suites.length ≤ 8 := offer.length_le
    exact ⟨⟨_, hlength⟩, by omega⟩
  | encrypted e =>
    obtain ⟨reserved, hreserved, rfl⟩ := hwritten
    simp only [Parameter.kind, Admits, List.length_append, Block.length_toList]
    omega
  | hostId id => exact hwritten.2.2.2 ▸ HostId.isContent_layout hwritten.1 hwritten.2.2.1
  | dhGroupList list =>
    obtain ⟨-, rfl⟩ := hwritten
    have hle : list.groups.length ≤ 16 := list.length_le
    simpa [Parameter.kind, Admits, DhGroupList.encode] using hle
  | _ => trivial

/-- Content of the right size holds the fields of a parameter, one after the other. -/
theorem exists_written {kind : ParameterKind} (hadmits : kind.Admits content) :
    ∃ parameter : Parameter, parameter.kind = kind ∧ parameter.Written content := by
  cases kind with
  | r1Counter =>
    obtain ⟨counter, hwritten⟩ := Parameter.exists_written_r1Counter hadmits
    exact ⟨.r1Counter counter, rfl, hwritten⟩
  | puzzle =>
    obtain ⟨puzzle, hwritten⟩ := Puzzle.exists_written hadmits
    exact ⟨.puzzle puzzle, rfl, hwritten⟩
  | solution =>
    obtain ⟨solution, hwritten⟩ := Solution.exists_written hadmits
    exact ⟨.solution solution, rfl, hwritten⟩
  | hipCipher =>
    obtain ⟨offer, hwritten⟩ := CipherOffer.exists_written hadmits.1 hadmits.2
    exact ⟨.hipCipher offer, rfl, hwritten⟩
  | encrypted =>
    obtain ⟨encrypted, hwritten⟩ := Encrypted.exists_written hadmits
    exact ⟨.encrypted encrypted, rfl, hwritten⟩
  | hostId =>
    obtain ⟨id, hid⟩ := HostId.exists_layout hadmits
    exact ⟨.hostId id, rfl, hid⟩
  | dhGroupList =>
    obtain ⟨list, hwritten⟩ := DhGroupList.exists_written hadmits
    exact ⟨.dhGroupList list, rfl, hwritten⟩
  | encryptedKey => exact ⟨.encryptedKey content, rfl, rfl⟩
  | hitSuiteList => exact ⟨.hitSuiteList content, rfl, rfl⟩
  | hipMac3 => exact ⟨.hipMac3 content, rfl, rfl⟩
  | echoResponseUnsigned => exact ⟨.echoResponseUnsigned content, rfl, rfl⟩
  | echoRequestUnsigned => exact ⟨.echoRequestUnsigned content, rfl, rfl⟩

/-- The contents of a kind, told by their sizes, are those that stand for a parameter of that
    kind. -/
theorem admits_iff {kind : ParameterKind} :
    kind.Admits content ↔ ∃ parameter : Parameter, parameter.kind = kind ∧
    parameter.Written content := by
  refine ⟨exists_written, ?_⟩
  rintro ⟨parameter, rfl, hwritten⟩
  exact admits_of_written hwritten

end ParameterKind

/-- A parameter as it stands on the wire: a known kind, content that matches its layout, and padding
    of any value up to a multiple of eight bytes. -/
structure Tlv where
  kind : ParameterKind
  content : List UInt8
  padding : List UInt8
  admits : kind.Admits content
  length_content : content.length < 65536
  length_padding : padding.length = paddedLength content.length - 4 - content.length

namespace Tlv

def bytes (tlv : Tlv) : List UInt8 :=
  wordBytes tlv.kind.code ++ bigEndian 2 tlv.content.length ++ tlv.content ++ tlv.padding

/-- Whether the record holds this parameter. -/
def Holds (tlv : Tlv) (parameter : Parameter) : Prop :=
  parameter.kind = tlv.kind ∧ parameter.Written tlv.content

theorem exists_holds (tlv : Tlv) : ∃ parameter, tlv.Holds parameter :=
  ParameterKind.exists_written tlv.admits

theorem exists_forall₂_holds (tlvs : List Tlv) : ∃ parameters,
    List.Forall₂ Holds tlvs parameters := by
  induction tlvs with
  | nil => exact ⟨[], .nil⟩
  | cons tlv tlvs ih =>
    obtain ⟨parameter, hparameter⟩ := tlv.exists_holds
    obtain ⟨parameters, hparameters⟩ := ih
    exact ⟨parameter :: parameters, .cons hparameter hparameters⟩

end Tlv

namespace Parameter

theorem isTlv_iff {parameter : Parameter} {bytes : List UInt8} :
    parameter.IsTlv bytes ↔ ∃ tlv : Tlv, tlv.Holds parameter ∧ bytes = tlv.bytes := by
  constructor
  · rintro ⟨content, padding, hwritten, hlength, hpadding, rfl⟩
    exact ⟨⟨parameter.kind, content, padding, ParameterKind.admits_of_written hwritten, hlength,
      hpadding⟩, ⟨rfl, hwritten⟩, rfl⟩
  · rintro ⟨tlv, ⟨hkind, hwritten⟩, rfl⟩
    exact ⟨tlv.content, tlv.padding, hwritten, tlv.length_content, tlv.length_padding,
      by rw [Tlv.bytes, hkind]⟩

/-- Parameters stand one after the other exactly as records that hold them. -/
theorem areTlvs_iff {parameters : List Parameter} {bytes : List UInt8} :
    AreTlvs parameters bytes ↔
      ∃ tlvs, bytes = tlvs.flatMap Tlv.bytes ∧ List.Forall₂ Tlv.Holds tlvs parameters := by
  constructor
  · intro htlvs
    induction htlvs with
    | nil => exact ⟨[], rfl, .nil⟩
    | cons htlv hrest ih =>
      obtain ⟨tlv, hholds, rfl⟩ := isTlv_iff.mp htlv
      obtain ⟨tlvs, rfl, hall⟩ := ih
      exact ⟨tlv :: tlvs, rfl, .cons hholds hall⟩
  · rintro ⟨tlvs, rfl, hall⟩
    induction hall with
    | nil => exact .nil
    | cons hholds hall ih => exact .cons (isTlv_iff.mpr ⟨_, hholds, rfl⟩) ih

end Parameter

end DietExchange
