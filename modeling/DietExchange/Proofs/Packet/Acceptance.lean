import DietExchange.Proofs.Packet.Stepwise

namespace DietExchange

/-- The reasons for which a byte string is refused as a packet. That a parser's own step found fault
    with it is none of them. -/
inductive Error.IsRefusal : Error → Prop where
  | tooShort : IsRefusal .tooShort
  | badChecksum (computed received : UInt16) : IsRefusal (.badChecksum computed received)
  | unknownPacketType (code : UInt8) : IsRefusal (.unknownPacketType code)
  | unsupportedVersion (version : UInt8) : IsRefusal (.unsupportedVersion version)
  | unknownParameter (code : UInt16) : IsRefusal (.unknownParameter code)
  | invalidParameter (kind : ParameterKind) : IsRefusal (.invalidParameter kind)

namespace Error.IsRefusal

variable {error : Error} (hrefusal : error.IsRefusal)
include hrefusal

theorem ne_parseIncomplete : error ≠ .parseIncomplete := by
  rintro rfl
  cases hrefusal

theorem ne_parseError (fault : LayoutFault) : error ≠ .parseError fault := by
  rintro rfl
  cases hrefusal

end Error.IsRefusal

namespace Parameter

variable {bytes : List UInt8} {error : Error}

theorem isRefusal_of_decode {code : UInt16} {content : List UInt8}
    (hdecode : decode code content = .error error) : error.IsRefusal := by
  unfold decode at hdecode
  split at hdecode
  · obtain rfl := Except.error.inj hdecode
    exact .unknownParameter code
  · rename_i kind _
    unfold ofContent at hdecode
    split at hdecode
    · simp at hdecode
    · obtain rfl := Except.error.inj hdecode
      exact .invalidParameter kind

theorem isRefusal_of_parse (hparse : parse bytes = .error error) : error.IsRefusal := by
  unfold parse at hparse
  split at hparse
  · obtain rfl := Except.error.inj hparse
    exact .tooShort
  · rcases bind_eq_error_iff.mp hparse with hdecode | ⟨parameter, -, hpure⟩
    · exact isRefusal_of_decode hdecode
    · simp [pure, Except.pure] at hpure

theorem isRefusal_of_parseAll (hparse : parseAll bytes = .error error) : error.IsRefusal := by
  fun_induction parseAll bytes with
  | case1 => simp at hparse
  | case2 bytes hne found hfound =>
    obtain rfl := Except.error.inj hparse
    exact isRefusal_of_parse hfound
  | case3 bytes hne parameter rest hfirst ih =>
    cases hrest : parseAll rest with
    | ok others =>
      rw [hrest] at hparse
      simp [Functor.map, Except.map] at hparse
    | error found =>
      rw [hrest] at hparse
      obtain rfl := Except.error.inj hparse
      exact ih hrest

end Parameter

namespace Packet

variable {bytes : List UInt8} {error : Error}

theorem isRefusal_of_ofHeader {header : Header} (hpacket : ofHeader header bytes = .error error) :
    error.IsRefusal := by
  unfold ofHeader at hpacket
  split at hpacket
  · obtain rfl := Except.error.inj hpacket
    exact .unknownPacketType header.kind
  · split at hpacket
    · obtain rfl := Except.error.inj hpacket
      exact .unsupportedVersion (header.version >>> 4)
    · rcases bind_eq_error_iff.mp hpacket with hparameters | ⟨parameters, -, hpure⟩
      · exact Parameter.isRefusal_of_parseAll hparameters
      · simp [pure, Except.pure] at hpure

theorem isRefusal_of_parse (hparse : parse bytes = .error error) : error.IsRefusal := by
  unfold parse at hparse
  split at hparse
  · obtain rfl := Except.error.inj hparse
    exact .tooShort
  · simp only at hparse
    split at hparse
    · obtain rfl := Except.error.inj hparse
      exact .tooShort
    · split at hparse
      · obtain rfl := Except.error.inj hparse
        exact .badChecksum _ _
      · exact isRefusal_of_ofHeader hparse

/-- The size that byte 1 states. -/
def statedLength (bytes : List UInt8) : Nat := 8 + 8 * numberAt bytes 1 1

/-- Whether the bytes are a packet with these records in it. What stands behind the stated size does
    not matter. -/
structure Frames (bytes : List UInt8) (tlvs : List Tlv) : Prop where
  length : 8 ≤ bytes.length
  atLeast : 40 ≤ statedLength bytes
  atMost : statedLength bytes ≤ bytes.length
  checksum : numberAt bytes 4 2 = (packetChecksum (bytes.take (statedLength bytes))).toNat
  /-- The kind is byte 2 without its highest bit. -/
  kind : 1 ≤ numberAt bytes 2 1 % 128 ∧ numberAt bytes 2 1 % 128 ≤ 4
  /-- The version is the high half of byte 3. -/
  version : numberAt bytes 3 1 / 16 = 2
  records : (bytes.take (statedLength bytes)).drop 40 = tlvs.flatMap Tlv.bytes

/-- Whether the packet holds what stands in the bytes, and in these records. -/
structure HoldsFrom (packet : Packet) (bytes : List UInt8) (tlvs : List Tlv) : Prop where
  kind : packet.kind.code.toNat = numberAt bytes 2 1 % 128
  controls : packet.controls.toNat = numberAt bytes 6 2
  sender : packet.sender.toBytes = (bytes.drop 8).take 16
  receiver : packet.receiver.toBytes = (bytes.drop 24).take 16
  parameters : List.Forall₂ Tlv.Holds tlvs packet.parameters

section Header

variable (header : Header) (rest : List UInt8)

theorem statedLength_encode : statedLength (header.encode ++ rest) = header.total := by
  rw [statedLength, Header.numberAt_units, Header.total]

theorem code_and_eq_iff (code : UInt8) (kind : PacketKind) :
    code &&& 0x7f = kind.code ↔ kind.code.toNat = code.toNat % 128 := by
  rw [← UInt8.toNat_inj, UInt8.toNat_and, eq_comm]
  exact Eq.congr_right (Nat.and_two_pow_sub_one_eq_mod code.toNat 7)

theorem shiftRight_eq_protocolVersion_iff (version : UInt8) :
    version >>> 4 = protocolVersion ↔ version.toNat / 16 = 2 := by
  rw [← UInt8.toNat_inj, UInt8.toNat_shiftRight]
  exact Eq.congr_left (Nat.shiftRight_eq_div_pow version.toNat 4)

theorem describes_iff {packet : Packet} : header.Describes packet ↔
    numberAt (header.encode ++ rest) 3 1 / 16 = 2 ∧
    packet.kind.code.toNat = numberAt (header.encode ++ rest) 2 1 % 128 ∧
    packet.controls.toNat = numberAt (header.encode ++ rest) 6 2 ∧
    packet.sender.toBytes = ((header.encode ++ rest).drop 8).take 16 ∧
    packet.receiver.toBytes = ((header.encode ++ rest).drop 24).take 16 := by
  rw [Header.numberAt_version, Header.numberAt_kind, Header.numberAt_controls,
    Header.take_drop_sender, Header.take_drop_receiver, ← shiftRight_eq_protocolVersion_iff,
    ← code_and_eq_iff, UInt16.toNat_inj]
  constructor
  · rintro ⟨hkind, hversion, hcontrols, hsender, hreceiver⟩
    exact ⟨hversion, hkind, hcontrols.symm, by rw [hsender], by rw [hreceiver]⟩
  · rintro ⟨hversion, hkind, hcontrols, hsender, hreceiver⟩
    exact ⟨hkind, hversion, hcontrols.symm, (Hit.eq_of_toBytes_eq hsender).symm,
      (Hit.eq_of_toBytes_eq hreceiver).symm⟩

variable {header rest} {packet : Packet}

/-- Behind a whole header the size, the checksum, the fields and the records decide. -/
theorem parse_encode_append_eq_ok_iff : parse (header.encode ++ rest) = .ok packet ↔
    headerLength ≤ header.total ∧ header.total ≤ (header.encode ++ rest).length ∧
      header.checksum = packetChecksum ((header.encode ++ rest).take header.total) ∧
      header.Describes packet ∧
      Parameter.AreTlvs packet.parameters (rest.take (header.total - headerLength)) := by
  unfold parse
  rw [Header.read_eq_ok_iff.mpr rfl]
  simp only [ite_error_eq_ok_iff, ofHeader_eq_ok_iff, not_or, Nat.not_lt, Decidable.not_not]
  exact ⟨fun ⟨⟨hmost, hleast⟩, hrest⟩ => ⟨hleast, hmost, hrest⟩,
    fun ⟨hleast, hmost, hrest⟩ => ⟨⟨hmost, hleast⟩, hrest⟩⟩

end Header

theorem parse_eq_ok_iff_frames {packet : Packet} :
    parse bytes = .ok packet ↔ ∃ tlvs, Frames bytes tlvs ∧ packet.HoldsFrom bytes tlvs := by
  by_cases hlong : headerLength ≤ bytes.length
  · obtain ⟨header, rest, rfl⟩ := Header.exists_encode_append hlong
    have hbody : ∀ hleast : headerLength ≤ header.total,
        ((header.encode ++ rest).take header.total).drop 40 =
          rest.take (header.total - headerLength) := by
      intro hleast
      rw [Header.take_total header rest hleast]
      exact List.drop_left' header.length_encode
    have hchecksum : header.checksum = packetChecksum ((header.encode ++ rest).take header.total) ↔
        numberAt (header.encode ++ rest) 4 2 =
          (packetChecksum ((header.encode ++ rest).take header.total)).toNat := by
      rw [Header.numberAt_checksum, UInt16.toNat_inj]
    rw [parse_encode_append_eq_ok_iff, describes_iff header rest, Parameter.areTlvs_iff, hchecksum]
    constructor
    · rintro ⟨hleast, hmost, hsum, ⟨hversion, hkind, hcontrols, hsender, hreceiver⟩, tlvs, hrecords,
        hholds⟩
      refine ⟨tlvs, ⟨?_, ?_, ?_, ?_, ?_, hversion, ?_⟩,
        ⟨hkind, hcontrols, hsender, hreceiver, hholds⟩⟩
      · unfold headerLength at hlong
        omega
      · rwa [statedLength_encode]
      · rwa [statedLength_encode]
      · rwa [statedLength_encode]
      · rw [← hkind]
        cases packet.kind <;> decide
      · rw [statedLength_encode, hbody hleast, hrecords]
    · rintro ⟨tlvs, ⟨-, hleast, hmost, hsum, -, hversion, hrecords⟩,
        ⟨hkind, hcontrols, hsender, hreceiver, hholds⟩⟩
      rw [statedLength_encode] at hleast hmost hsum hrecords
      refine ⟨hleast, hmost, hsum, ⟨hversion, hkind, hcontrols, hsender, hreceiver⟩, tlvs,
        ?_, hholds⟩
      rw [← hbody hleast, hrecords]
  · unfold headerLength at hlong
    constructor
    · intro hparse
      obtain ⟨wire, rest, ⟨header, body, -, -, rfl, -⟩, rfl⟩ := parse_eq_ok_iff.mp hparse
      simp only [List.length_append, Header.length_encode, headerLength] at hlong
      omega
    · rintro ⟨tlvs, hframes, -⟩
      exact absurd (Nat.le_trans hframes.atLeast hframes.atMost) hlong

theorem exists_kind_of_code {code : Nat} (hlow : 1 ≤ code) (hhigh : code ≤ 4) :
    ∃ kind : PacketKind, kind.code.toNat = code := by
  obtain rfl | rfl | rfl | rfl : code = 1 ∨ code = 2 ∨ code = 3 ∨ code = 4 := by omega
  · exact ⟨.i1, rfl⟩
  · exact ⟨.r1, rfl⟩
  · exact ⟨.i2, rfl⟩
  · exact ⟨.r2, rfl⟩

/-- Bytes that are framed as a packet with these records hold a packet. -/
theorem exists_holdsFrom {tlvs : List Tlv} (hframes : Frames bytes tlvs) :
    ∃ packet : Packet, packet.HoldsFrom bytes tlvs := by
  have hlong : headerLength ≤ bytes.length := Nat.le_trans hframes.atLeast hframes.atMost
  obtain ⟨header, rest, rfl⟩ := Header.exists_encode_append hlong
  obtain ⟨parameters, hholds⟩ := Tlv.exists_forall₂_holds tlvs
  obtain ⟨hlow, hhigh⟩ := hframes.kind
  obtain ⟨kind, hkind⟩ := exists_kind_of_code hlow hhigh
  exact ⟨⟨kind, header.controls, header.sender, header.receiver, parameters⟩, hkind,
    (header.numberAt_controls rest).symm, (header.take_drop_sender rest).symm,
    (header.take_drop_receiver rest).symm, hholds⟩

theorem exists_parse_iff : (∃ packet, parse bytes = .ok packet) ↔ ∃ tlvs, Frames bytes tlvs := by
  constructor
  · rintro ⟨packet, hparse⟩
    obtain ⟨tlvs, hframes, -⟩ := parse_eq_ok_iff_frames.mp hparse
    exact ⟨tlvs, hframes⟩
  · rintro ⟨tlvs, hframes⟩
    obtain ⟨packet, hholds⟩ := exists_holdsFrom hframes
    exact ⟨packet, parse_eq_ok_iff_frames.mpr ⟨tlvs, hframes, hholds⟩⟩

/-- A byte string is read as a packet exactly if it is framed as one and the packet holds what
    stands in it; so it is read as some packet exactly if it is framed as one. Otherwise it is
    refused for one of six reasons. Read step by step it comes to the same, so that no step ever
    lacks its bytes. -/
theorem parse_spec (bytes : List UInt8) :
    (∀ packet, parse bytes = .ok packet ↔ ∃ tlvs, Frames bytes tlvs ∧ packet.HoldsFrom bytes tlvs) ∧
      ((∃ packet, parse bytes = .ok packet) ↔ ∃ tlvs, Frames bytes tlvs) ∧
      (∀ error, parse bytes = .error error →
        error.IsRefusal ∧ error ≠ .parseIncomplete ∧ ∀ fault, error ≠ .parseError fault) ∧
      parseInSteps bytes = parse bytes := by
  refine ⟨fun packet => parse_eq_ok_iff_frames, exists_parse_iff, ?_, parseInSteps_eq_parse bytes⟩
  intro error hparse
  have hrefusal := isRefusal_of_parse hparse
  exact ⟨hrefusal, hrefusal.ne_parseIncomplete, hrefusal.ne_parseError⟩

end Packet

end DietExchange
