import DietExchange.Packet.Codec
import DietExchange.Parameter.Tlv

namespace DietExchange

/-- Whether a header is one of this packet, whatever its size and its checksum. -/
structure Header.Describes (header : Header) (packet : Packet) : Prop where
  kind : header.kind &&& 0x7f = packet.kind.code
  version : header.version >>> 4 = protocolVersion
  controls : header.controls = packet.controls
  sender : header.sender = packet.sender
  receiver : header.receiver = packet.receiver

namespace Packet

/-- Whether these bytes are a wire form of the packet: a header that tells their number and their
    checksum, and wire forms of the parameters. -/
def IsWireForm (packet : Packet) (wire : List UInt8) : Prop :=
  ∃ (header : Header) (body : List UInt8), header.Describes packet ∧
    Parameter.AreTlvs packet.parameters body ∧ wire = header.encode ++ body ∧
    wire.length = header.total ∧ header.checksum = packetChecksum wire

theorem ofHeader_eq_ok_iff {header : Header} {body : List UInt8} {packet : Packet} :
    ofHeader header body = .ok packet ↔
      header.Describes packet ∧ Parameter.AreTlvs packet.parameters body := by
  unfold ofHeader
  constructor
  · intro hpacket
    split at hpacket
    · simp at hpacket
    · rename_i kind hkind
      obtain ⟨hversion, hrest⟩ := ite_error_eq_ok_iff.mp hpacket
      obtain ⟨parameters, hparameters, hpure⟩ := bind_eq_ok_iff.mp hrest
      obtain rfl := pure_eq_ok_iff.mp hpure
      exact ⟨⟨(PacketKind.ofCode?_eq_some_iff.mp hkind).symm,
        Decidable.not_not.mp hversion, rfl, rfl, rfl⟩, Parameter.parseAll_eq_ok_iff.mp hparameters⟩
  · rintro ⟨hheader, hparameters⟩
    rw [hheader.kind, PacketKind.ofCode?_code]
    refine ite_error_eq_ok_iff.mpr ⟨not_not_intro hheader.version, ?_⟩
    refine bind_eq_ok_iff.mpr ⟨_, Parameter.parseAll_eq_ok_iff.mpr hparameters, ?_⟩
    rw [hheader.controls, hheader.sender, hheader.receiver]
    rfl

/-- A byte string is read as a packet exactly if it starts with one of the packet's wire forms. -/
theorem parse_eq_ok_iff {bytes : List UInt8} {packet : Packet} :
    parse bytes = .ok packet ↔ ∃ wire rest, packet.IsWireForm wire ∧ bytes = wire ++ rest := by
  unfold parse
  constructor
  · intro hparse
    split at hparse
    · simp at hparse
    · rename_i header rest hheader
      obtain rfl := Header.read_eq_ok_iff.mp hheader
      obtain ⟨hsize, hdata⟩ := ite_error_eq_ok_iff.mp hparse
      obtain ⟨hchecksum, hpacket⟩ := ite_error_eq_ok_iff.mp hdata
      obtain ⟨hdescribes, hparameters⟩ := ofHeader_eq_ok_iff.mp hpacket
      have hlength := Header.length_encode header
      simp only [List.length_append, not_or, Nat.not_lt] at hsize
      have htake : (header.encode ++ rest).take header.total =
          header.encode ++ rest.take (header.total - headerLength) := by
        rw [List.take_append, List.take_of_length_le (by omega), hlength]
      refine ⟨header.encode ++ rest.take (header.total - headerLength),
        rest.drop (header.total - headerLength),
        ⟨header, _, hdescribes, hparameters, rfl, ?_, ?_⟩, ?_⟩
      · rw [List.length_append, List.length_take]
        omega
      · rw [← htake]
        exact Decidable.not_not.mp hchecksum
      · rw [List.append_assoc, List.take_append_drop]
  · rintro ⟨_, rest, ⟨header, body, hdescribes, hparameters, rfl, htotal, hchecksum⟩, rfl⟩
    have hlength := Header.length_encode header
    rw [Header.read_eq_ok_iff.mpr (List.append_assoc _ _ _)]
    have htake : (header.encode ++ body ++ rest).take header.total = header.encode ++ body := by
      rw [← htotal, List.take_left']
      rfl
    have hbody : (body ++ rest).take (header.total - headerLength) = body := by
      rw [List.length_append] at htotal
      exact List.take_left' (by omega)
    simp only [htake, hbody]
    refine ite_error_eq_ok_iff.mpr ⟨?_, ite_error_eq_ok_iff.mpr ⟨not_not_intro hchecksum, ?_⟩⟩
    · rw [List.length_append] at htotal
      simp only [List.length_append]
      omega
    · exact ofHeader_eq_ok_iff.mpr ⟨hdescribes, hparameters⟩

/-- The checksum of a packet does not depend on its checksum field. -/
theorem packetChecksum_encode (header : Header) (checksum : UInt16) (body : List UInt8) :
    packetChecksum ({ header with checksum := checksum }.encode ++ body) =
      packetChecksum (header.encode ++ body) := by
  have htake : ∀ checksum, ({ header with checksum := checksum }.encode ++ body).take 4 =
      [header.nextHeader, header.units, header.kind, header.version] := fun _ => rfl
  have hdrop : ∀ checksum, ({ header with checksum := checksum }.encode ++ body).drop 6 =
      wordBytes header.controls ++ header.sender.toBytes ++ header.receiver.toBytes ++ body :=
    fun _ => rfl
  have hlong : ∀ checksum, ¬({ header with checksum := checksum }.encode ++ body).length < 6 := by
    intro checksum
    rw [List.length_append, Header.length_encode, headerLength]
    omega
  unfold packetChecksum
  rw [if_neg (hlong checksum), htake, hdrop]
  rw [if_neg (hlong header.checksum), htake header.checksum, hdrop header.checksum]

/-- The header that is written for a packet is one of it. -/
theorem describes_header (packet : Packet) (total : Nat) (checksum : UInt16) :
    Header.Describes { packet.header total with checksum := checksum } packet := by
  have hversion : (protocolVersion * 16 + 1) >>> 4 = protocolVersion := by decide
  exact ⟨packet.kind.code_and, hversion, rfl, rfl, rfl⟩

/-- What is written for a packet is a header that tells its number of bytes and their checksum, and
    what is written for its parameters. -/
theorem exists_header_of_encode {packet : Packet} {bytes : List UInt8}
    (hencode : packet.encode = .ok bytes) :
    ∃ (header : Header) (body : List UInt8), header.Describes packet ∧
      Parameter.encodeAll packet.parameters = .ok body ∧ bytes = header.encode ++ body ∧
      bytes.length = header.total ∧ header.checksum = packetChecksum bytes := by
  obtain ⟨body, hbody, hfits⟩ := bind_eq_ok_iff.mp hencode
  obtain ⟨hsize, hbytes⟩ := ite_error_eq_ok_iff.mp hfits
  obtain rfl := Except.ok.inj hbytes
  obtain ⟨units, hunits⟩ := Parameter.length_of_encodeAll hbody
  refine ⟨_, body, describes_header packet _ _, hbody, rfl, ?_, ?_⟩
  · rw [Header.encodeWith, List.length_append, Header.length_encode]
    unfold maxPacketLength headerLength at hsize
    simp only [Header.total, header, headerLength, hunits]
    rw [UInt8.toNat_ofNat_of_lt' (by simp only [UInt8.size]; omega)]
    omega
  · exact (packetChecksum_encode _ _ body).symm

/-- What is written for a packet that can be read back is one of its wire forms. -/
theorem isWireForm_of_encode {packet : Packet} {bytes : List UInt8}
    (hencode : packet.encode = .ok bytes) (hwellFormed : packet.IsWellFormed) :
    packet.IsWireForm bytes := by
  obtain ⟨header, body, hdescribes, hbody, hbytes, htotal, hchecksum⟩ :=
    exists_header_of_encode hencode
  exact ⟨header, body, hdescribes, Parameter.areTlvs_of_encodeAll hbody hwellFormed, hbytes, htotal,
    hchecksum⟩

/-- What is written for a packet that can be read back is read as that packet, whatever follows. -/
theorem parse_append_of_encode {packet : Packet} {bytes : List UInt8} (rest : List UInt8)
    (hencode : packet.encode = .ok bytes) (hwellFormed : packet.IsWellFormed) :
    parse (bytes ++ rest) = .ok packet :=
  parse_eq_ok_iff.mpr ⟨bytes, rest, isWireForm_of_encode hencode hwellFormed, rfl⟩

end Packet

end DietExchange
