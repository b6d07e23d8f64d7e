import DietExchange.Checksum
import DietExchange.Outcome
import DietExchange.Packet.Basic
import DietExchange.Parameter.Decode

/-!
The wire form of a packet: a header of 40 bytes and the parameters. The header holds the length in
units of eight bytes beyond the first eight, so that no packet exceeds 2048 bytes, and a checksum
over the whole packet.
-/

namespace DietExchange

/-- Size of the fixed header. -/
def headerLength : Nat := 40

/-- The most bytes that the length byte can tell. -/
def maxPacketLength : Nat := 8 + 255 * 8

/-- The next-header value that says that nothing follows. -/
def nextHeaderNone : UInt8 := 59

/-- The version of the protocol. -/
def protocolVersion : UInt8 := 2

/-- The fixed header of a packet. -/
structure Header where
  nextHeader : UInt8
  /-- The size of the packet in units of eight bytes, beyond the first eight bytes. -/
  units : UInt8
  /-- The code of the kind; the highest bit does not count. -/
  kind : UInt8
  /-- The version in the four high bits; the others do not count. -/
  version : UInt8
  checksum : UInt16
  controls : UInt16
  sender : Hit
  receiver : Hit
  deriving DecidableEq

namespace Header

/-- The size of the packet that the header tells. -/
def total (header : Header) : Nat := 8 + 8 * header.units.toNat

def encode (header : Header) : List UInt8 :=
  [header.nextHeader, header.units, header.kind, header.version] ++ wordBytes header.checksum ++
    wordBytes header.controls ++ header.sender.toBytes ++ header.receiver.toBytes

/-- The header in front of a body, with the checksum of both. -/
def encodeWith (header : Header) (body : List UInt8) : List UInt8 :=
  let cleared := { header with checksum := 0 }
  { header with checksum := packetChecksum (cleared.encode ++ body) }.encode ++ body

def read : Reader Header := do
  let nextHeader ← Reader.byte
  let units ← Reader.byte
  let kind ← Reader.byte
  let version ← Reader.byte
  let checksum ← Reader.word
  let controls ← Reader.word
  let sender ← Reader.block
  let receiver ← Reader.block
  return ⟨nextHeader, units, kind, version, checksum, controls, ⟨sender⟩, ⟨receiver⟩⟩

@[simp]
theorem length_encode (header : Header) : header.encode.length = headerLength := by
  simp [encode, headerLength, Hit.toBytes]

/-- A header is read off the front of exactly the byte strings that start with it. -/
theorem read_eq_ok_iff {bytes rest : List UInt8} {header : Header} :
    read bytes = .ok (header, rest) ↔ bytes = header.encode ++ rest := by
  unfold read encode Hit.toBytes
  simp only [Reader.bind_eq_ok_iff, Reader.byte_eq_ok_iff, Reader.word_eq_ok_iff,
    Reader.block_eq_ok_iff, Reader.pure_eq_ok_iff]
  constructor
  · rintro ⟨_, _, rfl, _, _, rfl, _, _, rfl, _, _, rfl, _, _, rfl, _, _, rfl, _, _, rfl, _, _, rfl,
      rfl, rfl⟩
    simp
  · rintro rfl
    refine ⟨_, _, rfl, _, _, rfl, _, _, rfl, _, _, rfl, header.checksum, _, ?_, _, _, rfl,
      _, _, rfl, _, _, rfl, rfl, rfl⟩
    simp

end Header

namespace Packet

/-- The header for a packet of `total` bytes, with the checksum still to be computed. -/
def header (packet : Packet) (total : Nat) : Header where
  nextHeader := nextHeaderNone
  units := UInt8.ofNat ((total - 8) / 8)
  kind := packet.kind.code
  version := protocolVersion * 16 + 1
  checksum := 0
  controls := packet.controls
  sender := packet.sender
  receiver := packet.receiver

/-- The wire form of a packet. The first parameter that has no wire form decides, and then the
    size. -/
def encode (packet : Packet) : Except Error (List UInt8) := do
  let body ← Parameter.encodeAll packet.parameters
  let total := headerLength + body.length
  if maxPacketLength < total then
    .error (.packetTooLarge total)
  else
    .ok ((packet.header total).encodeWith body)

/-- The wire form put behind what a buffer holds already. A packet without one leaves the buffer as
    it was. -/
def appendTo (buffer : List UInt8) (packet : Packet) : Except Error Unit × List UInt8 :=
  match packet.encode with
  | .ok bytes => (.ok (), buffer ++ bytes)
  | .error error => (.error error, buffer)

/-- The packet that a header and the bytes behind it stand for. The kind is checked first, then the
    version and the parameters, of which each must be understood. -/
def ofHeader (header : Header) (body : List UInt8) : Except Error Packet :=
  match PacketKind.ofCode? (header.kind &&& 0x7f) with
  | none => .error (.unknownPacketType header.kind)
  | some kind =>
    if header.version >>> 4 ≠ protocolVersion then
      .error (.unsupportedVersion (header.version >>> 4))
    else do
      let parameters ← Parameter.parseAll body
      return ⟨kind, header.controls, header.sender, header.receiver, parameters⟩

/-- The packet at the front of a byte string; what lies beyond the size in its header does not
    matter. The size is checked first, then the checksum and what the packet holds. -/
def parse (bytes : List UInt8) : Except Error Packet :=
  match Header.read bytes with
  | .error _ => .error .tooShort
  | .ok (header, rest) =>
    let data := bytes.take header.total
    if bytes.length < header.total ∨ header.total < headerLength then
      .error .tooShort
    else if header.checksum ≠ packetChecksum data then
      .error (.badChecksum (packetChecksum data) header.checksum)
    else
      ofHeader header (rest.take (header.total - headerLength))

end Packet

namespace Parameter

theorem length_of_encode {parameter : Parameter} {bytes : List UInt8}
    (hencode : parameter.encode = .ok bytes) : ∃ units, bytes.length = 8 * units ∧ 0 < units := by
  obtain ⟨content, -, hfits⟩ := bind_eq_ok_iff.mp hencode
  obtain ⟨-, hbytes⟩ := ite_error_eq_ok_iff.mp hfits
  obtain rfl := Except.ok.inj hbytes
  rw [length_encodeTlv]
  exact ⟨(4 + content.length + 7) / 8, by unfold paddedLength; omega, by omega⟩

theorem length_of_encodeAll {parameters : List Parameter} {bytes : List UInt8}
    (hencode : encodeAll parameters = .ok bytes) : ∃ units, bytes.length = 8 * units := by
  induction parameters generalizing bytes with
  | nil =>
    obtain rfl := Except.ok.inj hencode
    exact ⟨0, rfl⟩
  | cons parameter rest ih =>
    obtain ⟨first, hfirst, hrest⟩ := bind_eq_ok_iff.mp hencode
    obtain ⟨others, hothers, hbytes⟩ := bind_eq_ok_iff.mp hrest
    obtain rfl := pure_eq_ok_iff.mp hbytes
    obtain ⟨a, ha, -⟩ := length_of_encode hfirst
    obtain ⟨b, hb⟩ := ih hothers
    exact ⟨a + b, by rw [List.length_append, ha, hb]; omega⟩

end Parameter

namespace Packet

/-- An encoded packet has a multiple of eight bytes, from 40 to 2048. -/
theorem length_of_encode {packet : Packet} {bytes : List UInt8}
    (hencode : packet.encode = .ok bytes) :
    (∃ units, bytes.length = 8 * units) ∧ headerLength ≤ bytes.length ∧
      bytes.length ≤ maxPacketLength := by
  obtain ⟨body, hbody, hfits⟩ := bind_eq_ok_iff.mp hencode
  obtain ⟨hsize, hbytes⟩ := ite_error_eq_ok_iff.mp hfits
  obtain rfl := Except.ok.inj hbytes
  obtain ⟨units, hunits⟩ := Parameter.length_of_encodeAll hbody
  rw [Header.encodeWith, List.length_append, Header.length_encode]
  refine ⟨⟨5 + units, ?_⟩, by omega, by omega⟩
  unfold headerLength
  omega

end Packet

end DietExchange
