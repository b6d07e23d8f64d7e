import DietExchange.Packet.Grammar

namespace DietExchange

/-- The byte string with the bits that are set in `ignored` cleared. -/
def blank (ignored bytes : List UInt8) : List UInt8 :=
  List.zipWith (fun bits byte => byte &&& ~~~bits) ignored bytes

/-- Whether two byte strings of the length of `ignored` agree in all bits but those set in it. -/
structure AgreeBeside (ignored left right : List UInt8) : Prop where
  length_left : left.length = ignored.length
  length_right : right.length = ignored.length
  blank_eq : blank ignored left = blank ignored right

namespace AgreeBeside

variable {ignored left right : List UInt8}

theorem refl (bytes : List UInt8) : AgreeBeside (List.replicate bytes.length 0) bytes bytes :=
  ⟨List.length_replicate.symm, List.length_replicate.symm, rfl⟩

theorem cons {bits a b : UInt8} (hrest : AgreeBeside ignored left right)
    (hbyte : a &&& ~~~bits = b &&& ~~~bits) : AgreeBeside (bits :: ignored) (a :: left)
    (b :: right) where
  length_left := congrArg (· + 1) hrest.length_left
  length_right := congrArg (· + 1) hrest.length_right
  blank_eq := List.cons_eq_cons.mpr ⟨hbyte, hrest.blank_eq⟩

/-- What stands where every bit is ignored does not matter. -/
theorem cons_ignored (a b : UInt8) (hrest : AgreeBeside ignored left right) :
    AgreeBeside (0xff :: ignored) (a :: left) (b :: right) := by
  have hall : ∀ byte : UInt8, byte &&& ~~~0xff = 0 := fun byte => UInt8.and_zero
  exact hrest.cons ((hall a).trans (hall b).symm)

theorem append {ignored' left' right' : List UInt8} (hfront : AgreeBeside ignored left right)
    (hback : AgreeBeside ignored' left' right') :
    AgreeBeside (ignored ++ ignored') (left ++ left') (right ++ right') where
  length_left :=
    by rw [List.length_append, List.length_append, hfront.length_left, hback.length_left]
  length_right :=
    by rw [List.length_append, List.length_append, hfront.length_right, hback.length_right]
  blank_eq := by
    have hsplit := hfront.blank_eq
    have hrest := hback.blank_eq
    unfold blank at hsplit hrest ⊢
    rw [List.zipWith_append hfront.length_left.symm,
      List.zipWith_append hfront.length_right.symm, hsplit, hrest]

theorem ignoring {length : Nat} (hleft : left.length = length) (hright : right.length = length) :
    AgreeBeside (List.replicate length 0xff) left right := by
  induction length generalizing left right with
  | zero =>
    obtain rfl := List.eq_nil_of_length_eq_zero hleft
    obtain rfl := List.eq_nil_of_length_eq_zero hright
    exact .refl []
  | succ length ih =>
    obtain ⟨a, left, rfl⟩ := List.exists_cons_of_length_eq_add_one hleft
    obtain ⟨b, right, rfl⟩ := List.exists_cons_of_length_eq_add_one hright
    exact (ih (Nat.succ.inj hleft) (Nat.succ.inj hright)).cons_ignored a b

/-- What follows bytes that agree is not ignored. -/
theorem append_same (hfront : AgreeBeside ignored left right) (rest : List UInt8) :
    AgreeBeside (ignored ++ List.replicate ((right ++ rest).length - ignored.length) 0)
    (left ++ rest) (right ++ rest) := by
  rw [List.length_append, hfront.length_right, Nat.add_sub_cancel_left]
  exact hfront.append (.refl rest)

end AgreeBeside

/-- The reserved bits at the front of the content of a parameter of this kind. -/
def ParameterKind.reserved : ParameterKind → List UInt8
  | r1Counter | encrypted => [0xff, 0xff, 0xff, 0xff]
  | solution => [0, 0xff]
  | _ => []

namespace Parameter

/-- The length of the content of a parameter; one that cannot be written has none. -/
def contentLength (parameter : Parameter) : Nat :=
  match parameter.content with
  | .ok content => content.length
  | .error _ => 0

/-- The bits of the wire form of a parameter that do not count: those reserved in its content, and
    the padding behind it. -/
def ignored (parameter : Parameter) : List UInt8 :=
  List.replicate 4 0 ++ parameter.kind.reserved ++
    List.replicate (parameter.contentLength - parameter.kind.reserved.length) 0 ++
    List.replicate (paddedLength parameter.contentLength - 4 - parameter.contentLength) 0xff

end Parameter

/-- The bits of a header that do not count: the next header, the highest bit of the kind and the
    four low bits of the version; and the checksum, which is that of the bytes as they are. -/
def Header.ignored : List UInt8 := [0xff, 0, 0x80, 0x0f, 0xff, 0xff] ++ List.replicate 34 0

/-- The bits of the wire form of a packet that do not count, and its checksum. -/
def Packet.ignored (packet : Packet) : List UInt8 :=
  Header.ignored ++ packet.parameters.flatMap Parameter.ignored

namespace Parameter

/-- Content that stands for a parameter is what is written for it, but for the reserved bits. -/
theorem content_of_written {parameter : Parameter} {content : List UInt8}
    (hwritten : parameter.Written content) :
    ∃ own, parameter.content = .ok own ∧
      AgreeBeside (parameter.kind.reserved ++
        List.replicate (content.length - parameter.kind.reserved.length) 0) own content := by
  have hsame : ∀ rest, AgreeBeside ([] ++ List.replicate (rest.length - 0) 0) rest rest :=
    fun rest => .refl rest
  cases parameter with
  | r1Counter counter =>
    obtain ⟨reserved, hreserved, rfl⟩ := hwritten
    exact ⟨_, rfl, (AgreeBeside.ignoring (length_bigEndian 4 0) hreserved).append_same _⟩
  | solution s =>
    obtain ⟨reserved, rfl⟩ := hwritten
    have hfront : AgreeBeside [0, 0xff] [s.k, 0] [s.k, reserved] :=
      ((AgreeBeside.refl []).cons_ignored 0 reserved).cons rfl
    exact ⟨_, rfl, hfront.append_same (wordBytes s.cookie ++ s.challenge.toList ++ s.answer.toList)⟩
  | encrypted e =>
    obtain ⟨reserved, hreserved, rfl⟩ := hwritten
    have hfront : AgreeBeside [0xff, 0xff, 0xff, 0xff] (bigEndian 4 0) reserved :=
      .ignoring (length_bigEndian 4 0) hreserved
    have happend := hfront.append_same (e.iv.toList ++ e.data)
    simp only [← List.append_assoc] at happend
    exact ⟨_, rfl, happend⟩
  | hostId id =>
    obtain ⟨hkey, -, hidentifier, rfl⟩ := hwritten
    have hshort := HostId.publicKeyLength_lt id.curve
    exact ⟨id.layout, if_neg (by omega), hsame _⟩
  | hipCipher offer | dhGroupList list =>
    obtain ⟨-, rfl⟩ := hwritten
    exact ⟨_, rfl, hsame _⟩
  | _ =>
    obtain rfl := hwritten
    exact ⟨_, rfl, hsame _⟩

/-- A wire form of a parameter is what is written for it, but for the reserved bits and the
    padding. -/
theorem encode_of_isTlv {parameter : Parameter} {bytes : List UInt8}
    (htlv : parameter.IsTlv bytes) :
    ∃ own, parameter.encode = .ok own ∧ AgreeBeside parameter.ignored own bytes := by
  obtain ⟨content, padding, hwritten, hshort, hpadding, rfl⟩ := htlv
  obtain ⟨own, hown, hagree⟩ := content_of_written hwritten
  have hlength : own.length = content.length := hagree.length_left.trans hagree.length_right.symm
  have hcontentLength : parameter.contentLength = content.length := by
    unfold contentLength
    rw [hown]
    exact hlength
  refine ⟨encodeTlv parameter.kind.code own, ?_, ?_⟩
  · exact bind_eq_ok_iff.mpr ⟨own, hown, ite_error_eq_ok_iff.mpr ⟨by omega, rfl⟩⟩
  · have hfront : AgreeBeside (List.replicate 4 0)
        (wordBytes parameter.kind.code ++ bigEndian 2 own.length)
        (wordBytes parameter.kind.code ++ bigEndian 2 content.length) := by
      rw [hlength]
      exact .refl (wordBytes parameter.kind.code ++ bigEndian 2 content.length)
    have hback := AgreeBeside.ignoring (List.length_replicate (a := (0 : UInt8))) hpadding
    rw [ignored, hcontentLength, List.append_assoc (List.replicate 4 0), encodeTlv, hlength]
    rw [hlength] at hfront
    exact (hfront.append hagree).append hback

/-- Wire forms of parameters are what is written for them, but for what their receiver ignores. -/
theorem encodeAll_of_areTlvs {parameters : List Parameter} {bytes : List UInt8}
    (htlvs : AreTlvs parameters bytes) :
    ∃ own, encodeAll parameters = .ok own ∧
      AgreeBeside (parameters.flatMap ignored) own bytes := by
  induction htlvs with
  | nil => exact ⟨[], rfl, .refl []⟩
  | cons htlv hrest ih =>
    obtain ⟨first, hfirst, hagree⟩ := encode_of_isTlv htlv
    obtain ⟨others, hothers, hagrees⟩ := ih
    refine ⟨first ++ others, ?_, hagree.append hagrees⟩
    exact bind_eq_ok_iff.mpr ⟨first, hfirst, bind_eq_ok_iff.mpr ⟨others, hothers, rfl⟩⟩

theorem isWellFormed_of_areTlvs {parameters : List Parameter} {bytes : List UInt8}
    (htlvs : AreTlvs parameters bytes) : ∀ parameter ∈ parameters, parameter.IsWellFormed := by
  induction htlvs with
  | nil => exact List.forall_mem_nil _
  | cons htlv hrest ih =>
    obtain ⟨content, padding, hwritten, -⟩ := htlv
    exact List.forall_mem_cons.mpr ⟨isWellFormed_of_written hwritten, ih⟩

end Parameter

/-- The version counts with its four high bits only. -/
theorem and_complement_of_shiftRight_eq {a b : UInt8} (hshift : a >>> 4 = b >>> 4) :
    a &&& ~~~(0x0f : UInt8) = b &&& ~~~(0x0f : UInt8) := by
  have hclear : ∀ byte : UInt8, byte &&& ~~~(0x0f : UInt8) = (byte >>> 4) <<< 4 := by
    intro ⟨⟨byte⟩⟩
    revert byte
    decide +kernel
  rw [hclear, hclear, hshift]

/-- Two headers of one packet and one size agree in all bits that count. -/
theorem Header.agreeBeside_encode {left right : Header} {packet : Packet}
    (hunits : left.units = right.units) (hleft : left.Describes packet)
    (hright : right.Describes packet) : AgreeBeside Header.ignored left.encode right.encode := by
  have hkind : left.kind &&& ~~~0x80 = right.kind &&& ~~~0x80 := hleft.kind.trans hright.kind.symm
  have hversion : left.version &&& ~~~0x0f = right.version &&& ~~~0x0f :=
    and_complement_of_shiftRight_eq (hleft.version.trans hright.version.symm)
  have hchecksum : AgreeBeside [0xff, 0xff] (wordBytes left.checksum) (wordBytes right.checksum) :=
    .ignoring (length_wordBytes _) (length_wordBytes _)
  have hrest : AgreeBeside (List.replicate 34 0)
      (wordBytes left.controls ++ left.sender.toBytes ++ left.receiver.toBytes)
      (wordBytes right.controls ++ right.sender.toBytes ++ right.receiver.toBytes) := by
    rw [hleft.controls, hleft.sender, hleft.receiver, hright.controls, hright.sender,
      hright.receiver]
    have hlength : (wordBytes packet.controls ++ packet.sender.toBytes ++
        packet.receiver.toBytes).length = 34 := by simp [Hit.toBytes]
    exact hlength ▸ AgreeBeside.refl _
  have hfront : AgreeBeside [0xff, 0, 0x80, 0x0f]
      [left.nextHeader, left.units, left.kind, left.version]
      [right.nextHeader, right.units, right.kind, right.version] :=
    ((((AgreeBeside.refl []).cons hversion).cons hkind).cons
      (congrArg (· &&& ~~~0) hunits)).cons_ignored
      _ _
  have hall := (hfront.append hchecksum).append hrest
  simp only [← List.append_assoc] at hall
  exact hall

namespace Packet

/-- A packet that is written is read back, whatever follows it. Its length is a multiple of eight
    from 40 to 2048, and the length byte tells it. -/
theorem roundTrip_of_encode {packet : Packet} {bytes : List UInt8}
    (hencode : packet.encode = .ok bytes) (hwellFormed : packet.IsWellFormed) :
    8 ∣ bytes.length ∧ 40 ≤ bytes.length ∧ bytes.length ≤ 2048 ∧
      (∃ units, bytes[1]? = some units ∧ units.toNat = (bytes.length - 8) / 8) ∧
      ∀ rest, parse (bytes ++ rest) = .ok packet := by
  obtain ⟨hunits, hmin, hmax⟩ := length_of_encode hencode
  obtain ⟨header, body, -, -, hbytes, htotal, -⟩ := exists_header_of_encode hencode
  have hbyte : bytes[1]? = some header.units := by
    rw [hbytes]
    rfl
  unfold Header.total at htotal
  exact ⟨hunits, hmin, hmax, ⟨header.units, hbyte, by omega⟩,
    fun rest => parse_append_of_encode rest hencode hwellFormed⟩

/-- A packet with a list, a host identity with a domain identifier, and padding of every kind. -/
def sampleR1 : Packet where
  kind := .r1
  controls := 0x0102
  sender := ⟨Block.ofNat 1⟩
  receiver := ⟨Block.ofNat 2⟩
  parameters := [.r1Counter 7, .hipCipher (.ofList [.aes128Cbc, .unknown 9]),
    .hostId ⟨.secp160r1, List.replicate 41 4, 3, [0x61, 0x62]⟩, .echoRequestUnsigned [1, 2, 3]]

/-- A packet with parameters of four kinds meets the conditions, and what stands behind it is not
    read. -/
theorem roundTrip_sampleR1 : ∃ bytes, sampleR1.encode = .ok bytes ∧ sampleR1.IsWellFormed ∧
    8 ∣ bytes.length ∧ 40 ≤ bytes.length ∧ bytes.length ≤ 2048 ∧
      (∃ units, bytes[1]? = some units ∧ units.toNat = (bytes.length - 8) / 8) ∧
      ∀ rest, parse (bytes ++ rest) = .ok sampleR1 := by
  have hsome : sampleR1.encode.toOption.isSome := by decide +kernel
  obtain ⟨bytes, hbytes⟩ := Option.isSome_iff_exists.mp hsome
  have hencode : sampleR1.encode = .ok bytes := eq_ok_of_toOption hbytes
  have hwellFormed : sampleR1.IsWellFormed := by decide
  exact ⟨bytes, hencode, hwellFormed, roundTrip_of_encode hencode hwellFormed⟩

/-- A packet that was read can be written again. What is written has the length that the header
    told, is read as the packet, and is what was read but for the bits that do not count. -/
theorem encode_of_parse {packet : Packet} {bytes : List UInt8} (hparse : parse bytes = .ok packet) :
    ∃ own, packet.encode = .ok own ∧
      (∃ units, bytes[1]? = some units ∧ own.length = 8 + 8 * units.toNat) ∧
      parse own = .ok packet ∧ AgreeBeside packet.ignored own (bytes.take own.length) := by
  obtain ⟨_, rest, ⟨header, body, hdescribes, htlvs, rfl, htotal, -⟩, rfl⟩ :=
    parse_eq_ok_iff.mp hparse
  obtain ⟨own, hown, hagree⟩ := Parameter.encodeAll_of_areTlvs htlvs
  have hlength : own.length = body.length := hagree.length_left.trans hagree.length_right.symm
  have hunits : header.units.toNat < 256 := header.units.toNat_lt
  rw [List.length_append, Header.length_encode, ← hlength, Header.total] at htotal
  have hsize : ¬maxPacketLength < headerLength + own.length := by
    unfold maxPacketLength
    omega
  have hencode : packet.encode = .ok ((packet.header (headerLength + own.length)).encodeWith own) :=
    bind_eq_ok_iff.mpr ⟨own, hown, ite_error_eq_ok_iff.mpr ⟨hsize, rfl⟩⟩
  have hwellFormed : packet.IsWellFormed := Parameter.isWellFormed_of_areTlvs htlvs
  have hownLength : ((packet.header (headerLength + own.length)).encodeWith own).length =
      (header.encode ++ body).length := by
    rw [Header.encodeWith, List.length_append, List.length_append, Header.length_encode,
      Header.length_encode, hlength]
  refine ⟨_, hencode, ⟨header.units, rfl, ?_⟩, ?_, ?_⟩
  · rw [hownLength, List.length_append, Header.length_encode, ← hlength, htotal]
  · simpa using parse_append_of_encode [] hencode hwellFormed
  · rw [hownLength, List.take_left]
    have hunitsEq : (packet.header (headerLength + own.length)).units = header.units := by
      have hvalue : (headerLength + own.length - 8) / 8 = header.units.toNat := by omega
      rw [Packet.header, hvalue, UInt8.ofNat_toNat]
    refine AgreeBeside.append (Header.agreeBeside_encode hunitsEq ?_ hdescribes) hagree
    exact describes_header packet _ _

/-- The wire form of an I1 from a peer that does not clear what it reserves: next header, kind,
    version, counter and padding. -/
def unclearedI1 : List UInt8 :=
  [6, 7, 0x81, 0x2f, 217, 53, 0, 0] ++ List.replicate 16 0x20 ++ List.replicate 16 0x30 ++
    [0, 128, 0, 12, 1, 2, 3, 4] ++ [0, 0, 0, 0, 0, 0, 0, 5] ++ [8, 103, 0, 1, 7, 9, 9, 9]

/-- A packet whose reserved bytes and padding are not zero can be written and read again. -/
theorem encode_parse_unclearedI1 : ∃ packet own, parse unclearedI1 = .ok packet ∧
    packet.encode = .ok own ∧
      (∃ units, unclearedI1[1]? = some units ∧ own.length = 8 + 8 * units.toNat) ∧
      parse own = .ok packet ∧ AgreeBeside packet.ignored own (unclearedI1.take own.length) := by
  have hsome : (parse unclearedI1).toOption.isSome := by decide +kernel
  obtain ⟨packet, hpacket⟩ := Option.isSome_iff_exists.mp hsome
  have hparse : parse unclearedI1 = .ok packet := eq_ok_of_toOption hpacket
  obtain ⟨own, hown⟩ := encode_of_parse hparse
  exact ⟨packet, own, hparse, hown⟩

end Packet

end DietExchange
