import DietExchange.Proofs.Packet.Canonical
import DietExchange.Proofs.Packet.Checksum

/-!
What the checksum catches. A flipped bit moves the sum of the words by less than 65535 and is
noticed, unless it is a bit of the length byte: clearing that also takes the parameters at the end
out of the sum, and their words may make up for the bit.
-/

namespace DietExchange

theorem HostId.eq_of_layout_eq {id other : HostId} (hid : 2 + id.publicKey.length < 65536)
    (hother : 2 + other.publicKey.length < 65536) (hlayout : id.layout = other.layout) :
    id.curve = other.curve ∧ id.publicKey.length = other.publicKey.length := by
  simp only [layout, List.append_assoc] at hlayout
  obtain ⟨hkeyLength, hlayout⟩ := List.append_inj hlayout (by simp)
  obtain ⟨-, hlayout⟩ := List.append_inj hlayout (by simp)
  obtain ⟨-, hlayout⟩ := List.append_inj hlayout (by simp)
  obtain ⟨hcode, -⟩ := List.append_inj hlayout (by simp)
  have hlength := eq_of_bigEndian_eq 2 hid hother hkeyLength
  have hcurve : some id.curve = some other.curve := by
    rw [← Curve.ofCode?_code, ← Curve.ofCode?_code, eq_of_wordBytes_eq hcode]
  exact ⟨Option.some.inj hcurve, Nat.add_left_cancel hlength⟩

namespace Parameter

/-- Whether a public key in the parameter has the length of its curve. -/
def HasCurveKey : Parameter → Prop
  | hostId id => id.publicKey.length = id.curve.publicKeyLength
  | _ => True

section Delimiting

/- A parameter tells its own length, so that the bytes of several have one decomposition only. -/

variable {parameter : Parameter} {front : List UInt8}

theorem readTlv_of_encode (hencode : parameter.encode = .ok front) (rest : List UInt8) :
    ∃ content, parameter.content = .ok content ∧
      readTlv (front ++ rest) = .ok ((parameter.kind.code, content), rest) := by
  obtain ⟨content, hcontent, hfits⟩ := bind_eq_ok_iff.mp hencode
  obtain ⟨hlength, hbytes⟩ := ite_error_eq_ok_iff.mp hfits
  obtain rfl := Except.ok.inj hbytes
  exact ⟨content, hcontent,
    readTlv_eq_ok_iff.mpr ⟨by omega, List.replicate _ 0, List.length_replicate, rfl⟩⟩

theorem readTlv_of_isTlv (htlv : parameter.IsTlv front) (rest : List UInt8) :
    ∃ content, parameter.Written content ∧
      readTlv (front ++ rest) = .ok ((parameter.kind.code, content), rest) := by
  obtain ⟨content, padding, hwritten, hlength, hpadding, rfl⟩ := htlv
  exact ⟨content, hwritten, readTlv_eq_ok_iff.mpr ⟨hlength, padding, hpadding, rfl⟩⟩

/-- The wire form of a parameter that is read where another was written is all that was written for
    it, and then the key that was written had the length of its curve. -/
theorem HasCurveKey.of_isTlv {found : Parameter} {own rest rest' : List UInt8}
    (hencode : parameter.encode = .ok own) (htlv : found.IsTlv front)
    (hbytes : own ++ rest = front ++ rest') :
    parameter.HasCurveKey ∧ own = front ∧ rest = rest' := by
  obtain ⟨content, hcontent, hread⟩ := readTlv_of_encode hencode rest
  obtain ⟨content', hwritten, hread'⟩ := readTlv_of_isTlv htlv rest'
  rw [hbytes, hread'] at hread
  obtain ⟨hpair, rfl⟩ := Prod.mk.inj (Except.ok.inj hread)
  obtain ⟨hcode, rfl⟩ := Prod.mk.inj hpair
  refine ⟨?_, List.append_cancel_right hbytes, rfl⟩
  cases parameter with
  | hostId id =>
    have hkind : found.kind = .hostId := by
      have hfound := ParameterKind.ofCode?_code found.kind
      rw [hcode] at hfound
      exact (Option.some.inj hfound).symm
    cases found with
    | hostId other =>
      obtain ⟨hkey, -, -, hlayout⟩ := hwritten
      obtain ⟨hlimits, hown⟩ := ite_error_eq_ok_iff.mp hcontent
      have hother := HostId.publicKeyLength_lt other.curve
      obtain ⟨hcurve, hlength⟩ := HostId.eq_of_layout_eq (by omega) (by omega)
        ((Except.ok.inj hown).trans hlayout)
      exact hlength.trans (hkey.trans (congrArg Curve.publicKeyLength hcurve.symm))
    | _ => cases hkind
  | _ => trivial

/-- What is written for a parameter whose key has the length of its curve is read as some
    parameter. -/
theorem HasCurveKey.exists_isTlv (hkey : parameter.HasCurveKey)
    (hencode : parameter.encode = .ok front) : ∃ found : Parameter, found.IsTlv front := by
  cases parameter with
  | hostId id =>
    let read : HostId := { id with domainType := id.domainType % 16 }
    have hlayout : read.layout = id.layout := by
      have htype : (id.domainType % 16).toNat % 16 = id.domainType.toNat % 16 := by
        rw [UInt8.toNat_mod]
        exact Nat.mod_mod _ _
      simp only [HostId.layout, HostId.domainField, read, htype]
    have hread : (Parameter.hostId read).encode = .ok front := by
      rw [← hencode, encode, encode, content, content, HostId.content, HostId.content, hlayout]
      rfl
    have htype : read.domainType < 16 := UInt8.mod_lt _ (by decide)
    exact ⟨.hostId read, isTlv_of_encode hread ⟨hkey, htype⟩⟩
  | _ =>
    rw [← encode_canonical] at hencode
    exact ⟨_, isTlv_of_encode hencode (isWellFormed_canonical (by rintro id ⟨⟩))⟩

end Delimiting

theorem encodeAll_append {front back : List Parameter} {kept cut : List UInt8}
    (hfront : encodeAll front = .ok kept) (hback : encodeAll back = .ok cut) :
    encodeAll (front ++ back) = .ok (kept ++ cut) := by
  induction front generalizing kept with
  | nil =>
    obtain rfl := Except.ok.inj hfront
    exact hback
  | cons parameter rest ih =>
    obtain ⟨first, hfirst, hrest⟩ := bind_eq_ok_iff.mp hfront
    obtain ⟨others, hothers, hbytes⟩ := bind_eq_ok_iff.mp hrest
    obtain rfl := pure_eq_ok_iff.mp hbytes
    refine bind_eq_ok_iff.mpr ⟨first, hfirst, bind_eq_ok_iff.mpr ⟨_, ih hothers, ?_⟩⟩
    rw [List.append_assoc]
    rfl

/-- Where the front of what was written for parameters is read, it ends between two of them. -/
theorem AreTlvs.split {found parameters : List Parameter} {kept cut : List UInt8}
    (htlvs : AreTlvs found kept) (hencode : encodeAll parameters = .ok (kept ++ cut)) :
    ∃ front back, parameters = front ++ back ∧ encodeAll front = .ok kept ∧
      encodeAll back = .ok cut ∧ ∀ parameter ∈ front, parameter.HasCurveKey := by
  induction htlvs generalizing parameters with
  | nil => exact ⟨[], parameters, rfl, rfl, hencode, List.forall_mem_nil _⟩
  | @cons _ _ front back htlv hrest ih =>
    rw [List.append_assoc] at hencode
    cases parameters with
    | nil =>
      have hempty : front = [] := (List.append_eq_nil_iff.mp (Except.ok.inj hencode).symm).1
      obtain ⟨content, padding, -, -, -, hfront⟩ := htlv
      rw [hempty] at hfront
      simp [wordBytes, bigEndian] at hfront
    | cons parameter rest =>
      obtain ⟨first, hfirst, hothers⟩ := bind_eq_ok_iff.mp hencode
      obtain ⟨others, hothers, hbytes⟩ := bind_eq_ok_iff.mp hothers
      obtain ⟨hkey, rfl, rfl⟩ := HasCurveKey.of_isTlv hfirst htlv (pure_eq_ok_iff.mp hbytes)
      obtain ⟨front', back', rfl, hkept, hcut, hkeys⟩ := ih hothers
      refine ⟨parameter :: front', back', rfl, ?_, hcut, List.forall_mem_cons.mpr ⟨hkey, hkeys⟩⟩
      exact bind_eq_ok_iff.mpr ⟨first, hfirst, bind_eq_ok_iff.mpr ⟨_, hkept, rfl⟩⟩

/-- What is written for parameters whose keys have the lengths of their curves is read as some. -/
theorem exists_areTlvs_of_encodeAll {parameters : List Parameter} {bytes : List UInt8}
    (hencode : encodeAll parameters = .ok bytes)
    (hkeys : ∀ parameter ∈ parameters, parameter.HasCurveKey) : ∃ found, AreTlvs found bytes := by
  induction parameters generalizing bytes with
  | nil =>
    obtain rfl := Except.ok.inj hencode
    exact ⟨[], .nil⟩
  | cons parameter rest ih =>
    obtain ⟨first, hfirst, hrest⟩ := bind_eq_ok_iff.mp hencode
    obtain ⟨others, hothers, hbytes⟩ := bind_eq_ok_iff.mp hrest
    obtain rfl := pure_eq_ok_iff.mp hbytes
    obtain ⟨hkey, hkeys⟩ := List.forall_mem_cons.mp hkeys
    obtain ⟨head, hhead⟩ := hkey.exists_isTlv hfirst
    obtain ⟨tail, htail⟩ := ih hothers hkeys
    exact ⟨head :: tail, .cons hhead htail⟩

end Parameter

namespace Header

/-- The header with one bit of its length byte flipped. -/
def flipUnits (header : Header) (bit : Nat) : Header :=
  { header with units := header.units ^^^ (1 <<< UInt8.ofNat bit) }

variable {header : Header} {bit : Nat}

theorem flipBit_encode (header : Header) (body : List UInt8) (bit : Nat) :
    flipBit (header.encode ++ body) 1 bit = (header.flipUnits bit).encode ++ body := rfl

/-- A length byte tells more with a clear bit set, and less with a set bit cleared. -/
theorem toNat_units_flipUnits (header : Header) (hbit : bit < 8) :
    (header.flipUnits bit).units.toNat +
      (if header.units.toNat.testBit bit then Nat.pow 2 bit else 0) =
      header.units.toNat + (if header.units.toNat.testBit bit then 0 else Nat.pow 2 bit) :=
  toNat_xor_bit hbit header.units

/-- Clearing a bit of the length byte takes it out of the sum, and with it the bytes that are cut
    off. -/
theorem addWords_flipUnits (hbit : bit < 8) (hset : header.units.toNat.testBit bit)
    {kept : List UInt8} (hkept : kept.length % 2 = 0) (cut : List UInt8) :
    addWords 0 (header.encode ++ (kept ++ cut)) =
      addWords 0 ((header.flipUnits bit).encode ++ kept) + addWords (Nat.pow 2 bit) cut := by
  have hlength : (header.encode ++ kept).length = headerLength + kept.length := by
    rw [List.length_append, length_encode]
  have heven : (header.encode ++ kept).length % 2 = 0 := by
    rw [hlength, headerLength]
    omega
  have hindex : 1 < (header.encode ++ kept).length := by
    rw [hlength, headerLength]
    omega
  have hflip := addWords_flipBit hindex hbit
  have hunits : (header.encode ++ kept)[1] = header.units := rfl
  rw [hunits, if_pos hset, if_pos hset, flipBit_encode] at hflip
  rw [← List.append_assoc, addWords_append heven, addWords_eq_add (Nat.pow 2 bit)]
  simp only [byteWeight, Nat.one_mod, Nat.one_ne_zero, if_false, Nat.one_mul] at hflip
  omega

end Header

namespace Packet

/-- Whether a packet hides that this bit of its length byte was cleared: the bit is set in what is
    written for it, without it the packet ends behind some of its parameters, which are read as they
    are, and the words of the others and the bit sum to a multiple of 65535. -/
def HidesCut (packet : Packet) (bit : Nat) : Prop :=
  ∃ front back kept cut, packet.parameters = front ++ back ∧
    Parameter.encodeAll front = .ok kept ∧ Parameter.encodeAll back = .ok cut ∧
    cut.length = 8 * Nat.pow 2 bit ∧
    ((headerLength + kept.length + cut.length - 8) / 8).testBit bit ∧
    (∀ parameter ∈ front, parameter.HasCurveKey) ∧ 65535 ∣ addWords (Nat.pow 2 bit) cut

variable {packet : Packet} {bytes : List UInt8}

/-- Bytes that start with a header are read as a packet exactly if the header is one of it and tells
    the length of a wire form of its parameters that is next, and the checksum of both. -/
theorem parse_encode_eq_ok_iff {header : Header} {body : List UInt8} :
    parse (header.encode ++ body) = .ok packet ↔ ∃ own rest, body = own ++ rest ∧
      headerLength + own.length = header.total ∧ header.Describes packet ∧
      Parameter.AreTlvs packet.parameters own ∧
      header.checksum = packetChecksum (header.encode ++ own) := by
  rw [parse_eq_ok_iff]
  constructor
  · rintro ⟨_, rest, ⟨other, own, hdescribes, htlvs, rfl, htotal, hchecksum⟩, hbytes⟩
    rw [List.append_assoc] at hbytes
    have hread := (Header.read_eq_ok_iff.mpr rfl).symm.trans (Header.read_eq_ok_iff.mpr hbytes)
    obtain ⟨rfl, rfl⟩ := Prod.mk.inj (Except.ok.inj hread)
    rw [List.length_append, Header.length_encode] at htotal
    exact ⟨own, rest, rfl, htotal, hdescribes, htlvs, hchecksum⟩
  · rintro ⟨own, rest, rfl, htotal, hdescribes, htlvs, hchecksum⟩
    refine ⟨_, rest, ⟨header, own, hdescribes, htlvs, rfl, ?_, hchecksum⟩, ?_⟩
    · rw [List.length_append, Header.length_encode, htotal]
    · rw [List.append_assoc]

/-- While the length byte stays, all bytes are summed, and the sum does not come out right. -/
theorem parse_flipBit_ne_ok {index bit : Nat} (hencode : packet.encode = .ok bytes)
    (hindex : index < bytes.length) (hbit : bit < 8) (hne : index ≠ 1) (found : Packet) :
    parse (flipBit bytes index bit) ≠ .ok found := by
  intro hparse
  obtain ⟨header, body, hdescribes, -, hbytes, htotal, hchecksum⟩ := exists_header_of_encode hencode
  have hsum : 65535 ∣ addWords 0 bytes := by
    rw [hbytes] at hchecksum ⊢
    exact ((Header.checksum_eq_iff hdescribes.kind_ne_zero).mp hchecksum).1
  obtain ⟨_, rest, ⟨header', body', hdescribes', -, rfl, htotal', hchecksum'⟩, hflip⟩ :=
    parse_eq_ok_iff.mp hparse
  have hsum' := ((Header.checksum_eq_iff hdescribes'.kind_ne_zero).mp hchecksum').1
  have hunits : header'.units = header.units := by
    have hbyte : (flipBit bytes index bit)[1]? = bytes[1]? := List.getElem?_modify_ne _ _ hne
    rw [hflip, hbytes] at hbyte
    exact Option.some.inj hbyte
  have hrest : rest = [] := by
    have hlength := congrArg List.length hflip
    rw [length_flipBit, htotal, List.length_append, htotal', Header.total, Header.total, hunits]
      at hlength
    exact List.eq_nil_of_length_eq_zero (by omega)
  rw [hrest, List.append_nil] at hflip
  rw [← hflip] at hsum'
  exact not_dvd_addWords_flipBit hindex hbit hsum hsum'

/-- With a bit of the length byte flipped, what is written for a packet is read exactly if the
    packet hides that. -/
theorem exists_parse_flipUnits_iff {bit : Nat} (hencode : packet.encode = .ok bytes)
    (hbit : bit < 8) :
    (∃ found, parse (flipBit bytes 1 bit) = .ok found) ↔ packet.HidesCut bit := by
  obtain ⟨header, body, hdescribes, hbody, rfl, htotal, hchecksum⟩ :=
    exists_header_of_encode hencode
  have hkind : header.kind ≠ 0 := hdescribes.kind_ne_zero
  obtain ⟨hsum, hword⟩ := (Header.checksum_eq_iff hkind).mp hchecksum
  have hunits := header.toNat_units_flipUnits hbit
  rw [List.length_append, Header.length_encode, Header.total] at htotal
  rw [Header.flipBit_encode]
  constructor
  · rintro ⟨found, hparse⟩
    obtain ⟨kept, cut, rfl, hkept, hfound, htlvs, hchecksum'⟩ := parse_encode_eq_ok_iff.mp hparse
    have hsum' := ((Header.checksum_eq_iff hfound.kind_ne_zero).mp hchecksum').1
    obtain ⟨front, back, hparameters, hfront, hback, hkeys⟩ := htlvs.split hbody
    rw [List.length_append] at htotal
    rw [Header.total] at hkept
    -- A set bit more would tell more bytes than there are.
    have hset : header.units.toNat.testBit bit := by
      by_cases hset : header.units.toNat.testBit bit
      · exact hset
      · have hpow : 0 < Nat.pow 2 bit := Nat.two_pow_pos bit
        rw [if_neg hset, if_neg hset] at hunits
        omega
    rw [if_pos hset, if_pos hset] at hunits
    refine ⟨front, back, kept, cut, hparameters, hfront, hback, by omega, ?_, hkeys, ?_⟩
    · have hvalue : (headerLength + kept.length + cut.length - 8) / 8 =
          header.units.toNat := by omega
      rwa [hvalue]
    · have heven : kept.length % 2 = 0 := by
        unfold headerLength at hkept
        omega
      rw [Header.addWords_flipUnits hbit hset heven] at hsum
      exact (Nat.dvd_add_right hsum').mp hsum
  · rintro ⟨front, back, kept, cut, hparameters, hfront, hback, hcut, hset, hkeys, hdvd⟩
    rw [hparameters, Parameter.encodeAll_append hfront hback] at hbody
    obtain rfl := Except.ok.inj hbody
    rw [List.length_append] at htotal
    have hvalue : (headerLength + kept.length + cut.length - 8) / 8 = header.units.toNat := by omega
    rw [hvalue] at hset
    rw [if_pos hset, if_pos hset] at hunits
    have htotal' : headerLength + kept.length = (header.flipUnits bit).total := by
      rw [Header.total]
      omega
    have heven : kept.length % 2 = 0 := by
      rw [Header.total, headerLength] at htotal'
      omega
    rw [Header.addWords_flipUnits hbit hset heven] at hsum
    have hsum' : 65535 ∣ addWords 0 ((header.flipUnits bit).encode ++ kept) :=
      (Nat.dvd_add_left hdvd).mp hsum
    have hkind' : (header.flipUnits bit).kind ≠ 0 := hkind
    have hchecksum' := (Header.checksum_eq_iff hkind').mpr ⟨hsum', hword⟩
    obtain ⟨found, htlvs⟩ := Parameter.exists_areTlvs_of_encodeAll hfront hkeys
    refine ⟨{ packet with parameters := found },
      parse_encode_eq_ok_iff.mpr ⟨kept, cut, rfl, htotal', ?_, htlvs, hchecksum'⟩⟩
    exact ⟨hdescribes.kind, hdescribes.version, hdescribes.controls, hdescribes.sender,
      hdescribes.receiver⟩

/-- With one bit flipped, what is written for a packet is refused, unless it is a bit of the length
    byte and the packet hides that. -/
theorem parse_flipBit_eq_error_iff {index bit : Nat} (hencode : packet.encode = .ok bytes)
    (hindex : index < bytes.length) (hbit : bit < 8) :
    (∃ error, parse (flipBit bytes index bit) = .error error) ↔
    ¬(index = 1 ∧ packet.HidesCut bit) := by
  rw [exists_error_iff]
  by_cases hlength : index = 1
  · subst hlength
    rw [exists_parse_flipUnits_iff hencode hbit, and_iff_right rfl]
  · simp only [hlength, false_and, not_false_eq_true, iff_true]
    rintro ⟨found, hfound⟩
    exact parse_flipBit_ne_ok hencode hindex hbit hlength found hfound

/-- An I1 whose second parameter makes up for the lowest bit of the length byte. -/
def hidingI1 : Packet :=
  ofParameters .i1 ⟨Block.ofNat 1⟩ ⟨Block.ofNat 2⟩
    [.dhGroupList (.ofList [.nistP256, .nistP384, .nistP521, .secp160r1, .unknown 11]),
      .echoRequestUnsigned [0x07, 0x4d, 0, 0]]

theorem hidesCut_hidingI1 : hidingI1.HidesCut 0 :=
  ⟨[_], [_], _, _, rfl, rfl, rfl, rfl, by decide, List.forall_mem_singleton.mpr trivial, by decide⟩

/-- A flipped bit of its length goes unnoticed, one of its next header does not. -/
theorem flips_of_hidingI1 : ∃ bytes, hidingI1.encode = .ok bytes ∧ 1 < bytes.length ∧
    (¬∃ error, parse (flipBit bytes 1 0) = .error error) ∧
    ∃ error, parse (flipBit bytes 0 0) = .error error := by
  have hsome : hidingI1.encode.toOption.isSome := by decide +kernel
  obtain ⟨bytes, hbytes⟩ := Option.isSome_iff_exists.mp hsome
  have hencode : hidingI1.encode = .ok bytes := eq_ok_of_toOption hbytes
  obtain ⟨-, hmin, -⟩ := length_of_encode hencode
  unfold headerLength at hmin
  refine ⟨bytes, hencode, by omega, ?_, ?_⟩
  · rw [parse_flipBit_eq_error_iff hencode (by omega) (by decide)]
    exact not_not_intro ⟨rfl, hidesCut_hidingI1⟩
  · refine (parse_flipBit_eq_error_iff hencode (by omega) (by decide)).mpr ?_
    exact fun hcut => absurd hcut.1 (by decide)

/-- Not every flipped bit is noticed. -/
theorem not_forall_flips_refused : ¬∀ (packet : Packet) (bytes : List UInt8) (index bit : Nat),
    packet.encode = .ok bytes → index < bytes.length → bit < 8 →
      ∃ error, parse (flipBit bytes index bit) = .error error := by
  intro hall
  let bytes := hidingI1.encode.toOption.getD []
  have hbytes : hidingI1.encode.toOption = some bytes := by decide +kernel
  have hindex : 1 < bytes.length := by decide +kernel
  obtain ⟨error, herror⟩ := hall hidingI1 bytes 1 0 (eq_ok_of_toOption hbytes) hindex (by decide)
  have hread : (parse (flipBit bytes 1 0)).toOption.isSome := by decide +kernel
  rw [herror] at hread
  cases hread

end Packet

end DietExchange
