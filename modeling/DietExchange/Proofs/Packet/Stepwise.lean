import DietExchange.Packet.Grammar
import DietExchange.Proofs.Packet.Contents

/-!
Reading a packet step by step, as a parser with a cursor does it: sizes are looked at before bytes
are taken, each step takes its bytes off what is left, and a step that finds too few of them
reports a fault of its own.
-/

namespace DietExchange

/-- A reader as a step of a parser: its fault is an error like others. -/
def Reader.step {α : Type} (reader : Reader α) (bytes : List UInt8) :
    Except Error (α × List UInt8) :=
  match reader bytes with
  | .ok taken => .ok taken
  | .error fault => .error (.parseError fault)

namespace Reader

theorem step_of_eq_ok {α : Type} {reader : Reader α} {bytes rest : List UInt8} {value : α}
    (hread : reader bytes = .ok (value, rest)) : reader.step bytes = .ok (value, rest) := by
  rw [step, hread]

@[simp]
theorem step_byte (value : UInt8) (rest : List UInt8) : byte.step (value :: rest) =
    .ok (value, rest) :=
  step_of_eq_ok (byte_eq_ok_iff.mpr rfl)

@[simp]
theorem step_word (value : UInt16) (rest : List UInt8) :
    word.step (wordBytes value ++ rest) = .ok (value, rest) :=
  step_of_eq_ok (word_eq_ok_iff.mpr rfl)

theorem step_take {count : Nat} {front : List UInt8} (hcount : front.length = count)
    (rest : List UInt8) : (take count).step (front ++ rest) = .ok (front, rest) :=
  step_of_eq_ok (take_eq_ok_iff.mpr ⟨hcount, rfl⟩)

end Reader

namespace Parameter

/-- One parameter off the front, in steps. -/
def parseInSteps (bytes : List UInt8) : Except Error (Parameter × List UInt8) :=
  if bytes.length < 4 then
    .error .tooShort
  else do
    let (code, rest) ← Reader.word.step bytes
    let (length, rest) ← Reader.word.step rest
    let total := paddedLength length.toNat
    if bytes.length < total then
      .error .tooShort
    else do
      let (content, rest) ← (Reader.take length.toNat).step rest
      let (_, rest) ← (Reader.take (total - 4 - length.toNat)).step rest
      let parameter ← decode code content
      return (parameter, rest)

theorem parse_eq_tooShort {bytes : List UInt8}
    (hnone : ∀ code content rest, readTlv bytes ≠ .ok ((code, content), rest)) :
    parse bytes = .error .tooShort := by
  unfold parse
  split
  · rfl
  · rename_i code content rest hread
    exact absurd hread (hnone code content rest)

/-- When the sizes were looked at, every step finds its bytes. -/
theorem parseInSteps_eq_parse (bytes : List UInt8) : parseInSteps bytes = parse bytes := by
  unfold parseInSteps
  by_cases hshort : bytes.length < 4
  · rw [if_pos hshort, parse_eq_tooShort]
    intro code content rest hread
    obtain ⟨-, padding, -, rfl⟩ := readTlv_eq_ok_iff.mp hread
    simp at hshort
    omega
  rw [if_neg hshort]
  obtain ⟨code, rest, rfl⟩ := exists_wordBytes_append bytes (by omega)
  rw [List.length_append, length_wordBytes] at hshort
  obtain ⟨length, rest, rfl⟩ := exists_wordBytes_append rest (by omega)
  have hlength : length.toNat < 65536 := length.toNat_lt
  have hpadded := add_le_paddedLength length.toNat
  simp only [Reader.step_word, bind, Except.bind, List.length_append, length_wordBytes]
  by_cases hfits : 2 + (2 + rest.length) < paddedLength length.toNat
  · rw [if_pos hfits, parse_eq_tooShort]
    intro found content left hread
    obtain ⟨hcontent, padding, hpadding, hbytes⟩ := readTlv_eq_ok_iff.mp hread
    simp only [List.append_assoc] at hbytes
    obtain ⟨-, hbytes⟩ := List.append_inj hbytes (by simp)
    rw [← wordBytes_ofNat hcontent] at hbytes
    obtain ⟨hword, rfl⟩ := List.append_inj hbytes (by simp)
    have hvalue : length.toNat = content.length := by
      rw [eq_of_wordBytes_eq hword, UInt16.toNat_ofNat_of_lt' hcontent]
    simp only [List.length_append, hpadding, hvalue] at hfits hpadded
    omega
  · rw [if_neg hfits]
    obtain ⟨content, rest, hcontent, rfl⟩ := exists_eq_append rest length.toNat
      (by omega)
    rw [List.length_append] at hfits
    obtain ⟨padding, rest, hpadding, rfl⟩ := exists_eq_append rest
      (paddedLength length.toNat - 4 - length.toNat) (by omega)
    have hread : readTlv (wordBytes code ++ (wordBytes length ++ (content ++ (padding ++ rest)))) =
        .ok ((code, content), rest) := by
      refine readTlv_eq_ok_iff.mpr ⟨by omega, padding, by rw [hcontent, hpadding], ?_⟩
      rw [hcontent, ← wordBytes]
      simp only [List.append_assoc]
    rw [Reader.step_take hcontent]
    simp only
    rw [Reader.step_take hpadding]
    unfold parse
    rw [hread]
    rfl

/-- Parameters are taken until nothing is left, and each is put behind those that were taken
    before. -/
def collect (taken : List Parameter) (bytes : List UInt8) : Except Error (List Parameter) :=
  if bytes = [] then .ok taken
  else
    match _hparse : parseInSteps bytes with
    | .error error => .error error
    | .ok (parameter, rest) => collect (taken ++ [parameter]) rest
termination_by bytes.length
decreasing_by exact length_lt_of_parse (parseInSteps_eq_parse bytes ▸ _hparse)

section Loop

variable {bytes rest : List UInt8} {parameter : Parameter} {error : Error}

theorem parseAll_of_error (hne : bytes ≠ []) (hparse : parse bytes = .error error) :
    parseAll bytes = .error error := by
  rw [parseAll, if_neg hne]
  split <;> simp_all

theorem parseAll_of_ok (hne : bytes ≠ []) (hparse : parse bytes = .ok (parameter, rest)) :
    parseAll bytes = (parameter :: ·) <$> parseAll rest := by
  rw [parseAll, if_neg hne]
  split <;> simp_all

/-- The loop comes to the parameters taken before, and those that the rest is read as. -/
theorem collect_eq (taken : List Parameter) (bytes : List UInt8) :
    collect taken bytes = (taken ++ ·) <$> parseAll bytes := by
  induction taken, bytes using collect.induct with
  | case1 taken =>
    rw [collect, if_pos rfl, parseAll, if_pos rfl]
    exact congrArg Except.ok (List.append_nil taken).symm
  | case2 taken bytes hne error hparse =>
    have hcollect : collect taken bytes = .error error := by
      rw [collect, if_neg hne]
      split <;> simp_all
    rw [hcollect, parseAll_of_error hne (parseInSteps_eq_parse bytes ▸ hparse)]
    rfl
  | case3 taken bytes hne parameter rest hparse ih =>
    have hcollect : collect taken bytes = collect (taken ++ [parameter]) rest := by
      rw [collect, if_neg hne]
      split <;> simp_all
    rw [hcollect, ih, parseAll_of_ok hne (parseInSteps_eq_parse bytes ▸ hparse)]
    cases parseAll rest with
    | error error => rfl
    | ok parameters => exact congrArg Except.ok (List.append_assoc taken [parameter] parameters)

end Loop

end Parameter

namespace Header

theorem exists_encode_append {bytes : List UInt8} (hlength : headerLength ≤ bytes.length) :
    ∃ (header : Header) (rest : List UInt8), bytes = header.encode ++ rest := by
  unfold headerLength at hlength
  obtain ⟨nextHeader, bytes, rfl⟩ := List.exists_cons_of_length_pos (l := bytes) (by omega)
  obtain ⟨units, bytes, rfl⟩ :=
    List.exists_cons_of_length_pos (l := bytes) (by simp at hlength; omega)
  obtain ⟨kind, bytes, rfl⟩ :=
    List.exists_cons_of_length_pos (l := bytes) (by simp at hlength; omega)
  obtain ⟨version, bytes, rfl⟩ := List.exists_cons_of_length_pos (l := bytes)
    (by simp at hlength; omega)
  obtain ⟨checksum, bytes, rfl⟩ := exists_wordBytes_append bytes (by simp at hlength; omega)
  obtain ⟨controls, bytes, rfl⟩ := exists_wordBytes_append bytes (by simp at hlength; omega)
  obtain ⟨sender, bytes, rfl⟩ := exists_block_append bytes (by simp at hlength; omega)
  obtain ⟨receiver, bytes, rfl⟩ := exists_block_append bytes (by simp at hlength; omega)
  exact ⟨⟨nextHeader, units, kind, version, checksum, controls, ⟨sender⟩, ⟨receiver⟩⟩, bytes,
    by simp [encode, Hit.toBytes]⟩

section Places

variable (header : Header) (rest : List UInt8)

/-- A header as its fields, put in front of what follows. -/
theorem encode_append : header.encode ++ rest = header.nextHeader :: header.units :: header.kind ::
    header.version :: (wordBytes header.checksum ++ (wordBytes header.controls ++
      (header.sender.toBytes ++ (header.receiver.toBytes ++ rest)))) := by
  simp [encode]

theorem numberAt_units : numberAt (header.encode ++ rest) 1 1 = header.units.toNat := by
  simp [encode_append, numberAt, bigEndianValue_cons]

theorem numberAt_kind : numberAt (header.encode ++ rest) 2 1 = header.kind.toNat := by
  simp [encode_append, numberAt, bigEndianValue_cons]

theorem numberAt_version : numberAt (header.encode ++ rest) 3 1 = header.version.toNat := by
  simp [encode_append, numberAt, bigEndianValue_cons]

theorem numberAt_checksum : numberAt (header.encode ++ rest) 4 2 = header.checksum.toNat := by
  rw [encode_append]
  exact numberAt_append_word [_, _, _, _] _ header.checksum

theorem numberAt_controls : numberAt (header.encode ++ rest) 6 2 = header.controls.toNat := by
  rw [encode_append]
  exact numberAt_append_word ([_, _, _, _] ++ wordBytes header.checksum) _ header.controls

theorem take_drop_sender : ((header.encode ++ rest).drop 8).take 16 = header.sender.toBytes := by
  have hfront : ([header.nextHeader, header.units, header.kind, header.version] ++
      (wordBytes header.checksum ++ wordBytes header.controls)).length = 8 := by simp
  have hbytes : header.encode ++ rest = [header.nextHeader, header.units, header.kind,
      header.version] ++ (wordBytes header.checksum ++ wordBytes header.controls) ++
      (header.sender.toBytes ++ (header.receiver.toBytes ++ rest)) := by simp [encode]
  rw [hbytes, List.drop_left' hfront]
  exact List.take_left' (Block.length_toList _)

theorem take_drop_receiver :
    ((header.encode ++ rest).drop 24).take 16 = header.receiver.toBytes := by
  have hfront : ([header.nextHeader, header.units, header.kind, header.version] ++
      (wordBytes header.checksum ++ wordBytes header.controls) ++ header.sender.toBytes).length =
        24 := by
    simp [Hit.toBytes]
  have hbytes : header.encode ++ rest = [header.nextHeader, header.units, header.kind,
      header.version] ++
      (wordBytes header.checksum ++ wordBytes header.controls) ++ header.sender.toBytes ++
      (header.receiver.toBytes ++ rest) := by simp [encode]
  rw [hbytes, List.drop_left' hfront]
  exact List.take_left' (Block.length_toList _)

theorem take_total (hsize : headerLength ≤ header.total) :
    (header.encode ++ rest).take header.total =
    header.encode ++ rest.take (header.total - headerLength) := by
  rw [List.take_append, List.take_of_length_le (by rwa [length_encode]), length_encode]

end Places

end Header

namespace Packet

/-- The fields of a packet whose size and checksum are right, in steps. -/
def readInSteps (data : List UInt8) : Except Error Packet := do
  let (_, rest) ← Reader.byte.step data
  let (_, rest) ← Reader.byte.step rest
  let (code, rest) ← Reader.byte.step rest
  let (version, rest) ← Reader.byte.step rest
  let (_, rest) ← Reader.word.step rest
  let (controls, rest) ← Reader.word.step rest
  let (sender, rest) ← (Reader.take 16).step rest
  let (receiver, rest) ← (Reader.take 16).step rest
  match PacketKind.ofCode? (code &&& 0x7f) with
  | none => .error (.unknownPacketType code)
  | some kind =>
    if version >>> 4 ≠ protocolVersion then
      .error (.unsupportedVersion (version >>> 4))
    else do
      let parameters ← Parameter.collect [] rest
      match Hit.ofBytes? sender, Hit.ofBytes? receiver with
      | some sender, some receiver => return ⟨kind, controls, sender, receiver, parameters⟩
      | _, _ => .error .tooShort

/-- A packet off the front, in steps. -/
def parseInSteps (bytes : List UInt8) : Except Error Packet :=
  if bytes.length < 8 then
    .error .tooShort
  else
    let total := 8 + numberAt bytes 1 1 * 8
    if bytes.length < total ∨ total < headerLength then
      .error .tooShort
    else
      let data := bytes.take total
      let received := UInt16.ofNat (numberAt data 4 2)
      let computed := packetChecksum data
      if received ≠ computed then
        .error (.badChecksum computed received)
      else
        readInSteps data

/-- With a whole header in front no step lacks its bytes. -/
theorem readInSteps_eq_ofHeader (header : Header) (body : List UInt8) :
    readInSteps (header.encode ++ body) = ofHeader header body := by
  have hit : ∀ hit : Hit, Hit.ofBytes? hit.toBytes = some hit := by
    intro hit
    rw [Hit.ofBytes?, Hit.toBytes, Block.ofList?_toList]
    rfl
  have hlength : ∀ hit : Hit, hit.toBytes.length = 16 := fun hit => Block.length_toList _
  unfold readInSteps ofHeader
  simp only [Header.encode_append, Reader.step_byte, Reader.step_word,
    Reader.step_take (hlength _), bind, Except.bind, Parameter.collect_eq, List.nil_append, hit]
  cases PacketKind.ofCode? (header.kind &&& 0x7f) with
  | none => rfl
  | some kind =>
    simp only
    split
    · rfl
    · cases Parameter.parseAll body <;> rfl

/-- The steps come to the same as the reader that takes no account of them. -/
theorem parseInSteps_eq_parse (bytes : List UInt8) : parseInSteps bytes = parse bytes := by
  by_cases hlong : headerLength ≤ bytes.length
  · obtain ⟨header, rest, rfl⟩ := Header.exists_encode_append hlong
    have hread : Header.read (header.encode ++ rest) = .ok (header, rest) :=
      Header.read_eq_ok_iff.mpr rfl
    have htotal : 8 + numberAt (header.encode ++ rest) 1 1 * 8 = header.total := by
      rw [Header.numberAt_units, Header.total, Nat.mul_comm]
    have hlong : ¬(header.encode ++ rest).length < 8 := by
      unfold headerLength at hlong
      omega
    unfold parseInSteps parse
    rw [hread, if_neg hlong]
    simp only [htotal]
    by_cases hsize : (header.encode ++ rest).length < header.total ∨ header.total < headerLength
    · rw [if_pos hsize, if_pos hsize]
    · rw [if_neg hsize, if_neg hsize, Header.take_total header rest (by omega),
        Header.numberAt_checksum, UInt16.ofNat_toNat, readInSteps_eq_ofHeader]
  · unfold headerLength at hlong
    have hread : ∀ header rest, Header.read bytes ≠ .ok (header, rest) := by
      intro header rest hread
      rw [Header.read_eq_ok_iff.mp hread, List.length_append, Header.length_encode] at hlong
      exact hlong (Nat.le_add_right 40 _)
    have hparse : parse bytes = .error .tooShort := by
      unfold parse
      split
      · rfl
      · rename_i header rest hfound
        exact absurd hfound (hread header rest)
    rw [hparse]
    unfold parseInSteps
    split
    · rfl
    · exact if_pos (by unfold headerLength; omega)

end Packet

end DietExchange
