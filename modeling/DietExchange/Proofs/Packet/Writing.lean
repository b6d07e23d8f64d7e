import DietExchange.Proofs.Packet.Stepwise

/-!
Writing onto a buffer in place. `Parameter.appendTo` and `Packet.appendTo` put a finished wire
form behind what a buffer holds, so that nothing of an attempt that fails can be seen. Here the
wire form grows in the buffer itself: a length or a checksum is written as zero and written over
when it is known, and an attempt that fails has to cut off what it has written, wherever it began.
-/

namespace DietExchange

/-- Steps on a buffer. What they wrote before one of them failed stays written. A step that reaches
    beyond the end of the buffer has no outcome at all. -/
abbrev Writing := ExceptT Error (StateT (List UInt8) Option)

namespace Writing

variable {α β : Type}

/-- How steps on a buffer end, and the buffer that they leave behind. -/
def runOn (steps : Writing α) (buffer : List UInt8) : Option (Except Error α × List UInt8) :=
  StateT.run (ExceptT.run steps) buffer

/-- The number of bytes in the buffer. -/
def position : Writing Nat := do return (← get).length

/-- Put bytes at the end. -/
def put (bytes : List UInt8) : Writing Unit := modify (· ++ bytes)

/-- Keep so many bytes. -/
def truncate (length : Nat) : Writing Unit := modify (·.take length)

/-- Put zeros at the end, or cut it off, so that there are so many bytes. -/
def resize (length : Nat) : Writing Unit :=
  modify fun buffer => buffer.take length ++ List.replicate (length - buffer.length) 0

/-- The bytes from a place on. -/
def since (start : Nat) : Writing (List UInt8) :=
  ExceptT.mk fun buffer =>
    if start ≤ buffer.length then some (.ok (buffer.drop start), buffer) else none

/-- Put bytes in the place of as many others. -/
def overwrite (start : Nat) (bytes : List UInt8) : Writing Unit :=
  ExceptT.mk fun buffer =>
    if start + bytes.length ≤ buffer.length then
      some (.ok (), buffer.take start ++ bytes ++ buffer.drop (start + bytes.length))
    else none

/-- Steps that cut the buffer off at a place if they fail. -/
def cutOff (start : Nat) (steps : Writing Unit) : Writing Unit :=
  try steps
  catch error =>
    truncate start
    throw error

section Run

variable (buffer : List UInt8)

@[simp]
theorem runOn_bind (steps : Writing α) (next : α → Writing β) :
    (steps >>= next).runOn buffer = match steps.runOn buffer with
      | some (.ok value, after) => (next value).runOn after
      | some (.error error, after) => some (.error error, after)
      | none => none := by
  simp only [runOn, ExceptT.run_bind, StateT.run_bind]
  rcases steps.run.run buffer with _ | ⟨_ | _, after⟩ <;> rfl

@[simp]
theorem runOn_pure (value : α) : (pure value : Writing α).runOn buffer =
    some (.ok value, buffer) := rfl

@[simp]
theorem runOn_throw (error : Error) :
    (throw error : Writing α).runOn buffer = some (.error error, buffer) := rfl

@[simp]
theorem runOn_position : position.runOn buffer = some (.ok buffer.length, buffer) := rfl

@[simp]
theorem runOn_put (bytes : List UInt8) : (put bytes).runOn buffer =
    some (.ok (), buffer ++ bytes) := rfl

@[simp]
theorem runOn_truncate (length : Nat) :
    (truncate length).runOn buffer = some (.ok (), buffer.take length) := rfl

theorem runOn_resize_of_le {length : Nat} (hlength : buffer.length ≤ length) :
    (resize length).runOn buffer =
      some (.ok (), buffer ++ List.replicate (length - buffer.length) 0) := by
  have hrun : (resize length).runOn buffer =
      some (.ok (), buffer.take length ++ List.replicate (length - buffer.length) 0) := rfl
  rw [hrun, List.take_of_length_le hlength]

/-- What was put behind the place is what stands from there on. -/
theorem runOn_since {start : Nat} {front back : List UInt8} (hstart : front.length = start) :
    (since start).runOn (front ++ back) = some (.ok back, front ++ back) := by
  subst hstart
  change (if front.length ≤ (front ++ back).length then _ else _) = _
  rw [if_pos (by rw [List.length_append]; omega), List.drop_left]

/-- Bytes that stand between others are replaced, and the others stay. -/
theorem runOn_overwrite {start : Nat} (front old new back : List UInt8)
    (hstart : front.length = start) (hlength : old.length = new.length) :
    (overwrite start new).runOn (front ++ (old ++ back)) =
      some (.ok (), front ++ (new ++ back)) := by
  subst hstart
  change (if front.length + new.length ≤ (front ++ (old ++ back)).length then _ else _) = _
  rw [if_pos (by simp only [List.length_append]; omega), List.take_left, ← List.append_assoc,
    List.drop_left' (by rw [List.length_append, hlength]), List.append_assoc]

/-- Of steps that fail nothing stays behind the place. -/
theorem runOn_cutOff (start : Nat) (steps : Writing Unit) :
    (cutOff start steps).runOn buffer = match steps.runOn buffer with
      | some (.error error, after) => some (.error error, after.take start)
      | outcome => outcome := by
  have hcatch : (cutOff start steps).runOn buffer = match steps.runOn buffer with
      | some (.error error, after) => (truncate start >>= fun _ => throw error).runOn after
      | outcome => outcome := by
    simp only [runOn, cutOff, ExceptT.run_tryCatch, StateT.run_bind]
    rcases steps.run.run buffer with _ | ⟨_ | _, after⟩ <;> rfl
  rw [hcatch]
  rcases steps.runOn buffer with _ | ⟨_ | _, after⟩ <;> rfl

end Run

/-- Whether steps put these bytes behind whatever a buffer holds. -/
def Puts (steps : Writing Unit) (bytes : List UInt8) : Prop :=
  ∀ buffer, steps.runOn buffer = some (.ok (), buffer ++ bytes)

theorem puts_put (bytes : List UInt8) : (put bytes).Puts bytes := fun _ => rfl

theorem Puts.then {first next : Writing Unit} {front back : List UInt8} (hfirst : first.Puts front)
    (hnext : next.Puts back) : (first >>= fun _ => next).Puts (front ++ back) := by
  intro buffer
  rw [runOn_bind, hfirst]
  exact (hnext _).trans (by rw [List.append_assoc])

/-- One value after the other is put as it is encoded. -/
theorem puts_forM {values : List α} {step : α → Writing Unit} {encode : α → List UInt8}
    (hstep : ∀ value, (step value).Puts (encode value)) :
      (values.forM step).Puts (values.flatMap encode) := by
  induction values with
  | nil => exact fun buffer => by simp
  | cons value rest ih =>
    rw [List.flatMap_cons]
    exact (hstep value).then ih

end Writing

/-- The content of a host identity. The lengths are looked at before anything is written. -/
def HostId.write (id : HostId) : Writing Unit := do
  let keyLength := 2 + id.publicKey.length
  if 65535 < keyLength ∨ maxDomainIdentifierLength < id.domainIdentifier.length then
    throw (.invalidParameter .hostId)
  else
    let domain :=
      (id.domainType.toUInt16 &&& 0x0f) <<< 12 ||| UInt16.ofNat id.domainIdentifier.length
    Writing.put (wordBytes (UInt16.ofNat keyLength))
    Writing.put (wordBytes domain)
    Writing.put (wordBytes ecdhAlgorithm)
    Writing.put (wordBytes id.curve.code)
    Writing.put id.publicKey
    Writing.put id.domainIdentifier

namespace Parameter

/-- The content of a parameter that begins at a place, field by field. -/
def writeContent (start : Nat) : Parameter → Writing Unit
  | r1Counter counter => do
    Writing.put [0, 0, 0, 0]
    Writing.put (bigEndian 8 counter.toNat)
  | puzzle p => do
    Writing.put [p.k]
    Writing.put [p.lifetime]
    Writing.put (wordBytes p.cookie)
    Writing.put p.challenge.toList
  | solution s => do
    Writing.put [s.k]
    Writing.put [0]
    Writing.put (wordBytes s.cookie)
    Writing.put s.challenge.toList
    Writing.put s.answer.toList
  | hipCipher offer => offer.suites.forM fun suite => Writing.put (wordBytes suite.code)
  | encrypted e => do
    Writing.put [0, 0, 0, 0]
    Writing.put e.iv.toList
    Writing.put e.data
  | hostId id => Writing.cutOff start id.write
  | dhGroupList list => Writing.put (list.groups.map DhGroup.code)
  | encryptedKey data | hitSuiteList data | hipMac3 data | echoResponseUnsigned data
  | echoRequestUnsigned data => Writing.put data

/-- Code, a length that is filled in below, the content and the padding. -/
def write (parameter : Parameter) : Writing Unit := do
  let start ← Writing.position
  Writing.put (wordBytes parameter.kind.code)
  Writing.put [0, 0]
  parameter.writeContent start
  let content ← Writing.since (start + 4)
  if 65535 < content.length then
    Writing.truncate start
    throw (.invalidParameter parameter.kind)
  else
    Writing.overwrite (start + 2) (wordBytes (UInt16.ofNat content.length))
    Writing.resize (start + paddedLength content.length)

/-- The parameters of a packet that begins at a place, one after the other. -/
def writeAll (start : Nat) (parameters : List Parameter) : Writing Unit :=
  parameters.forM fun parameter => Writing.cutOff start parameter.write

end Parameter

namespace Packet

/-- The header, with a length and a checksum that are filled in later. -/
def writeHeader (packet : Packet) : Writing Unit := do
  Writing.put [nextHeaderNone]
  Writing.put [0]
  Writing.put [packet.kind.code &&& 0x7f]
  Writing.put [protocolVersion <<< 4 ||| 0x01]
  Writing.put [0, 0]
  Writing.put (wordBytes packet.controls)
  Writing.put packet.sender.toBytes
  Writing.put packet.receiver.toBytes

/-- The length and then the checksum of the packet that begins at a place, if it is not too
    large. -/
def fillIn (start : Nat) : Writing Unit := do
  let total := (← Writing.since start).length
  if maxPacketLength < total then
    Writing.truncate start
    throw (.packetTooLarge total)
  else
    Writing.overwrite (start + 1) [UInt8.ofNat ((total - 8) / 8)]
    let checksum := packetChecksum (← Writing.since start)
    Writing.overwrite (start + 4) (wordBytes checksum)

/-- The header, the parameters, and then what is filled in. -/
def write (packet : Packet) : Writing Unit := do
  let start ← Writing.position
  packet.writeHeader
  Parameter.writeAll start packet.parameters
  fillIn start

end Packet

/-- The two parts of the domain field do not overlap. -/
theorem HostId.wordBytes_domain {id : HostId}
    (hidentifier : id.domainIdentifier.length ≤ maxDomainIdentifierLength) :
    wordBytes ((id.domainType.toUInt16 &&& 0x0f) <<< 12 ||| UInt16.ofNat
      id.domainIdentifier.length) = bigEndian 2 id.domainField := by
  unfold maxDomainIdentifierLength at hidentifier
  have hnibble : (id.domainType.toUInt16 &&& 0x0f).toNat = id.domainType.toNat % 16 := by
    rw [UInt16.toNat_and]
    exact Nat.and_two_pow_sub_one_eq_mod id.domainType.toNat 4
  have hshift : ((id.domainType.toUInt16 &&& 0x0f) <<< 12).toNat =
      2 ^ 12 * (id.domainType.toNat % 16) := by
    rw [UInt16.toNat_shiftLeft, hnibble, Nat.shiftLeft_eq]
    change id.domainType.toNat % 16 * 4096 % 65536 = 4096 * (id.domainType.toNat % 16)
    omega
  have hlength : (UInt16.ofNat id.domainIdentifier.length).toNat = id.domainIdentifier.length :=
    UInt16.toNat_ofNat_of_lt' (Nat.lt_of_le_of_lt hidentifier (by decide))
  rw [wordBytes, UInt16.toNat_or, hshift, hlength,
    ← Nat.two_pow_add_eq_or_of_lt (Nat.lt_succ_of_le hidentifier), domainField, Nat.mul_comm]

theorem HostId.puts_write (id : HostId)
    (hfits :
      ¬(65535 < 2 + id.publicKey.length ∨ maxDomainIdentifierLength < id.domainIdentifier.length)) :
    id.write.Puts id.layout := by
  intro buffer
  rw [HostId.write]
  simp only [if_neg hfits, Writing.runOn_bind, Writing.runOn_put]
  rw [wordBytes_ofNat (by omega), HostId.wordBytes_domain (by omega)]
  simp only [layout, List.append_assoc]

namespace Parameter

variable {parameter : Parameter} {content : List UInt8}

theorem puts_writeContent (start : Nat) (hcontent : parameter.content = .ok content) :
    (parameter.writeContent start).Puts content := by
  cases parameter with
  | hostId id =>
    obtain ⟨hfits, hlayout⟩ := ite_error_eq_ok_iff.mp hcontent
    obtain rfl := Except.ok.inj hlayout
    intro buffer
    rw [writeContent, Writing.runOn_cutOff, id.puts_write hfits]
  | hipCipher offer =>
    obtain rfl := Except.ok.inj hcontent
    exact Writing.puts_forM fun suite => Writing.puts_put _
  | r1Counter | puzzle | solution | encrypted =>
    obtain rfl := Except.ok.inj hcontent
    intro buffer
    simp [writeContent, bigEndian]
  | _ =>
    obtain rfl := Except.ok.inj hcontent
    exact Writing.puts_put _

/-- Only the content of a host identity can be refused. -/
theorem runOn_writeContent_of_error {error : Error} (start : Nat)
    (hcontent : parameter.content = .error error) (buffer : List UInt8) :
    (parameter.writeContent start).runOn buffer = some (.error error, buffer.take start) := by
  cases parameter with
  | hostId id =>
    simp only [Parameter.content, HostId.content] at hcontent
    split at hcontent
    · rename_i hlong
      obtain rfl := Except.error.inj hcontent
      rw [writeContent, Writing.runOn_cutOff, HostId.write, if_pos hlong]
      rfl
    · cases hcontent
  | _ => cases hcontent

/-- What was written ends as the wire form, or is cut off again. -/
theorem runOn_write (parameter : Parameter) (buffer : List UInt8) :
    parameter.write.runOn buffer = some (parameter.appendTo buffer) := by
  unfold write
  simp only [Writing.runOn_bind, Writing.runOn_position, Writing.runOn_put]
  cases hcontent : parameter.content with
  | error error =>
    have hencode : parameter.encode = .error error := bind_eq_error_iff.mpr (.inl hcontent)
    rw [runOn_writeContent_of_error _ hcontent, appendTo, hencode, List.append_assoc,
      List.take_left]
  | ok content =>
    have hencode : parameter.encode = if 65535 < content.length then
        .error (.invalidParameter parameter.kind) else .ok
          (encodeTlv parameter.kind.code content) := by
      rw [encode, hcontent]
      rfl
    have hfront : (buffer ++ wordBytes parameter.kind.code ++ [0, 0]).length =
        buffer.length + 4 := by simp
    rw [puts_writeContent _ hcontent, appendTo, hencode]
    simp only [Writing.runOn_since hfront]
    by_cases hlong : 65535 < content.length
    · simp only [if_pos hlong, Writing.runOn_bind, Writing.runOn_truncate, Writing.runOn_throw,
        List.append_assoc, List.take_left]
    · have hcode : (buffer ++ wordBytes parameter.kind.code).length = buffer.length + 2 := by simp
      have hlength := Writing.runOn_overwrite (buffer ++ wordBytes parameter.kind.code) [0, 0]
        (bigEndian 2 content.length) content hcode rfl
      simp only [List.append_assoc] at hlength
      have hpadded := add_le_paddedLength content.length
      simp only [if_neg hlong, Writing.runOn_bind,
        wordBytes_ofNat (Nat.lt_succ_of_le (Nat.not_lt.mp hlong)), List.append_assoc, hlength]
      rw [Writing.runOn_resize_of_le _ (by simp; omega), encodeTlv]
      simp only [List.append_assoc, List.length_append, length_wordBytes, length_bigEndian]
      congr 7
      omega

/-- The parameters end as their wire forms, one after the other. If one of them fails, nothing of
    the packet stays, which began before the first of them. -/
theorem runOn_writeAll (parameters : List Parameter) (front written : List UInt8) :
    (writeAll front.length parameters).runOn (front ++ written) = match encodeAll parameters with
      | .ok body => some (.ok (), front ++ (written ++ body))
      | .error error => some (.error error, front) := by
  induction parameters generalizing written with
  | nil => simp [writeAll, encodeAll]
  | cons parameter rest ih =>
    have hstep : (writeAll front.length (parameter :: rest)).runOn (front ++ written) =
        (Writing.cutOff front.length parameter.write >>= fun _ => writeAll front.length rest).runOn
          (front ++ written) := rfl
    rw [hstep, Writing.runOn_bind, Writing.runOn_cutOff, runOn_write, appendTo, encodeAll]
    cases parameter.encode with
    | error error => simp [bind, Except.bind]
    | ok first =>
      simp only [List.append_assoc, ih]
      cases encodeAll rest with
      | error error => rfl
      | ok others => rfl

end Parameter

namespace Header

variable (header : Header) (buffer rest : List UInt8)

/-- The length can be written over in place. -/
theorem runOn_overwrite_units (units : UInt8) :
    (Writing.overwrite (buffer.length + 1) [units]).runOn (buffer ++ (header.encode ++ rest)) =
      some (.ok (), buffer ++ ({ header with units := units }.encode ++ rest)) := by
  have hfront : (buffer ++ [header.nextHeader]).length = buffer.length + 1 := by simp
  have hover := Writing.runOn_overwrite _ [header.units] [units] (header.kind :: header.version ::
    (wordBytes header.checksum ++ (wordBytes header.controls ++
      (header.sender.toBytes ++ (header.receiver.toBytes ++ rest))))) hfront rfl
  simpa [encode] using hover

/-- So can the checksum. -/
theorem runOn_overwrite_checksum (checksum : UInt16) :
    (Writing.overwrite (buffer.length + 4) (wordBytes checksum)).runOn
      (buffer ++ (header.encode ++ rest)) =
      some (.ok (), buffer ++ ({ header with checksum := checksum }.encode ++ rest)) := by
  have hfront : (buffer ++ [header.nextHeader, header.units, header.kind, header.version]).length =
      buffer.length + 4 := by simp
  have hover := Writing.runOn_overwrite _ (wordBytes header.checksum) (wordBytes checksum)
    (wordBytes header.controls ++ (header.sender.toBytes ++ (header.receiver.toBytes ++ rest)))
      hfront rfl
  simpa [encode] using hover

end Header

namespace Packet

variable (packet : Packet)

/-- The header comes out as that of a packet that ends with its first eight bytes. -/
theorem puts_writeHeader : packet.writeHeader.Puts (packet.header 8).encode := by
  have hversion : protocolVersion <<< 4 ||| 0x01 = protocolVersion * 16 + 1 := by decide
  have hzero : wordBytes 0 = [0, 0] := by decide
  intro buffer
  simp [writeHeader, packet.kind.code_and, hversion, Header.encode, header, hzero]

/-- Length and checksum are put into the header, or nothing stays of a packet that is too large. -/
theorem runOn_fillIn (buffer body : List UInt8) :
    (fillIn buffer.length).runOn (buffer ++ ((packet.header 8).encode ++ body)) =
      if maxPacketLength < headerLength + body.length then
        some (.error (.packetTooLarge (headerLength + body.length)), buffer)
      else
        some (.ok (), buffer ++ (packet.header (headerLength + body.length)).encodeWith body) := by
  have hlength : ((packet.header 8).encode ++ body).length = headerLength + body.length := by simp
  rw [fillIn, Writing.runOn_bind, Writing.runOn_since rfl]
  simp only [hlength]
  by_cases hlarge : maxPacketLength < headerLength + body.length
  · simp only [if_pos hlarge, Writing.runOn_bind, Writing.runOn_truncate, Writing.runOn_throw,
      List.take_left]
  · simp only [if_neg hlarge, Writing.runOn_bind, Header.runOn_overwrite_units, Writing.runOn_since,
      Header.runOn_overwrite_checksum]
    rfl

/-- What was written ends as the wire form, or is cut off again from the first byte of the
    packet. -/
theorem runOn_write (buffer : List UInt8) :
    packet.write.runOn buffer = some (packet.appendTo buffer) := by
  rw [write, Writing.runOn_bind, Writing.runOn_position]
  simp only [Writing.runOn_bind, packet.puts_writeHeader buffer, Parameter.runOn_writeAll]
  cases hbody : Parameter.encodeAll packet.parameters with
  | error error =>
    have hencode : packet.encode = .error error := bind_eq_error_iff.mpr (.inl hbody)
    rw [appendTo, hencode]
  | ok body =>
    have hencode : packet.encode = if maxPacketLength < headerLength + body.length then
        .error (.packetTooLarge (headerLength + body.length)) else
        .ok ((packet.header (headerLength + body.length)).encodeWith body) := by
      rw [encode, hbody]
      rfl
    simp only
    rw [appendTo, hencode, runOn_fillIn]
    split <;> rfl

end Packet

end DietExchange
