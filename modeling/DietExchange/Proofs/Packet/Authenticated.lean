import DietExchange.Packet.Grammar
import DietExchange.Packet.Mac
import DietExchange.Proofs.Cmac.Streaming
import DietExchange.Proofs.Packet.RoundTrip

namespace DietExchange

/-- A message may be fed in any pieces. -/
theorem CmacStream.Holds.foldl_update {stream : CmacStream} {message : List UInt8}
    (hholds : stream.Holds message) (pieces : List (List UInt8)) :
    (pieces.foldl CmacStream.update stream).Holds (message ++ pieces.flatten) := by
  induction pieces generalizing stream message with
  | nil => simpa using hholds
  | cons piece pieces ih =>
    have hnext := ih (hholds.update piece)
    rwa [List.append_assoc, ← List.flatten_cons] at hnext

theorem CmacStream.key_foldl_update (stream : CmacStream) (pieces : List (List UInt8)) :
    (pieces.foldl CmacStream.update stream).key = stream.key := by
  induction pieces generalizing stream with
  | nil => rfl
  | cons piece pieces ih => rw [List.foldl_cons, ih, CmacStream.key_update]

namespace Parameter

/-- Parameters of which each can be written can be written one after the other. -/
theorem exists_encodeAll_of_forall {parameters : List Parameter}
    (hencodable : ∀ parameter ∈ parameters, ∃ bytes, parameter.encode = .ok bytes) :
    ∃ bytes, encodeAll parameters = .ok bytes := by
  induction parameters with
  | nil => exact ⟨[], rfl⟩
  | cons parameter rest ih =>
    obtain ⟨first, hfirst⟩ := hencodable parameter List.mem_cons_self
    obtain ⟨others, hothers⟩ := ih fun other hmem => hencodable other (List.mem_cons_of_mem _ hmem)
    have hrest : encodeAll (parameter :: rest) = .ok (first ++ others) :=
      bind_eq_ok_iff.mpr ⟨first, hfirst, bind_eq_ok_iff.mpr ⟨others, hothers, rfl⟩⟩
    exact ⟨first ++ others, hrest⟩

/-- Parameters that can be read back are told by what is written for them: it is read as one
    list. -/
theorem eq_of_encodeAll_eq {parameters others : List Parameter} {bytes : List UInt8}
    (hparameters : encodeAll parameters = .ok bytes) (hothers : encodeAll others = .ok bytes)
    (hwellFormed : ∀ parameter ∈ parameters, parameter.IsWellFormed)
    (hwellFormedOthers : ∀ parameter ∈ others, parameter.IsWellFormed) : parameters = others := by
  have hread := parseAll_eq_ok_iff.mpr (areTlvs_of_encodeAll hparameters hwellFormed)
  have hreadOthers := parseAll_eq_ok_iff.mpr (areTlvs_of_encodeAll hothers hwellFormedOthers)
  exact Except.ok.inj (hread.symm.trans hreadOthers)

end Parameter

namespace Packet

/-- What is fed to the CMAC of a packet, in this order. -/
def fed (packet : Packet) : Except Error (List (List UInt8)) := do
  let body ← Parameter.encodeAll packet.covered
  let length := (headerLength + body.length - 8) / 8
  return [[nextHeaderNone], [UInt8.ofNat length], [packet.kind.code], wordBytes 0,
    wordBytes packet.controls, packet.sender.toBytes, packet.receiver.toBytes, body]

/-- The pieces are the bytes that are authenticated. -/
theorem flatten_fed (packet : Packet) : List.flatten <$> packet.fed = packet.macInput := by
  unfold fed macInput
  cases Parameter.encodeAll packet.covered with
  | error error => rfl
  | ok body =>
    have hzero : wordBytes 0 = [0, 0] := by decide
    simp [bind, Except.bind, pure, Except.pure, Functor.map, Except.map, hzero]

/-- The tag is what a stream answers that was given the pieces one after the other. -/
theorem computeMac_eq_fed (packet : Packet) (key : List UInt8) :
    packet.computeMac key = do
      let pieces ← packet.fed
      let stream ← CmacStream.ofBytes key
      return (pieces.foldl CmacStream.update stream).finalize.1 := by
  have hfinalize : ∀ (cmac : CmacKey) (pieces : List (List UInt8)),
      (pieces.foldl CmacStream.update (CmacStream.start cmac)).finalize.1 =
        cmac.tag pieces.flatten := by
    intro cmac pieces
    have hholds := (CmacStream.holds_start cmac).foldl_update pieces
    rw [hholds.finalize, CmacStream.key_foldl_update]
    rfl
  unfold computeMac CmacStream.ofBytes
  rw [← flatten_fed]
  cases packet.fed with
  | error error => rfl
  | ok pieces =>
    cases CmacKey.ofBytes key with
    | error error => rfl
    | ok cmac => exact congrArg Except.ok (hfinalize cmac pieces).symm

variable {packet other : Packet}

theorem macInput_eq_ok_iff {bytes : List UInt8} :
    packet.macInput = .ok bytes ↔ ∃ body, Parameter.encodeAll packet.covered = .ok body ∧
      [nextHeaderNone, UInt8.ofNat ((headerLength + body.length - 8) / 8),
        packet.kind.code] ++ [0, 0] ++
        wordBytes packet.controls ++ packet.sender.toBytes ++ packet.receiver.toBytes ++ body =
          bytes := by
  unfold macInput
  rw [bind_eq_ok_iff]
  exact exists_congr fun body => and_congr_right fun _ => pure_eq_ok_iff

/-- Packets for which the same bytes are authenticated have the same fields in the header and the
    same body under the tag. The fields have fixed sizes, so the bytes can be cut at the same
    places. -/
theorem fields_of_macInput_eq {bytes : List UInt8} (hpacket : packet.macInput = .ok bytes)
    (hother : other.macInput = .ok bytes) :
    packet.kind = other.kind ∧ packet.controls = other.controls ∧ packet.sender = other.sender ∧
      packet.receiver = other.receiver ∧ ∃ body, Parameter.encodeAll packet.covered = .ok body ∧
        Parameter.encodeAll other.covered = .ok body := by
  obtain ⟨body, hbody, rfl⟩ := macInput_eq_ok_iff.mp hpacket
  obtain ⟨otherBody, hotherBody, heq⟩ := macInput_eq_ok_iff.mp hother
  obtain ⟨heq, rfl⟩ := List.append_inj heq (by simp [Hit.toBytes])
  obtain ⟨heq, hreceiver⟩ := List.append_inj heq (by simp [Hit.toBytes])
  obtain ⟨heq, hsender⟩ := List.append_inj heq (by simp)
  obtain ⟨heq, hcontrols⟩ := List.append_inj heq (by simp)
  have hcode : other.kind.code = packet.kind.code := by simpa using heq
  have hkind : other.kind = packet.kind := by
    rw [← Option.some.injEq, ← PacketKind.ofCode?_code, ← PacketKind.ofCode?_code, hcode]
  exact ⟨hkind.symm, eq_of_wordBytes_eq hcontrols.symm, Hit.eq_of_toBytes_eq hsender.symm,
    Hit.eq_of_toBytes_eq hreceiver.symm, otherBody, hbody, hotherBody⟩

/-- Whether everything under the tag of a packet can be written, and read back. -/
structure IsSignable (packet : Packet) : Prop where
  encodable : ∀ parameter ∈ packet.covered, ∃ bytes, parameter.encode = .ok bytes
  wellFormed : ∀ parameter ∈ packet.covered, parameter.IsWellFormed

theorem IsSignable.of_isSome (hall : ∀ parameter ∈ packet.covered,
    parameter.encode.toOption.isSome ∧ parameter.IsWellFormed) : packet.IsSignable where
  encodable parameter hmem := by
    obtain ⟨bytes, hbytes⟩ := Option.isSome_iff_exists.mp (hall parameter hmem).1
    exact ⟨bytes, eq_ok_of_toOption hbytes⟩
  wellFormed parameter hmem := (hall parameter hmem).2

theorem IsSignable.exists_macInput (hpacket : packet.IsSignable) :
    ∃ bytes, packet.macInput = .ok bytes := by
  obtain ⟨body, hbody⟩ := Parameter.exists_encodeAll_of_forall hpacket.encodable
  exact ⟨_, macInput_eq_ok_iff.mpr ⟨body, hbody, rfl⟩⟩

/-- For packets whose covered parameters can be written and read back there are bytes to
    authenticate, and they are the same bytes exactly if the packets have the same kind, control
    bits, sender and receiver and the same covered parameters in the same order. -/
theorem authenticates_one_message (hpacket : packet.IsSignable) (hother : other.IsSignable) :
    ∃ bytes otherBytes, packet.macInput = .ok bytes ∧ other.macInput = .ok otherBytes ∧
      (bytes = otherBytes ↔ packet.kind = other.kind ∧ packet.controls = other.controls ∧
        packet.sender = other.sender ∧ packet.receiver = other.receiver ∧
        packet.covered = other.covered) := by
  obtain ⟨bytes, hbytes⟩ := hpacket.exists_macInput
  obtain ⟨otherBytes, hotherBytes⟩ := hother.exists_macInput
  refine ⟨bytes, otherBytes, hbytes, hotherBytes, ?_, ?_⟩
  · rintro rfl
    obtain ⟨hkind, hcontrols, hsender, hreceiver, body, hbody, hotherBody⟩ :=
      fields_of_macInput_eq hbytes hotherBytes
    exact ⟨hkind, hcontrols, hsender, hreceiver,
      Parameter.eq_of_encodeAll_eq hbody hotherBody hpacket.wellFormed hother.wellFormed⟩
  · rintro ⟨hkind, hcontrols, hsender, hreceiver, hcovered⟩
    have hsame : packet.macInput = other.macInput := by
      unfold macInput
      rw [hkind, hcontrols, hsender, hreceiver, hcovered]
    exact Except.ok.inj (hbytes.symm.trans (hsame.trans hotherBytes))

/-- The sample without its last parameter, which the tag does not cover, has the same bytes under
    the tag; with the other parameters in another order it has not. -/
theorem authenticates_sampleR1 : ∃ same turned : Packet, sampleR1.IsSignable ∧ same.IsSignable ∧
    turned.IsSignable ∧ sampleR1 ≠ same ∧ sampleR1.macInput = same.macInput ∧
      sampleR1.macInput ≠ turned.macInput := by
  have hsample : sampleR1.IsSignable := .of_isSome (by decide +kernel)
  have hsame : (sampleR1.drop .echoRequestUnsigned).IsSignable := .of_isSome (by decide +kernel)
  have hturned : IsSignable { sampleR1 with parameters := sampleR1.parameters.reverse } :=
    .of_isSome (by decide +kernel)
  refine ⟨_, _, hsample, hsame, hturned, by decide, ?_, ?_⟩
  · obtain ⟨bytes, otherBytes, hbytes, hother, hiff⟩ := authenticates_one_message hsample hsame
    rw [hbytes, hother, hiff.mpr (by decide)]
  · obtain ⟨bytes, otherBytes, hbytes, hother, hiff⟩ := authenticates_one_message hsample hturned
    rw [hbytes, hother]
    intro heq
    have hcovered := (hiff.mp (Except.ok.inj heq)).2.2.2.2
    exact absurd hcovered (by decide)

end Packet

end DietExchange
