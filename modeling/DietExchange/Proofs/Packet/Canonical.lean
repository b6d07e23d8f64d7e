import DietExchange.Packet.Grammar
import DietExchange.Packet.Mac

/-!
Packets as their receiver sees them. A suite or a group written by its code may come back under a
more precise name; nothing else changes on the way.
-/

namespace DietExchange

namespace CipherOffer

/-- The offer with each suite named as precisely as its code allows. -/
def canonical (offer : CipherOffer) : CipherOffer :=
  ⟨offer.suites.map fun suite => CipherSuite.ofCode suite.code, by
    rw [List.length_map]
    exact offer.length_le⟩

theorem encode_canonical (offer : CipherOffer) : offer.canonical.encode = offer.encode := by
  simp only [encode, canonical, List.flatMap_map, CipherSuite.code_ofCode]

end CipherOffer

namespace DhGroupList

/-- The list with each group named as precisely as its code allows. -/
def canonical (list : DhGroupList) : DhGroupList :=
  ⟨list.groups.map fun group => DhGroup.ofCode group.code, by
    rw [List.length_map]
    exact list.length_le⟩

theorem encode_canonical (list : DhGroupList) : list.canonical.encode = list.encode := by
  simp only [encode, canonical, List.map_map]
  exact List.map_congr_left fun group _ => DhGroup.code_ofCode group.code

end DhGroupList

namespace Parameter

def canonical : Parameter → Parameter
  | hipCipher offer => hipCipher offer.canonical
  | dhGroupList list => dhGroupList list.canonical
  | parameter => parameter

@[simp]
theorem kind_canonical (parameter : Parameter) : parameter.canonical.kind = parameter.kind := by
  cases parameter <;> rfl

theorem encode_canonical (parameter : Parameter) : parameter.canonical.encode =
    parameter.encode := by
  cases parameter with
  | hipCipher offer => simp only [canonical, encode, content, offer.encode_canonical, kind]
  | dhGroupList list => simp only [canonical, encode, content, list.encode_canonical, kind]
  | _ => rfl

theorem encodeAll_canonical (parameters : List Parameter) :
    encodeAll (parameters.map canonical) = encodeAll parameters := by
  induction parameters with
  | nil => rfl
  | cons parameter rest ih => rw [List.map_cons, encodeAll, encode_canonical, ih, encodeAll]

/-- Only a host identity can be of a form that is not read back. -/
theorem isWellFormed_canonical {parameter : Parameter}
    (hid : ∀ id, parameter = .hostId id → parameter.IsWellFormed) :
      parameter.canonical.IsWellFormed := by
  cases parameter with
  | hostId id => exact hid id rfl
  | hipCipher offer =>
    intro suite hsuite
    obtain ⟨old, -, rfl⟩ := List.mem_map.mp hsuite
    exact congrArg CipherSuite.ofCode (CipherSuite.code_ofCode _)
  | dhGroupList list =>
    intro group hgroup
    obtain ⟨old, -, rfl⟩ := List.mem_map.mp hgroup
    exact congrArg DhGroup.ofCode (DhGroup.code_ofCode _)
  | _ => trivial

end Parameter

namespace Packet

def canonical (packet : Packet) : Packet :=
  { packet with parameters := packet.parameters.map Parameter.canonical }

@[simp]
theorem kind_canonical (packet : Packet) : packet.canonical.kind = packet.kind := rfl

@[simp]
theorem sender_canonical (packet : Packet) : packet.canonical.sender = packet.sender := rfl

@[simp]
theorem receiver_canonical (packet : Packet) : packet.canonical.receiver = packet.receiver := rfl

theorem encode_canonical (packet : Packet) : packet.canonical.encode = packet.encode := by
  unfold encode
  rw [show packet.canonical.parameters = packet.parameters.map Parameter.canonical from rfl,
    Parameter.encodeAll_canonical]
  rfl

/-- What is written for a packet is read as its canonical form. -/
theorem parse_of_encode {packet : Packet} {bytes : List UInt8} (hencode : packet.encode = .ok bytes)
    (hids : ∀ id, .hostId id ∈ packet.parameters → (Parameter.hostId id).IsWellFormed) :
    parse bytes = .ok packet.canonical := by
  rw [← encode_canonical] at hencode
  have hform : packet.canonical.IsWellFormed := by
    intro parameter hmem
    obtain ⟨old, hold, rfl⟩ := List.mem_map.mp hmem
    refine Parameter.isWellFormed_canonical fun id heq => ?_
    subst heq
    exact hids id hold
  simpa using parse_append_of_encode [] hencode hform

section Parameters

variable (packet : Packet)

theorem parameter?_canonical (kind : ParameterKind) :
    packet.canonical.parameter? kind = (packet.parameter? kind).map Parameter.canonical := by
  simp only [parameter?, canonical, List.find?_map, Function.comp_def, Parameter.kind_canonical]

theorem puzzle?_canonical : packet.canonical.puzzle? = packet.puzzle? := by
  unfold puzzle?
  rw [parameter?_canonical]
  rcases packet.parameter? .puzzle with _ | (_ | _) <;> rfl

theorem solution?_canonical : packet.canonical.solution? = packet.solution? := by
  unfold solution?
  rw [parameter?_canonical]
  rcases packet.parameter? .solution with _ | (_ | _) <;> rfl

theorem hostId?_canonical : packet.canonical.hostId? = packet.hostId? := by
  unfold hostId?
  rw [parameter?_canonical]
  rcases packet.parameter? .hostId with _ | (_ | _) <;> rfl

theorem hipMac?_canonical : packet.canonical.hipMac? = packet.hipMac? := by
  unfold hipMac?
  rw [parameter?_canonical]
  rcases packet.parameter? .hipMac3 with _ | (_ | _) <;> rfl

theorem echoRequest?_canonical : packet.canonical.echoRequest? = packet.echoRequest? := by
  unfold echoRequest?
  rw [parameter?_canonical]
  rcases packet.parameter? .echoRequestUnsigned with _ | (_ | _) <;> rfl

theorem hipCipher?_canonical :
    packet.canonical.hipCipher? = packet.hipCipher?.map CipherOffer.canonical := by
  unfold hipCipher?
  rw [parameter?_canonical]
  rcases packet.parameter? .hipCipher with _ | (_ | _) <;> rfl

theorem dhGroupList?_canonical :
    packet.canonical.dhGroupList? = packet.dhGroupList?.map DhGroupList.canonical := by
  unfold dhGroupList?
  rw [parameter?_canonical]
  rcases packet.parameter? .dhGroupList with _ | (_ | _) <;> rfl

theorem checkMandatory_canonical :
    packet.canonical.checkMandatory = .ok () ↔ packet.checkMandatory = .ok () := by
  simp only [checkMandatory_eq_ok_iff, kind_canonical, parameter?_canonical, Option.isSome_map]

theorem computeMac_canonical (key : List UInt8) :
    packet.canonical.computeMac key = packet.computeMac key := by
  have hcovered : packet.canonical.covered = packet.covered.map Parameter.canonical := by
    simp only [covered, canonical, List.filter_map, Function.comp_def, Parameter.kind_canonical]
  unfold computeMac macInput
  rw [hcovered, Parameter.encodeAll_canonical]
  rfl

theorem verifyMac_canonical (key : List UInt8) :
    packet.canonical.verifyMac key = packet.verifyMac key := by
  unfold verifyMac
  rw [hipMac?_canonical, computeMac_canonical]
  rfl

end Parameters

end Packet

end DietExchange
