import DietExchange.Proofs.Packet.Writing
import Mathlib.Algebra.GroupWithZero.Nat

namespace DietExchange

namespace Parameter

/-- The number of bytes that the content takes, whether or not it can be written. -/
def contentSize : Parameter → Nat
  | r1Counter _ => 12
  | puzzle _ => 20
  | solution _ => 36
  | hipCipher offer => 2 * offer.suites.length
  | encrypted e => 20 + e.data.length
  | hostId id => 8 + id.publicKey.length + id.domainIdentifier.length
  | dhGroupList list => list.groups.length
  | encryptedKey data | hitSuiteList data | hipMac3 data | echoResponseUnsigned data
  | echoRequestUnsigned data => data.length

/-- Whether a length in the parameter does not fit its field: that of the content, or in a host
    identity that of curve and key or that of the domain identifier. -/
inductive IsOverlong : Parameter → Prop where
  | content {parameter : Parameter} (hlong : 65535 < parameter.contentSize) : IsOverlong parameter
  | key {id : HostId} (hlong : 65535 < 2 + id.publicKey.length) : IsOverlong (hostId id)
  | domainIdentifier {id : HostId} (hlong : 4095 < id.domainIdentifier.length) :
      IsOverlong (hostId id)

variable {parameter : Parameter} {parameters : List Parameter} {content bytes : List UInt8}
  {error : Error}

theorem length_of_content (hcontent : parameter.content = .ok content) :
    content.length = parameter.contentSize := by
  cases parameter with
  | hostId id =>
    obtain ⟨-, hlayout⟩ := ite_error_eq_ok_iff.mp hcontent
    obtain rfl := Except.ok.inj hlayout
    simp only [HostId.layout, contentSize, List.length_append, length_bigEndian, length_wordBytes]
  | hipCipher offer =>
    obtain rfl := Except.ok.inj hcontent
    simp [CipherOffer.encode, contentSize, List.length_flatMap, Nat.mul_comm]
  | encrypted e =>
    obtain rfl := Except.ok.inj hcontent
    simp only [contentSize, List.length_append, length_bigEndian, Block.length_toList]
  | _ =>
    obtain rfl := Except.ok.inj hcontent
    simp [contentSize, DhGroupList.encode]

/-- Only a host identity is refused for its content, before the size of the content is looked at. -/
theorem exists_hostId_of_content_eq_error (hcontent : parameter.content = .error error) :
    ∃ id, parameter = hostId id ∧ error = .invalidParameter .hostId ∧
      (65535 < 2 + id.publicKey.length ∨ 4095 < id.domainIdentifier.length) := by
  cases parameter with
  | hostId id =>
    simp only [Parameter.content, HostId.content] at hcontent
    split at hcontent
    · rename_i hlong
      exact ⟨id, rfl, (Except.error.inj hcontent).symm, hlong⟩
    · cases hcontent
  | _ => cases hcontent

theorem isOverlong_of_encode_eq_error (hencode : parameter.encode = .error error) :
    parameter.IsOverlong := by
  rcases bind_eq_error_iff.mp hencode with hcontent | ⟨content, hcontent, hsize⟩
  · obtain ⟨id, rfl, -, hkey | hidentifier⟩ := exists_hostId_of_content_eq_error hcontent
    · exact .key hkey
    · exact .domainIdentifier hidentifier
  · split at hsize
    · rename_i hlong
      rw [length_of_content hcontent] at hlong
      exact .content hlong
    · cases hsize

theorem encode_of_isOverlong (hlong : parameter.IsOverlong) :
    parameter.encode = .error (.invalidParameter parameter.kind) := by
  cases hlong with
  | content hlong =>
    cases hcontent : parameter.content with
    | error error =>
      obtain ⟨id, rfl, rfl, -⟩ := exists_hostId_of_content_eq_error hcontent
      exact bind_eq_error_iff.mpr (.inl hcontent)
    | ok content =>
      rw [← length_of_content hcontent] at hlong
      exact bind_eq_error_iff.mpr (.inr ⟨content, hcontent, if_pos hlong⟩)
  | key hlong => exact bind_eq_error_iff.mpr (.inl (if_pos (.inl hlong)))
  | domainIdentifier hlong => exact bind_eq_error_iff.mpr (.inl (if_pos (.inr hlong)))

/-- A parameter is refused exactly if a length in it does not fit its field. -/
theorem encode_eq_error_iff :
    parameter.encode = .error error ↔ parameter.IsOverlong ∧
    error = .invalidParameter parameter.kind := by
  constructor
  · intro hencode
    have hlong := isOverlong_of_encode_eq_error hencode
    exact ⟨hlong, Except.error.inj (hencode.symm.trans (encode_of_isOverlong hlong))⟩
  · rintro ⟨hlong, rfl⟩
    exact encode_of_isOverlong hlong

theorem exists_encode_iff : (∃ bytes, parameter.encode = .ok bytes) ↔ ¬parameter.IsOverlong := by
  rw [← not_iff_not, ← exists_error_iff, not_not]
  simp only [encode_eq_error_iff, exists_and_left, exists_eq, and_true]

theorem length_of_encode_eq_padded (hencode : parameter.encode = .ok bytes) :
    bytes.length = paddedLength parameter.contentSize := by
  obtain ⟨content, hcontent, hfits⟩ := bind_eq_ok_iff.mp hencode
  obtain ⟨-, hbytes⟩ := ite_error_eq_ok_iff.mp hfits
  obtain rfl := Except.ok.inj hbytes
  rw [length_encodeTlv, length_of_content hcontent]

/-- The bytes of all parameters of a list. -/
def wireSize (parameters : List Parameter) : Nat :=
  (parameters.map fun parameter => paddedLength parameter.contentSize).sum

theorem encodeAll_eq_ok (hencode : encodeAll parameters = .ok bytes) :
    (∀ parameter ∈ parameters, ¬parameter.IsOverlong) ∧ bytes.length = wireSize parameters := by
  induction parameters generalizing bytes with
  | nil =>
    obtain rfl := Except.ok.inj hencode
    exact ⟨List.forall_mem_nil _, rfl⟩
  | cons parameter rest ih =>
    obtain ⟨first, hfirst, hrest⟩ := bind_eq_ok_iff.mp hencode
    obtain ⟨others, hothers, hbytes⟩ := bind_eq_ok_iff.mp hrest
    obtain rfl := pure_eq_ok_iff.mp hbytes
    obtain ⟨hshort, hsize⟩ := ih hothers
    refine ⟨List.forall_mem_cons.mpr ⟨exists_encode_iff.mp ⟨first, hfirst⟩, hshort⟩, ?_⟩
    rw [List.length_append, length_of_encode_eq_padded hfirst, hsize, wireSize, wireSize,
      List.map_cons, List.sum_cons]

/-- The first parameter that is refused decides for a list. -/
theorem encodeAll_eq_error_iff :
    encodeAll parameters = .error error ↔ ∃ front first back, parameters = front ++ first :: back ∧
      (∀ parameter ∈ front, ¬parameter.IsOverlong) ∧ first.IsOverlong ∧
      error = .invalidParameter first.kind := by
  induction parameters with
  | nil => simp [encodeAll]
  | cons parameter rest ih =>
    constructor
    · intro hencode
      rcases bind_eq_error_iff.mp hencode with hfirst | ⟨bytes, hfirst, hrest⟩
      · obtain ⟨hlong, rfl⟩ := encode_eq_error_iff.mp hfirst
        exact ⟨[], parameter, rest, rfl, List.forall_mem_nil _, hlong, rfl⟩
      · rcases bind_eq_error_iff.mp hrest with hothers | ⟨others, -, hpure⟩
        · obtain ⟨front, first, back, rfl, hfront, hlong, rfl⟩ := ih.mp hothers
          exact ⟨parameter :: front, first, back, rfl,
            List.forall_mem_cons.mpr ⟨exists_encode_iff.mp ⟨bytes, hfirst⟩, hfront⟩, hlong, rfl⟩
        · cases hpure
    · rintro ⟨_ | ⟨other, front⟩, first, back, hparameters, hfront, hlong, rfl⟩
      · obtain ⟨rfl, rfl⟩ := List.cons_eq_cons.mp hparameters
        exact bind_eq_error_iff.mpr (.inl (encode_of_isOverlong hlong))
      · obtain ⟨rfl, rfl⟩ := List.cons_eq_cons.mp hparameters
        obtain ⟨hother, hfront⟩ := List.forall_mem_cons.mp hfront
        obtain ⟨bytes, hbytes⟩ := exists_encode_iff.mpr hother
        have hrest := ih.mpr ⟨front, first, back, rfl, hfront, hlong, rfl⟩
        exact bind_eq_error_iff.mpr (.inr ⟨bytes, hbytes, bind_eq_error_iff.mpr (.inl hrest)⟩)

end Parameter

namespace Packet

/-- The number of bytes that the packet takes, whether or not it can be written. -/
def size (packet : Packet) : Nat := headerLength + Parameter.wireSize packet.parameters

/-- Why a packet cannot be written: its first overlong parameter, or, if it has none, its size. -/
inductive IsUnwritable (packet : Packet) : Error → Prop where
  | parameter {front back : List Parameter} {first : Parameter}
      (hparameters : packet.parameters = front ++ first :: back)
      (hfront : ∀ parameter ∈ front, ¬parameter.IsOverlong) (hfirst : first.IsOverlong) :
      IsUnwritable packet (.invalidParameter first.kind)
  | size (hall : ∀ parameter ∈ packet.parameters, ¬parameter.IsOverlong)
      (hsize : 2048 < packet.size) : IsUnwritable packet (.packetTooLarge packet.size)

theorem encode_eq_error_iff {packet : Packet} {error : Error} :
    packet.encode = .error error ↔ packet.IsUnwritable error := by
  constructor
  · intro hencode
    rcases bind_eq_error_iff.mp hencode with hall | ⟨body, hbody, hfits⟩
    · obtain ⟨front, first, back, hparameters, hfront, hfirst, rfl⟩ :=
        Parameter.encodeAll_eq_error_iff.mp hall
      exact .parameter hparameters hfront hfirst
    · obtain ⟨hshort, hbodySize⟩ := Parameter.encodeAll_eq_ok hbody
      have hsize : headerLength + body.length = packet.size := by rw [hbodySize, size]
      simp only [hsize] at hfits
      split at hfits
      · rename_i hlarge
        obtain rfl := Except.error.inj hfits
        exact .size hshort hlarge
      · cases hfits
  · intro hunwritable
    cases hunwritable with
    | @parameter front back first hparameters hfront hfirst =>
      have hall := Parameter.encodeAll_eq_error_iff.mpr
        ⟨front, first, back, hparameters, hfront, hfirst, rfl⟩
      exact bind_eq_error_iff.mpr (.inl hall)
    | size hall hsize =>
      cases hbody : Parameter.encodeAll packet.parameters with
      | error error =>
        obtain ⟨front, first, back, hparameters, -, hfirst, -⟩ :=
          Parameter.encodeAll_eq_error_iff.mp hbody
        exact absurd hfirst (hall first (hparameters ▸ List.mem_append_right _ List.mem_cons_self))
      | ok body =>
        obtain ⟨-, hbodySize⟩ := Parameter.encodeAll_eq_ok hbody
        have hlength : headerLength + body.length = packet.size := by rw [hbodySize, size]
        refine bind_eq_error_iff.mpr (.inr ⟨body, hbody, ?_⟩)
        simp only [hlength]
        exact if_pos hsize

end Packet

namespace Writing

/-- Whether steps either put some bytes behind whatever the buffer holds, or fail and leave it as it
    was. -/
inductive AllOrNothing (steps : Writing Unit) : Prop where
  | all (bytes : List UInt8) (hall : ∀ buffer, steps.runOn buffer = some (.ok (), buffer ++ bytes))
  | nothing (error : Error) (hnothing : ∀ buffer, steps.runOn buffer = some (.error error, buffer))

/-- Steps that end as a finished form does. -/
theorem AllOrNothing.of_result {steps : Writing Unit} {result : Except Error (List UInt8)}
    (hsteps : ∀ buffer, steps.runOn buffer = some (match result with
      | .ok bytes => (.ok (), buffer ++ bytes)
      | .error error => (.error error, buffer))) : steps.AllOrNothing := by
  cases result with
  | ok bytes => exact .all bytes hsteps
  | error error => exact .nothing error hsteps

/-- Whatever a buffer holds, writing a parameter or a packet in place either puts the bytes behind
    it that it would put into an empty buffer, or fails and leaves the buffer as it was; that is
    what putting the finished form there comes to. It fails for a parameter exactly if a length does
    not fit its field, and for a packet with the error of its first such parameter, or, if there is
    none, for its size. -/
theorem all_or_nothing :
    (∀ parameter : Parameter, parameter.write.AllOrNothing ∧
      (∀ buffer, parameter.write.runOn buffer = some (parameter.appendTo buffer)) ∧
      ∀ buffer error, parameter.write.runOn buffer = some (.error error, buffer) ↔
        parameter.IsOverlong ∧ error = .invalidParameter parameter.kind) ∧
    ∀ packet : Packet, packet.write.AllOrNothing ∧
      (∀ buffer, packet.write.runOn buffer = some (packet.appendTo buffer)) ∧
      ∀ buffer error, packet.write.runOn buffer = some (.error error, buffer) ↔
        packet.IsUnwritable error := by
  constructor
  · intro parameter
    refine ⟨.of_result parameter.runOn_write, parameter.runOn_write, fun buffer error => ?_⟩
    rw [← Parameter.encode_eq_error_iff, parameter.runOn_write, Parameter.appendTo]
    cases parameter.encode <;> simp
  · intro packet
    refine ⟨.of_result packet.runOn_write, packet.runOn_write, fun buffer error => ?_⟩
    rw [← Packet.encode_eq_error_iff, packet.runOn_write, Packet.appendTo]
    cases packet.encode <;> simp

end Writing

end DietExchange
