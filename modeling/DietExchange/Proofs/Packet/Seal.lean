import DietExchange.Packet.Mac
import Mathlib.Algebra.GroupWithZero.Nat
import Mathlib.Data.List.Forall2

namespace DietExchange

namespace Parameter

/-- Whether the parameter has content of at most so many bytes. -/
def FitsIn (parameter : Parameter) (length : Nat) : Prop :=
  ∃ content, parameter.content = .ok content ∧ content.length ≤ length

theorem paddedLength_mono {short long : Nat} (hle : short ≤ long) :
    paddedLength short ≤ paddedLength long := by
  unfold paddedLength
  omega

theorem FitsIn.exists_encode {parameter : Parameter} {length : Nat}
    (hfits : parameter.FitsIn length) (hlength : length ≤ 65535) :
    ∃ bytes, parameter.encode = .ok bytes ∧ bytes.length ≤ paddedLength length := by
  obtain ⟨content, hcontent, hle⟩ := hfits
  refine ⟨encodeTlv parameter.kind.code content, ?_, ?_⟩
  · exact bind_eq_ok_iff.mpr ⟨content, hcontent, ite_error_eq_ok_iff.mpr ⟨by omega, rfl⟩⟩
  · rw [length_encodeTlv]
    exact paddedLength_mono hle

/-- Parameters of bounded sizes can be written one after the other, in the sum of their sizes. -/
theorem exists_encodeAll {parameters : List Parameter} {lengths : List Nat}
    (hfits : List.Forall₂ FitsIn parameters lengths)
    (hlengths : ∀ length ∈ lengths, length ≤ 65535) :
    ∃ bytes, encodeAll parameters = .ok bytes ∧ bytes.length ≤ (lengths.map paddedLength).sum := by
  induction hfits with
  | nil => exact ⟨[], rfl, Nat.le_refl _⟩
  | @cons parameter length parameters lengths hfirst hrest ih =>
    obtain ⟨first, hencode, hle⟩ := hfirst.exists_encode (hlengths length List.mem_cons_self)
    obtain ⟨others, hothers, hsum⟩ :=
      ih fun other hmem => hlengths other (List.mem_cons_of_mem _ hmem)
    refine ⟨first ++ others, ?_, ?_⟩
    · exact bind_eq_ok_iff.mpr ⟨first, hencode, bind_eq_ok_iff.mpr ⟨others, hothers, rfl⟩⟩
    · rw [List.length_append, List.map_cons, List.sum_cons]
      omega

end Parameter

namespace Packet

theorem exists_encode_eq_ok (packet : Packet) {lengths : List Nat}
    (hfits : List.Forall₂ Parameter.FitsIn packet.parameters lengths)
    (hlengths : ∀ length ∈ lengths, length ≤ 65535)
    (hsum : headerLength + (lengths.map paddedLength).sum ≤ maxPacketLength) :
    ∃ bytes, packet.encode = .ok bytes := by
  obtain ⟨body, hbody, hle⟩ := Parameter.exists_encodeAll hfits hlengths
  refine ⟨_, bind_eq_ok_iff.mpr ⟨body, hbody, ite_error_eq_ok_iff.mpr ⟨?_, rfl⟩⟩⟩
  omega

theorem exists_computeMac_eq_ok {packet : Packet} {key : List UInt8} {lengths : List Nat}
    (hfits : List.Forall₂ Parameter.FitsIn packet.covered lengths)
    (hlengths : ∀ length ∈ lengths, length ≤ 65535)
    (hkey : key.length = 16 ∨ key.length = 24 ∨ key.length = 32) :
    ∃ tag, packet.computeMac key = .ok tag := by
  obtain ⟨body, hbody, -⟩ := Parameter.exists_encodeAll hfits hlengths
  obtain ⟨cmac, hcmac⟩ := CmacKey.ofBytes_ok_iff.mpr hkey
  have hinput : ∃ input, packet.macInput = .ok input := ⟨_, bind_eq_ok_iff.mpr ⟨body, hbody, rfl⟩⟩
  obtain ⟨input, hinput⟩ := hinput
  exact ⟨cmac.tag input,
    bind_eq_ok_iff.mpr ⟨input, hinput, bind_eq_ok_iff.mpr ⟨cmac, hcmac, rfl⟩⟩⟩

section FirstTag

variable {packet : Packet} {front back : List Parameter} {content : List UInt8}

/-- The first tag of a packet, told by its place. -/
structure HasFirstTag (packet : Packet) (front : List Parameter) (content : List UInt8)
    (back : List Parameter) : Prop where
  parameters : packet.parameters = front ++ .hipMac3 content :: back
  none_before : ∀ parameter ∈ front, parameter.kind ≠ .hipMac3

theorem HasFirstTag.hipMac?_eq (hfirst : packet.HasFirstTag front content back) :
    packet.hipMac? = some content := by
  have hnone : front.find? (fun parameter => parameter.kind = .hipMac3) = none :=
    List.find?_eq_none.mpr fun parameter hmem hkind =>
      hfirst.none_before parameter hmem (of_decide_eq_true hkind)
  rw [hipMac?, parameter?, hfirst.parameters, List.find?_append, hnone]
  rfl

theorem exists_hasFirstTag (hmac : packet.hipMac? = some content) :
    ∃ front back, packet.HasFirstTag front content back := by
  unfold hipMac? at hmac
  split at hmac
  case h_1 tag hfind =>
    obtain rfl := Option.some.inj hmac
    obtain ⟨-, front, back, hparameters, hfront⟩ := List.find?_eq_some_iff_append.mp hfind
    refine ⟨front, back, hparameters, fun parameter hmem hkind => ?_⟩
    simpa [hkind] using hfront parameter hmem
  case h_2 => cases hmac

end FirstTag

/-- The packet as it is sealed: the tag in the first place for one, and nothing else changed. -/
theorem recalculateMac_spec {packet sealed : Packet} {key : List UInt8}
    (hseal : packet.recalculateMac key = .ok sealed) :
    ∃ front old back tag, packet.computeMac key = .ok tag ∧
      packet.parameters = front ++ .hipMac3 old :: back ∧
      sealed = { packet with parameters := front ++ .hipMac3 tag.toList :: back } ∧
      ∀ parameter ∈ front, parameter.kind ≠ .hipMac3 := by
  obtain ⟨tag, htag, hrest⟩ := bind_eq_ok_iff.mp hseal
  split at hrest
  · rename_i parameters hreplace
    obtain rfl := pure_eq_ok_iff.mp hrest
    obtain ⟨front, old, back, hbefore, rfl, hfront⟩ := replaceTag_eq_some hreplace
    exact ⟨front, old, back, tag, htag, hbefore, rfl, hfront⟩
  · exact absurd hrest throw_ne_ok

theorem not_isCovered_hipMac3 : ¬ParameterKind.hipMac3.IsCovered := by decide

theorem covered_of_recalculateMac {packet sealed : Packet} {key : List UInt8}
    (hseal : packet.recalculateMac key = .ok sealed) : sealed.covered = packet.covered := by
  obtain ⟨front, old, back, tag, -, hparameters, rfl, -⟩ := recalculateMac_spec hseal
  simp [covered, hparameters, Parameter.kind, not_isCovered_hipMac3]

theorem computeMac_of_recalculateMac {packet sealed : Packet} {key : List UInt8}
    (hseal : packet.recalculateMac key = .ok sealed) (other : List UInt8) :
    sealed.computeMac other = packet.computeMac other := by
  have hcovered := covered_of_recalculateMac hseal
  obtain ⟨front, old, back, tag, -, -, rfl, -⟩ := recalculateMac_spec hseal
  unfold computeMac macInput
  rw [hcovered]

theorem parameter?_of_recalculateMac {packet sealed : Packet} {key : List UInt8}
    (hseal : packet.recalculateMac key = .ok sealed) {kind : ParameterKind}
    (hkind : kind ≠ .hipMac3) : sealed.parameter? kind = packet.parameter? kind := by
  obtain ⟨front, old, back, tag, -, hparameters, rfl, -⟩ := recalculateMac_spec hseal
  simp only [parameter?, hparameters, List.find?_append, List.find?_cons, Parameter.kind,
    hkind.symm, decide_false]

theorem hipMac?_of_recalculateMac {packet sealed : Packet} {key : List UInt8}
    (hseal : packet.recalculateMac key = .ok sealed) :
    ∃ tag, packet.computeMac key = .ok tag ∧ sealed.hipMac? = some tag.toList := by
  obtain ⟨front, old, back, tag, htag, -, rfl, hfront⟩ := recalculateMac_spec hseal
  exact ⟨tag, htag, HasFirstTag.hipMac?_eq ⟨rfl, hfront⟩⟩

theorem isSome_parameter?_of_recalculateMac {packet sealed : Packet} {key : List UInt8}
    (hseal : packet.recalculateMac key = .ok sealed) : (sealed.parameter? .hipMac3).isSome := by
  obtain ⟨tag, -, hmac⟩ := hipMac?_of_recalculateMac hseal
  unfold hipMac? at hmac
  cases hparameter : sealed.parameter? .hipMac3 with
  | none => simp [hparameter] at hmac
  | some => rfl

/-- The tag that was stored verifies under the key that it was computed with. -/
theorem verifyMac_of_recalculateMac {packet sealed : Packet} {key : List UInt8}
    (hseal : packet.recalculateMac key = .ok sealed) : sealed.verifyMac key = .ok () := by
  obtain ⟨tag, htag, hmac⟩ := hipMac?_of_recalculateMac hseal
  have hcompute := computeMac_of_recalculateMac hseal key
  unfold verifyMac
  rw [hmac]
  dsimp only
  rw [if_neg (by simp [blockLength])]
  exact bind_eq_ok_iff.mpr ⟨tag, hcompute.trans htag, if_pos rfl⟩

/-- Whether two packets have the same header, the same first tag, and the same parameters under it
    in the same order. Anything else that they hold is not authenticated. -/
structure SameSigned (packet other : Packet) : Prop where
  kind : packet.kind = other.kind
  controls : packet.controls = other.controls
  sender : packet.sender = other.sender
  receiver : packet.receiver = other.receiver
  tag : packet.hipMac? = other.hipMac?
  covered : packet.covered = other.covered

namespace SameSigned

variable {packet other third : Packet}

theorem refl (packet : Packet) : packet.SameSigned packet := ⟨rfl, rfl, rfl, rfl, rfl, rfl⟩

theorem symm (hsame : packet.SameSigned other) : other.SameSigned packet where
  kind := hsame.kind.symm
  controls := hsame.controls.symm
  sender := hsame.sender.symm
  receiver := hsame.receiver.symm
  tag := hsame.tag.symm
  covered := hsame.covered.symm

theorem trans (hsame : packet.SameSigned other) (hnext : other.SameSigned third) :
    packet.SameSigned third where
  kind := hsame.kind.trans hnext.kind
  controls := hsame.controls.trans hnext.controls
  sender := hsame.sender.trans hnext.sender
  receiver := hsame.receiver.trans hnext.receiver
  tag := hsame.tag.trans hnext.tag
  covered := hsame.covered.trans hnext.covered

theorem macInput_eq (hsame : packet.SameSigned other) : packet.macInput = other.macInput := by
  unfold macInput
  rw [hsame.kind, hsame.controls, hsame.sender, hsame.receiver, hsame.covered]

theorem computeMac_eq (hsame : packet.SameSigned other) (key : List UInt8) :
    packet.computeMac key = other.computeMac key := by
  unfold computeMac
  rw [hsame.macInput_eq]

theorem verifyMac_eq (hsame : packet.SameSigned other) (key : List UInt8) :
    packet.verifyMac key = other.verifyMac key := by
  unfold verifyMac
  rw [hsame.tag, hsame.kind, hsame.computeMac_eq]

/-- One more parameter that the tag does not cover; if it is a tag, it stands behind another. -/
theorem insert {front back : List Parameter} {parameter : Parameter}
    (hparameters : packet.parameters = front ++ back) (hbehind : ¬parameter.kind.IsCovered)
    (htag : parameter.kind = .hipMac3 → ∃ first ∈ front, first.kind = .hipMac3) :
    packet.SameSigned { packet with parameters := front ++ parameter :: back } where
  kind := rfl
  controls := rfl
  sender := rfl
  receiver := rfl
  tag := by
    have hfind : ∀ rest, front.find? (fun first => first.kind = .hipMac3) = none →
        (parameter :: rest).find? (fun first => first.kind = .hipMac3) =
          rest.find? (fun first => first.kind = .hipMac3) := by
      intro rest hnone
      refine List.find?_cons_of_neg fun hkind => ?_
      obtain ⟨first, hmem, hfirst⟩ := htag (of_decide_eq_true hkind)
      exact List.find?_eq_none.mp hnone first hmem (decide_eq_true hfirst)
    unfold hipMac? parameter?
    rw [hparameters, List.find?_append, List.find?_append]
    cases hfront : front.find? (fun first => first.kind = .hipMac3) with
    | some first => rfl
    | none => rw [hfind back hfront]
  covered := by
    simp only [Packet.covered, hparameters, List.filter_append, List.filter_cons, hbehind,
      decide_false, Bool.false_eq_true, if_false]

theorem push {parameter : Parameter} (hbehind : ¬parameter.kind.IsCovered)
    (htag : parameter.kind = .hipMac3 → ∃ first ∈ packet.parameters, first.kind = .hipMac3) :
    packet.SameSigned (packet.push parameter) :=
  insert (List.append_nil packet.parameters).symm hbehind htag

end SameSigned

section Push

variable {packet : Packet} {data : List UInt8}

theorem parameter?_push_echoResponse {kind : ParameterKind} (hkind : kind ≠ .echoResponseUnsigned) :
    (packet.push (.echoResponseUnsigned data)).parameter? kind = packet.parameter? kind := by
  simp [push, parameter?, Parameter.kind, hkind.symm]

theorem verifyMac_push_echoResponse (key : List UInt8) :
    (packet.push (.echoResponseUnsigned data)).verifyMac key = packet.verifyMac key := by
  have hbehind : ¬ParameterKind.echoResponseUnsigned.IsCovered := by decide
  have hsame : packet.SameSigned (packet.push (.echoResponseUnsigned data)) :=
    .push hbehind (by simp [Parameter.kind])
  exact (hsame.verifyMac_eq key).symm

end Push

end Packet

end DietExchange
