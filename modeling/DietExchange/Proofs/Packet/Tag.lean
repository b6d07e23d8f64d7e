import DietExchange.Proofs.Packet.Authenticated
import DietExchange.Proofs.Packet.Limits
import DietExchange.Proofs.Packet.Seal
import Mathlib.Logic.Relation

namespace DietExchange

/-- Whether a parameter of this kind holds data that is only sent back. -/
def ParameterKind.IsEcho (kind : ParameterKind) : Prop :=
  kind = echoRequestUnsigned ∨ kind = echoResponseUnsigned

theorem ParameterKind.IsEcho.not_isCovered {kind : ParameterKind} (hecho : kind.IsEcho) :
    ¬kind.IsCovered := by
  rcases hecho with rfl | rfl <;> decide

theorem ParameterKind.IsEcho.ne_hipMac3 {kind : ParameterKind} (hecho : kind.IsEcho) :
    kind ≠ .hipMac3 := by
  rcases hecho with rfl | rfl <;> decide

namespace Packet

variable {packet sealed edited : Packet} {key content : List UInt8}

/-- A packet verifies exactly if its first tag is one block and the one that is computed. -/
theorem verifyMac_eq_ok_iff : packet.verifyMac key = .ok () ↔ ∃ front content back tag,
    packet.HasFirstTag front content back ∧ packet.computeMac key = .ok tag ∧
      content.length = 16 ∧ content = tag.toList := by
  constructor
  · intro hverify
    unfold verifyMac at hverify
    split at hverify
    · cases hverify
    · rename_i content hmac
      obtain ⟨front, back, hfirst⟩ := exists_hasFirstTag hmac
      obtain ⟨hlength, hrest⟩ := ite_error_eq_ok_iff.mp hverify
      obtain ⟨tag, htag, hcompare⟩ := bind_eq_ok_iff.mp hrest
      split at hcompare
      · rename_i hequal
        exact ⟨front, content, back, tag, hfirst, htag, Decidable.not_not.mp hlength, hequal.symm⟩
      · cases hcompare
  · rintro ⟨front, _, back, tag, hfirst, htag, hlength, rfl⟩
    unfold verifyMac
    rw [hfirst.hipMac?_eq]
    exact ite_error_eq_ok_iff.mpr ⟨not_not_intro hlength,
      bind_eq_ok_iff.mpr ⟨tag, htag, if_pos rfl⟩⟩

/-- Whether a tag under this key can be computed for the packet and has a place in it. -/
structure IsSealable (packet : Packet) (key : List UInt8) : Prop where
  tagged : ∃ content, .hipMac3 content ∈ packet.parameters
  encodable : ∀ parameter ∈ packet.covered, ∃ bytes, parameter.encode = .ok bytes
  key : key.length = 16 ∨ key.length = 24 ∨ key.length = 32

theorem exists_computeMac_iff : (∃ tag, packet.computeMac key = .ok tag) ↔
    (∀ parameter ∈ packet.covered, ∃ bytes, parameter.encode = .ok bytes) ∧
      (key.length = 16 ∨ key.length = 24 ∨ key.length = 32) := by
  constructor
  · rintro ⟨tag, htag⟩
    obtain ⟨input, hinput, hrest⟩ := bind_eq_ok_iff.mp htag
    obtain ⟨cmac, hcmac, -⟩ := bind_eq_ok_iff.mp hrest
    obtain ⟨body, hbody, -⟩ := macInput_eq_ok_iff.mp hinput
    have hshort := (Parameter.encodeAll_eq_ok hbody).1
    exact ⟨fun parameter hmem => Parameter.exists_encode_iff.mpr (hshort parameter hmem),
      CmacKey.ofBytes_ok_iff.mp ⟨cmac, hcmac⟩⟩
  · rintro ⟨hencodable, hkey⟩
    obtain ⟨body, hbody⟩ := Parameter.exists_encodeAll_of_forall hencodable
    obtain ⟨cmac, hcmac⟩ := CmacKey.ofBytes_ok_iff.mpr hkey
    have hinput := macInput_eq_ok_iff.mpr ⟨body, hbody, rfl⟩
    exact ⟨cmac.tag _, bind_eq_ok_iff.mpr ⟨_, hinput, bind_eq_ok_iff.mpr ⟨cmac, hcmac, rfl⟩⟩⟩

theorem exists_replaceTag {parameters : List Parameter} (tag : List UInt8)
    (hmem : .hipMac3 content ∈ parameters) : ∃ after, replaceTag tag parameters = some after := by
  induction parameters with
  | nil => cases hmem
  | cons parameter rest ih =>
    cases parameter
    case hipMac3 => exact ⟨_, rfl⟩
    all_goals
      obtain ⟨after, hafter⟩ := ih (by simpa using hmem)
      exact ⟨_ :: after, congrArg (Option.map _) hafter⟩

/-- A packet can be sealed exactly if it has a place for the tag, everything under the tag can be
    written, and the key is one. -/
theorem exists_recalculateMac_iff :
    (∃ sealed, packet.recalculateMac key = .ok sealed) ↔ packet.IsSealable key := by
  constructor
  · rintro ⟨sealed, hseal⟩
    obtain ⟨front, old, back, tag, htag, hparameters, -, -⟩ := recalculateMac_spec hseal
    obtain ⟨hencodable, hkey⟩ := exists_computeMac_iff.mp ⟨tag, htag⟩
    exact ⟨⟨old, by simp [hparameters]⟩, hencodable, hkey⟩
  · rintro ⟨⟨content, hmem⟩, hencodable, hkey⟩
    obtain ⟨tag, htag⟩ := exists_computeMac_iff.mpr ⟨hencodable, hkey⟩
    obtain ⟨after, hafter⟩ := exists_replaceTag tag.toList hmem
    refine ⟨{ packet with parameters := after }, bind_eq_ok_iff.mpr ⟨tag, htag, ?_⟩⟩
    rw [hafter]
    rfl

/-- What may be done to a packet that has its tag: echoes come and go, and further tags are
    added. -/
inductive Edit (packet : Packet) : Packet → Prop where
  | pushEcho {echo : Parameter} (hecho : echo.kind.IsEcho) : Edit packet (packet.push echo)
  | removeEcho {front back : List Parameter} {echo : Parameter} (hecho : echo.kind.IsEcho)
      (hparameters : packet.parameters = front ++ echo :: back) :
      Edit packet { packet with parameters := front ++ back }
  | pushTag (content : List UInt8) : Edit packet (packet.push (.hipMac3 content))

/-- An edit of a packet that has a tag changes nothing that is authenticated. -/
theorem Edit.sameSigned (hedit : packet.Edit edited) (hmac : packet.hipMac? = some content) :
    packet.SameSigned edited := by
  cases hedit with
  | pushEcho hecho => exact .push hecho.not_isCovered fun hkind => absurd hkind hecho.ne_hipMac3
  | @removeEcho front back echo hecho hparameters =>
    have hinsert : SameSigned { packet with parameters := front ++ back }
        { packet with parameters := front ++ echo :: back } :=
      .insert rfl hecho.not_isCovered fun hkind => absurd hkind hecho.ne_hipMac3
    rw [← hparameters] at hinsert
    exact hinsert.symm
  | pushTag other =>
    -- Another tag is not the first one only because there is one already.
    obtain ⟨front, back, hfirst⟩ := exists_hasFirstTag hmac
    refine .push not_isCovered_hipMac3 fun _ => ⟨.hipMac3 content, ?_, rfl⟩
    rw [hfirst.parameters]
    exact List.mem_append_right front List.mem_cons_self

/-- Nor do many edits, each of which leaves the first tag for the next. -/
theorem sameSigned_of_edits (hedits : Relation.ReflTransGen Edit packet edited)
    (hmac : packet.hipMac? = some content) : packet.SameSigned edited := by
  induction hedits with
  | refl => exact .refl packet
  | tail _ hedit ih => exact ih.trans (hedit.sameSigned (ih.tag.symm.trans hmac))

/-- Echoes of a kind are removed from some place on, from the first to the last of them. -/
theorem edits_filter {kind : ParameterKind} (hecho : kind.IsEcho) {front back : List Parameter}
    (hparameters : packet.parameters = front ++ back) :
    Relation.ReflTransGen Edit packet
      { packet with parameters := front ++ back.filter fun parameter => parameter.kind ≠
        kind } := by
  induction back generalizing packet front with
  | nil => rw [List.filter_nil, ← hparameters]
  | cons parameter rest ih =>
    by_cases hkind : parameter.kind = kind
    · rw [List.filter_cons_of_neg (by simp [hkind])]
      have hremove : Edit packet { packet with parameters := front ++ rest } :=
        .removeEcho (hkind ▸ hecho) hparameters
      exact .head hremove (ih rfl)
    · -- What is kept goes over to the front.
      rw [List.filter_cons_of_pos (by simp [hkind])]
      have hmoved : packet.parameters = (front ++ [parameter]) ++ rest := by simp [hparameters]
      have hnext := ih hmoved
      rwa [List.append_assoc] at hnext

/-- Removing all echoes of a kind is a run of edits. -/
theorem edits_drop {kind : ParameterKind} (hecho : kind.IsEcho) (packet : Packet) :
    Relation.ReflTransGen Edit packet (packet.drop kind) :=
  edits_filter hecho (List.nil_append packet.parameters).symm

/-- A packet verifies exactly if its first tag is one block and the one that is computed. It can be
    sealed exactly if it has a place for the tag, everything under the tag can be written, and the
    key is one. Sealing changes the content of the first tag and nothing else, and no tag that is
    computed. Then the packet verifies, also after edits, and it is still the same packet after it
    was written and read. -/
theorem sealed_packet_verifies (packet : Packet) (key : List UInt8) :
    (packet.verifyMac key = .ok () ↔ ∃ front content back tag,
      packet.HasFirstTag front content back ∧
      packet.computeMac key = .ok tag ∧ content.length = 16 ∧ content = tag.toList) ∧
    ((∃ sealed, packet.recalculateMac key = .ok sealed) ↔ packet.IsSealable key) ∧
    ∀ sealed, packet.recalculateMac key = .ok sealed →
      (∃ front old back tag, packet.HasFirstTag front old back ∧ packet.computeMac key = .ok tag ∧
        sealed = { packet with parameters := front ++ .hipMac3 tag.toList :: back }) ∧
      (∀ other, sealed.computeMac other = packet.computeMac other) ∧
      ∀ edited, Relation.ReflTransGen Edit sealed edited → edited.verifyMac key = .ok () ∧
        ∀ bytes rest, edited.encode = .ok bytes → edited.IsWellFormed →
          parse (bytes ++ rest) = .ok edited := by
  refine ⟨verifyMac_eq_ok_iff, exists_recalculateMac_iff, fun sealed hseal => ⟨?_, ?_, ?_⟩⟩
  · obtain ⟨front, old, back, tag, htag, hparameters, hsealed, hfront⟩ := recalculateMac_spec hseal
    exact ⟨front, old, back, tag, ⟨hparameters, hfront⟩, htag, hsealed⟩
  · exact computeMac_of_recalculateMac hseal
  · intro edited hedits
    obtain ⟨tag, -, hmac⟩ := hipMac?_of_recalculateMac hseal
    have hsame := sameSigned_of_edits hedits hmac
    refine ⟨(hsame.verifyMac_eq key).symm.trans (verifyMac_of_recalculateMac hseal), ?_⟩
    intro bytes rest hencode hwellFormed
    exact parse_append_of_encode rest hencode hwellFormed

/-- A packet with two tags in it and an echo between covered parameters and tags: it is sealed under
    a key of 24 bytes, the echo is taken out, another echo and a third tag are added, and what is
    read still verifies. -/
theorem sealed_sampleR1_verifies : ∃ (sealed edited : Packet) (bytes : List UInt8),
    ((sampleR1.push (.hipMac3 [])).push (.hipMac3 [9])).IsSealable (List.replicate 24 5) ∧
    ((sampleR1.push (.hipMac3 [])).push (.hipMac3 [9])).recalculateMac (List.replicate 24 5) =
      .ok sealed ∧
    Relation.ReflTransGen Edit sealed edited ∧ sealed ≠ edited ∧ edited.IsWellFormed ∧
    edited.encode = .ok bytes ∧ parse bytes = .ok edited ∧
    edited.verifyMac (List.replicate 24 5) = .ok () := by
  let packet := (sampleR1.push (.hipMac3 [])).push (.hipMac3 [9])
  let key : List UInt8 := List.replicate 24 5
  have hsealable : packet.IsSealable key := by
    have hsignable : packet.IsSignable := .of_isSome (by decide +kernel)
    exact ⟨⟨[], by decide⟩, hsignable.encodable, .inr (.inl rfl)⟩
  obtain ⟨-, -, hsealed⟩ := sealed_packet_verifies packet key
  obtain ⟨tag, htag⟩ := exists_computeMac_iff.mpr ⟨hsealable.encodable, hsealable.key⟩
  let sealed : Packet :=
    { sampleR1 with parameters := sampleR1.parameters ++ [.hipMac3 tag.toList, .hipMac3 [9]] }
  have hrecalculate : packet.recalculateMac key = .ok sealed := bind_eq_ok_iff.mpr ⟨tag, htag, rfl⟩
  let edited :=
    ((sealed.drop .echoRequestUnsigned).push (.echoResponseUnsigned [1])).push (.hipMac3 [])
  have hedits : Relation.ReflTransGen Edit sealed edited :=
    ((edits_drop (.inl rfl) sealed).tail (.pushEcho (.inr rfl))).tail (.pushTag [])
  obtain ⟨hverify, hwire⟩ := (hsealed sealed hrecalculate).2.2 edited hedits
  have hwellFormed : edited.IsWellFormed := by
    have hparameters : edited.parameters = (sampleR1.drop .echoRequestUnsigned).parameters ++
        [.hipMac3 tag.toList, .hipMac3 [9], .echoResponseUnsigned [1], .hipMac3 []] := rfl
    have hfront : (sampleR1.drop .echoRequestUnsigned).IsWellFormed := by decide
    rw [IsWellFormed, hparameters]
    exact List.forall_mem_append.mpr ⟨hfront, by simp [Parameter.IsWellFormed]⟩
  have hfits : List.Forall₂ Parameter.FitsIn edited.parameters [12, 4, 51, 16, 1, 1, 0] :=
    .cons ⟨_, rfl, Nat.le_refl 12⟩ <| .cons ⟨_, rfl, Nat.le_refl 4⟩ <|
      .cons ⟨_, rfl, Nat.le_refl 51⟩ <|
      .cons ⟨_, rfl, Nat.le_of_eq (Block.length_toList tag)⟩ <| .cons ⟨_, rfl, Nat.le_refl 1⟩ <|
      .cons ⟨_, rfl, Nat.le_refl 1⟩ <| .cons ⟨_, rfl, Nat.le_refl 0⟩ .nil
  obtain ⟨bytes, hencode⟩ := edited.exists_encode_eq_ok hfits (by decide) (by decide)
  have hparse := hwire bytes [] hencode hwellFormed
  rw [List.append_nil] at hparse
  refine ⟨sealed, edited, bytes, hsealable, hrecalculate, hedits, ?_, hwellFormed, hencode, hparse,
    hverify⟩
  intro hequal
  have hlength : 6 = 7 := congrArg (fun packet : Packet => packet.parameters.length) hequal
  cases hlength

end Packet

end DietExchange
