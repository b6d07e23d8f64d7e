import DietExchange.Proofs.Connection.Agreement

namespace DietExchange

namespace HostKeys

/-- The keys as they stand in the stream. -/
def bytes (keys : HostKeys) : List UInt8 := keys.encryption ++ keys.integrity

structure HasLengths (keys : HostKeys) (lengths : KeyLengths) : Prop where
  encryption : keys.encryption.length = lengths.encryption
  integrity : keys.integrity.length = lengths.integrity

end HostKeys

namespace KeySet

/-- The role decides whose keys are ours and nothing else: in the other role they are the peer's. -/
structure SwapsRoles (keys other : KeySet) : Prop where
  isInitiator : other.isInitiator = !keys.isInitiator
  sameKeys : keys.SameKeys other
  ours : keys.ours = other.peers
  peers : keys.peers = other.ours

theorem swapsRoles_not (initiator responder : HostKeys) (isInitiator : Bool) :
    (KeySet.mk initiator responder isInitiator).SwapsRoles ⟨initiator, responder,
      !isInitiator⟩ := by
  cases isInitiator <;> exact ⟨rfl, ⟨rfl, rfl⟩, rfl, rfl⟩

end KeySet

namespace Hit

theorem not_lt_of_lt {lesser greater : Hit} (hlt : lesser < greater) : ¬greater < lesser :=
  Nat.lt_asymm hlt

theorem lt_or_lt_of_ne {a b : Hit} (hne : a ≠ b) : a < b ∨ b < a := by
  rcases lt_trichotomy a b with hlt | heq | hgt
  · exact .inl hlt
  · exact absurd heq hne
  · exact .inr hgt

theorem sortPair_of_lt {lesser greater : Hit} (hlt : lesser < greater) :
    sortPair lesser greater = (lesser, greater) ∧ sortPair greater lesser = (lesser, greater) :=
  ⟨if_pos hlt, if_neg (not_lt_of_lt hlt)⟩

theorem sortPair_comm {a b : Hit} (hne : a ≠ b) : sortPair a b = sortPair b a := by
  rcases lt_or_lt_of_ne hne with hlt | hlt
  · rw [(sortPair_of_lt hlt).1, (sortPair_of_lt hlt).2]
  · rw [(sortPair_of_lt hlt).1, (sortPair_of_lt hlt).2]

end Hit

namespace KeyDerivation

/-- The keys at the front of a stream that holds them have the lengths asked for, and the rest of
    the stream follows them. -/
theorem takeKeys_spec {lengths : KeyLengths} {stream : List UInt8}
    (hlength : lengths.encryption + lengths.integrity ≤ stream.length) :
    (takeKeys lengths stream).1.HasLengths lengths ∧
      (takeKeys lengths stream).1.bytes ++ (takeKeys lengths stream).2 = stream := by
  unfold takeKeys
  constructor
  · constructor
    · rw [List.length_take]
      omega
    · rw [List.length_take, List.length_drop]
      omega
  · rw [HostKeys.bytes, List.append_assoc, List.take_append_drop, List.take_append_drop]

/-- The keys of the greater and of the lesser of two HITs in a stream that is no longer than they
    are. -/
theorem takeKeys_takeKeys {lengths : KeyLengths} {stream : List UInt8}
    (hlength : stream.length = lengths.total) :
    (takeKeys lengths stream).1.HasLengths lengths ∧
      (takeKeys lengths (takeKeys lengths stream).2).1.HasLengths lengths ∧
      (takeKeys lengths stream).1.bytes ++ (takeKeys lengths (takeKeys lengths stream).2).1.bytes =
        stream := by
  rw [KeyLengths.total] at hlength
  have hhalf : lengths.encryption + lengths.integrity ≤ stream.length := by omega
  obtain ⟨hgreater, hfirst⟩ := takeKeys_spec hhalf
  have hrest : (takeKeys lengths stream).2.length = lengths.encryption + lengths.integrity := by
    rw [takeKeys, List.length_drop, List.length_drop]
    omega
  obtain ⟨hlesser, hsecond⟩ := takeKeys_spec (Nat.le_of_eq hrest.symm)
  have hend : (takeKeys lengths (takeKeys lengths stream).2).2 = [] := by
    rw [← List.length_eq_zero_iff, takeKeys, List.length_drop, List.length_drop]
    omega
  rw [hend, List.append_nil] at hsecond
  exact ⟨hgreater, hlesser, by rw [hsecond, hfirst]⟩

/-- Both hosts extract the same key, whoever of them is the initiator. -/
theorem extract_comm (secret : List UInt8) {x y : Hit} (hne : x ≠ y) (challenge : Block) :
    extract secret x y challenge = extract secret y x challenge := by
  rw [extract, extract, Hit.sortPair_comm hne]

section Derive

variable {secret : List UInt8} {challenge : Block} {lengths : KeyLengths}

/-- The derivation fails for its lengths and for nothing else. -/
theorem exists_derive_eq_error_iff {initiator responder : Hit} {isInitiator : Bool} :
    (∃ error, derive secret initiator responder challenge isInitiator lengths = .error error) ↔
      4080 < lengths.total := by
  constructor
  · rintro ⟨error, herror⟩
    by_contra hshort
    obtain ⟨stream, hexpand, -⟩ :=
      exists_expand (extract secret initiator responder challenge) (Nat.not_lt.mp hshort)
    rw [derive, hexpand] at herror
    cases herror
  · intro hlong
    exact ⟨_, bind_eq_error_iff.mpr (.inl (expand_eq_error_iff.mpr hlong))⟩

/-- Two hosts own the halves of the stream in the order of their HITs, each in either role. -/
theorem exists_owners (secret : List UInt8) (challenge : Block) {lesser greater : Hit}
    (hlt : lesser < greater) (hlengths : lengths.total ≤ 4080) :
    ∃ ofGreater ofLesser : HostKeys, ofGreater.HasLengths lengths ∧ ofLesser.HasLengths lengths ∧
      expand (extract secret greater lesser challenge).toList lengths.total =
        .ok (ofGreater.bytes ++ ofLesser.bytes) ∧
      ∀ isInitiator,
        derive secret greater lesser challenge isInitiator lengths =
          .ok ⟨ofGreater, ofLesser, isInitiator⟩ ∧
        derive secret lesser greater challenge isInitiator lengths =
          .ok ⟨ofLesser, ofGreater, isInitiator⟩ := by
  have hne : greater ≠ lesser := fun heq => Hit.not_lt_of_lt hlt (heq ▸ hlt)
  obtain ⟨stream, hexpand, hlength⟩ :=
    exists_expand (extract secret greater lesser challenge) hlengths
  obtain ⟨hgreater, hlesser, hstream⟩ := takeKeys_takeKeys hlength
  refine ⟨_, _, hgreater, hlesser, hstream.symm ▸ hexpand, fun isInitiator => ⟨?_, ?_⟩⟩
  · rw [derive, hexpand]
    exact congrArg Except.ok (if_pos hlt)
  · rw [derive, extract_comm secret hne.symm, hexpand]
    exact congrArg Except.ok (if_neg (Hit.not_lt_of_lt hlt))

end Derive

/-- Keys belong to HITs and not to roles. The derivation for two hosts fails just for its lengths;
    else each host gets the same two keys whether it is the initiator or the responder, the stream
    is the keys of the greater HIT and then those of the lesser, and our role only tells whose keys
    are ours. -/
theorem derive_by_hit {x y : Hit} (hne : x ≠ y) (secret : List UInt8) (challenge : Block)
    (lengths : KeyLengths) :
    (∀ isInitiator,
      (∃ error, derive secret x y challenge isInitiator lengths = .error error) ↔
        4080 < lengths.total) ∧
    (lengths.total ≤ 4080 → ∃ ofX ofY : HostKeys, ofX.HasLengths lengths ∧ ofY.HasLengths lengths ∧
      extract secret x y challenge = extract secret y x challenge ∧
      expand (extract secret x y challenge).toList lengths.total =
        .ok (if y < x then ofX.bytes ++ ofY.bytes else ofY.bytes ++ ofX.bytes) ∧
      ∀ isInitiator,
        derive secret x y challenge isInitiator lengths = .ok ⟨ofX, ofY, isInitiator⟩ ∧
        derive secret y x challenge isInitiator lengths = .ok ⟨ofY, ofX, isInitiator⟩ ∧
        (KeySet.mk ofX ofY isInitiator).SwapsRoles ⟨ofX, ofY, !isInitiator⟩ ∧
        (KeySet.mk ofY ofX isInitiator).SwapsRoles ⟨ofY, ofX, !isInitiator⟩) := by
  refine ⟨fun isInitiator => exists_derive_eq_error_iff, fun hlengths => ?_⟩
  have hcomm := extract_comm secret hne challenge
  rcases Hit.lt_or_lt_of_ne hne with hlt | hlt
  · obtain ⟨ofY, ofX, hofY, hofX, hexpand, hderive⟩ :=
      exists_owners secret challenge hlt hlengths
    refine ⟨ofX, ofY, hofX, hofY, hcomm, ?_, fun isInitiator => ⟨(hderive isInitiator).2,
      (hderive isInitiator).1, KeySet.swapsRoles_not .., KeySet.swapsRoles_not ..⟩⟩
    rw [hcomm, if_neg (Hit.not_lt_of_lt hlt)]
    exact hexpand
  · obtain ⟨ofX, ofY, hofX, hofY, hexpand, hderive⟩ :=
      exists_owners secret challenge hlt hlengths
    refine ⟨ofX, ofY, hofX, hofY, hcomm, ?_, fun isInitiator => ⟨(hderive isInitiator).1,
      (hderive isInitiator).2, KeySet.swapsRoles_not .., KeySet.swapsRoles_not ..⟩⟩
    rw [if_pos hlt]
    exact hexpand

/-- Keys of two unequal lengths for a pair of hosts. -/
theorem exists_derive_by_hit : Hit.zero ≠ ⟨Block.ofNat 1⟩ ∧
    (KeyLengths.mk 32 24).total ≤ 4080 ∧ ∃ ofX ofY : HostKeys,
      derive [] Hit.zero ⟨Block.ofNat 1⟩ Block.zero true ⟨32, 24⟩ = .ok ⟨ofX, ofY, true⟩ ∧
      derive [] ⟨Block.ofNat 1⟩ Hit.zero Block.zero false ⟨32, 24⟩ = .ok ⟨ofY, ofX, false⟩ := by
  have hne : Hit.zero ≠ ⟨Block.ofNat 1⟩ := by decide
  have hlengths : (KeyLengths.mk 32 24).total ≤ 4080 := by decide
  obtain ⟨-, howners⟩ := derive_by_hit hne [] Block.zero ⟨32, 24⟩
  obtain ⟨ofX, ofY, -, -, -, -, hderive⟩ := howners hlengths
  exact ⟨hne, hlengths, ofX, ofY, (hderive true).1, (hderive false).2.1⟩

end KeyDerivation

end DietExchange
