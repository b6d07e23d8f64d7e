import DietExchange.Proofs.Connection.Agreement
import DietExchange.Proofs.Packet.Authenticated

namespace DietExchange

/-- Whether a public key is an uncompressed point that a host can agree on a secret with. -/
structure HostIdentity.Takes (identity : HostIdentity) (publicKey : List UInt8) : Prop where
  uncompressed : publicKey.head? = some 0x04
  agrees : ∃ secret, identity.key.agree publicKey = .ok secret

/-- A long enough uncompressed key has a tag. -/
theorem Hit.isSome_ofPublicKey? {key : List UInt8} (huncompressed : key.head? = some 0x04)
    (hlong : 13 ≤ key.length) : (ofPublicKey? key).isSome := by
  obtain ⟨coordinates, rfl⟩ := List.head?_eq_some_iff.mp huncompressed
  rw [List.length_cons] at hlong
  have htwelve : 12 ≤ coordinates.length := Nat.le_of_succ_le_succ hlong
  have hsixteen : (orchidStart ++ coordinates.take 12).length = 16 := by
    rw [List.length_append, List.length_take, Nat.min_eq_left htwelve]
    rfl
  simp [ofPublicKey?, htwelve, ofBytes?, Block.ofList?, hsixteen]

/-- What is wrong with a packet, in the eyes of a host, and the error that says so. -/
inductive Packet.HasFault (packet : Packet) (ctx : Context) : Error → Prop where
  | parameter {kind : ParameterKind} (hnone : packet.parameter? kind = none) :
    HasFault packet ctx (.missingParameter packet.kind kind)
  | groups (hgroups : ∀ list, packet.dhGroupList? = some list → list.contains ctx.group = false) :
    HasFault packet ctx .dhGroupMismatch
  | curve {id : HostId} (hid : packet.hostId? = some id) (hcurve : id.curve ≠ ctx.identity.curve) :
    HasFault packet ctx .dhGroupMismatch
  | solution {solution : Solution} (hsolution : packet.solution? = some solution)
    (hwrong : ctx.issuer.verify solution.challenge solution.answer packet.sender packet.receiver
      ctx.issuer.complexity [] = false) : HasFault packet ctx .badSolution
  | tag {key : List UInt8} (hwrong : packet.verifyMac key = .error .badMac) :
      HasFault packet ctx .badMac
  | complexity {puzzle : Puzzle} (hpuzzle : packet.puzzle? = some puzzle)
    (habove : ctx.config.maxPuzzleComplexity < puzzle.k) :
    HasFault packet ctx (.security (.complexityAbove puzzle.k ctx.config.maxPuzzleComplexity))
  | identity {id : HostId} (hid : packet.hostId? = some id)
    (hother : Hit.ofPublicKey id.publicKey ≠ .ok packet.sender) :
    HasFault packet ctx (.security (.hostIdMismatch packet.sender))
  | cipher {offer : CipherOffer} (hoffer : packet.hipCipher? = some offer)
    (hnone : offer.select? ctx.config.cipherSuites = none) :
    HasFault packet ctx (.security .noCommonCipher)
  | key {id : HostId} {fault : CryptoFault} (hid : packet.hostId? = some id)
    (huseless : ¬ctx.identity.Takes id.publicKey)
    (hfault : fault = .notUncompressed ∨ ∃ reason, fault = .stated reason) :
    HasFault packet ctx (.crypto fault)

/-- What is read as an uncompressed point of a curve is the point that is written so. -/
theorem NamedCurve.takes_keyPair_iff {named : NamedCurve} {scalar : Nat}
    {point : Weierstrass.Affine} {hit : Hit} {publicKey : List UInt8}
    (hfits : named.arithmetic.p ≤ 256 ^ named.curve.fieldLength) :
    HostIdentity.Takes ⟨hit, named.keyPair scalar point⟩ publicKey ↔
      ∃ peer, publicKey = Weierstrass.encodePoint named.curve.fieldLength peer ∧
        named.arithmetic.contains peer = true ∧
        (named.arithmetic.multiply? scalar peer).isSome := by
  constructor
  · rintro ⟨huncompressed, secret, hsecret⟩
    obtain ⟨coordinates, rfl⟩ := List.head?_eq_some_iff.mp huncompressed
    change named.sharedSecret scalar _ = _ at hsecret
    unfold NamedCurve.sharedSecret Weierstrass.decodePoint? at hsecret
    simp only [if_true] at hsecret
    split at hsecret
    · rename_i shared hshared
      obtain ⟨peer, hpeer, hmultiple⟩ := Option.bind_eq_some_iff.mp hshared
      split at hpeer
      · rename_i hvalid
        obtain ⟨hlength, hcontains⟩ := hvalid
        obtain rfl := Option.some.inj hpeer
        refine ⟨_, ?_, hcontains, by rw [hmultiple]; rfl⟩
        have hx := bigEndian_bigEndianValue (coordinates.take named.curve.fieldLength)
        have hy := bigEndian_bigEndianValue (coordinates.drop named.curve.fieldLength)
        rw [List.length_take, hlength, Nat.min_eq_left (by omega)] at hx
        rw [List.length_drop, hlength, Nat.two_mul, Nat.add_sub_cancel] at hy
        rw [Weierstrass.encodePoint, hx, hy, List.take_append_drop]
      · cases hpeer
    · cases hsecret
  · rintro ⟨peer, rfl, hcontains, hsome⟩
    obtain ⟨shared, hshared⟩ := Option.isSome_iff_exists.mp hsome
    have hbounds := hcontains
    simp only [Weierstrass.contains, Bool.and_eq_true, decide_eq_true_eq] at hbounds
    obtain ⟨⟨hx, hy⟩, -⟩ := hbounds
    have hdecode : named.arithmetic.decodePoint? named.curve.fieldLength
        (Weierstrass.encodePoint named.curve.fieldLength peer) = some peer := by
      unfold Weierstrass.encodePoint Weierstrass.decodePoint?
      simp only [if_true, List.length_append, length_bigEndian, List.take_left', List.drop_left',
        bigEndianValue_bigEndian]
      have hxMod : peer.x % Nat.pow 256 named.curve.fieldLength = peer.x :=
        Nat.mod_eq_of_lt (Nat.lt_of_lt_of_le hx hfits)
      have hyMod : peer.y % Nat.pow 256 named.curve.fieldLength = peer.y :=
        Nat.mod_eq_of_lt (Nat.lt_of_lt_of_le hy hfits)
      rw [hxMod, hyMod]
      exact if_pos ⟨(Nat.two_mul _).symm, hcontains⟩
    refine ⟨rfl, bigEndian named.curve.fieldLength shared.x, ?_⟩
    change named.sharedSecret scalar _ = _
    unfold NamedCurve.sharedSecret
    simp only [hdecode, Option.bind_some, hshared]

namespace Packet

variable {packet : Packet} {ctx : Context} {error : Error}

theorem kind_of_parameter? {kind : ParameterKind} {parameter : Parameter}
    (hparameter : packet.parameter? kind = some parameter) : parameter.kind = kind := by
  simpa using List.find?_some hparameter

/-- A value is missing only with its parameter. -/
theorem parameter?_eq_none_of_value (packet : Packet) :
    (packet.solution? = none → packet.parameter? .solution = none) ∧
    (packet.hostId? = none → packet.parameter? .hostId = none) ∧
    (packet.puzzle? = none → packet.parameter? .puzzle = none) ∧
    (packet.hipCipher? = none → packet.parameter? .hipCipher = none) ∧
    (packet.hipMac? = none → packet.parameter? .hipMac3 = none) := by
  unfold solution? hostId? puzzle? hipCipher? hipMac?
  refine ⟨?_, ?_, ?_, ?_, ?_⟩
  all_goals
    intro hvalue
    rw [Option.eq_none_iff_forall_ne_some]
    intro parameter hparameter
    have hkind := kind_of_parameter? hparameter
    rw [hparameter] at hvalue
    cases parameter <;> simp [Parameter.kind] at hkind hvalue

theorem hasFault_of_checkMandatory (hcheck : packet.checkMandatory = .error error) :
    packet.HasFault ctx error := by
  unfold checkMandatory at hcheck
  split at hcheck
  · rename_i kind hfind
    obtain rfl := Except.error.inj hcheck
    have hmissing := List.find?_some hfind
    exact .parameter (Option.isNone_iff_eq_none.mp hmissing)
  · cases hcheck

theorem hasFault_of_require {α : Type} {kind : ParameterKind} {value : Option α}
    (hvalue : value = none → packet.parameter? kind = none)
    (hrequire : packet.require kind value = .error error) : packet.HasFault ctx error := by
  cases value with
  | some found => cases hrequire
  | none =>
    obtain rfl := Except.error.inj hrequire
    exact .parameter (hvalue rfl)

end Packet

namespace Parameter

/-- What was read can be written again. -/
theorem exists_encode_of_areTlvs {parameters : List Parameter} {bytes : List UInt8}
    (htlvs : AreTlvs parameters bytes) :
    ∀ parameter ∈ parameters, ∃ own, parameter.encode = .ok own := by
  induction htlvs with
  | nil => exact List.forall_mem_nil _
  | cons htlv hrest ih =>
    obtain ⟨own, hown, -⟩ := encode_of_isTlv htlv
    exact List.forall_mem_cons.mpr ⟨⟨own, hown⟩, ih⟩

end Parameter

namespace Packet

variable {packet : Packet} {ctx : Context} {error : Error} {datagram : List UInt8}

theorem IsSignable.of_parse (hparse : parse datagram = .ok packet) : packet.IsSignable := by
  obtain ⟨_, rest, ⟨header, body, -, htlvs, -, -, -⟩, -⟩ := parse_eq_ok_iff.mp hparse
  exact ⟨fun parameter hmem => Parameter.exists_encode_of_areTlvs htlvs _
    (List.mem_filter.mp hmem).1,
      fun parameter hmem => Parameter.isWellFormed_of_areTlvs htlvs _ (List.mem_filter.mp hmem).1⟩

theorem isWellFormed_of_parse (hparse : parse datagram = .ok packet) {parameter : Parameter}
    (hmem : parameter ∈ packet.parameters) : parameter.IsWellFormed := by
  obtain ⟨_, rest, ⟨header, body, -, htlvs, -, -, -⟩, -⟩ := parse_eq_ok_iff.mp hparse
  exact Parameter.isWellFormed_of_areTlvs htlvs _ hmem

/-- A public key that was read has the length of its curve. -/
theorem length_publicKey_of_parse (hparse : parse datagram = .ok packet) {id : HostId}
    (hid : packet.hostId? = some id) : id.publicKey.length = id.curve.publicKeyLength := by
  have hmem : .hostId id ∈ packet.parameters := by
    unfold hostId? at hid
    split at hid
    · rename_i found hfound
      obtain rfl := Option.some.inj hid
      exact List.mem_of_find?_eq_some hfound
    · cases hid
  exact (isWellFormed_of_parse hparse hmem).1

/-- A suite that was read is canonical: its name comes from its code. -/
theorem isCanonical_of_parse (hparse : parse datagram = .ok packet) {offer : CipherOffer}
    (hoffer : packet.hipCipher? = some offer) : ∀ suite ∈ offer.suites, suite.IsCanonical := by
  have hmem : .hipCipher offer ∈ packet.parameters := by
    unfold hipCipher? at hoffer
    split at hoffer
    · rename_i found hfound
      obtain rfl := Option.some.inj hoffer
      exact List.mem_of_find?_eq_some hfound
    · cases hoffer
  exact isWellFormed_of_parse hparse hmem

/-- A tag under a key that AES can take is refused only for being missing or wrong. -/
theorem hasFault_of_verifyMac {key : List UInt8} (hsignable : packet.IsSignable)
    (hkey : Config.IsKeyLength key.length) (hverify : packet.verifyMac key = .error error) :
    packet.HasFault ctx error := by
  obtain ⟨input, hinput⟩ := hsignable.exists_macInput
  obtain ⟨cmac, hcmac⟩ := CmacKey.ofBytes_ok_iff.mpr hkey
  have hcompute : packet.computeMac key = .ok (cmac.tag input) :=
    bind_eq_ok_iff.mpr ⟨input, hinput, bind_eq_ok_iff.mpr ⟨cmac, hcmac, rfl⟩⟩
  cases htag : packet.hipMac? with
  | none =>
    unfold verifyMac at hverify
    rw [htag] at hverify
    obtain rfl := Except.error.inj hverify
    exact .parameter (packet.parameter?_eq_none_of_value.2.2.2.2 htag)
  | some tag =>
    have hbad : error = .badMac := by
      unfold verifyMac at hverify
      rw [htag, hcompute] at hverify
      dsimp only [bind, Except.bind] at hverify
      split_ifs at hverify
      · exact (Except.error.inj hverify).symm
      · cases hverify
      · exact (Except.error.inj hverify).symm
    subst hbad
    exact .tag hverify

end Packet

namespace Context

variable {ctx : Context} {packet : Packet} {error : Error}

theorem hasFault_of_checkOffer (hcheck : ctx.checkOffer packet.dhGroupList? = .error error) :
    packet.HasFault ctx error := by
  unfold checkOffer at hcheck
  split at hcheck
  · rename_i list hlist
    split at hcheck
    · cases hcheck
    · rename_i hother
      obtain rfl := Except.error.inj hcheck
      refine .groups fun other hsame => ?_
      obtain rfl := Option.some.inj (hlist.symm.trans hsame)
      simpa using hother
  · cases hcheck

theorem hasFault_of_checkGroups (hcheck : ctx.checkGroups packet.dhGroupList? = .error error) :
    packet.HasFault ctx error := by
  unfold checkGroups at hcheck
  split at hcheck
  · rename_i list hlist
    split at hcheck
    · cases hcheck
    · rename_i hother
      obtain rfl := Except.error.inj hcheck
      refine .groups fun other hsame => ?_
      obtain rfl := Option.some.inj (hlist.symm.trans hsame)
      simpa using hother
  · rename_i hnone
    obtain rfl := Except.error.inj hcheck
    exact .groups fun list hsome => by cases hnone.symm.trans hsome

/-- The host identity of a packet that was read is refused for its curve, its key or its owner. -/
theorem hasFault_of_checkHostId {datagram : List UInt8}
    (hparse : Packet.parse datagram = .ok packet) {id : HostId} (hid : packet.hostId? = some id)
    (hcheck : ctx.checkHostId packet.sender id = .error error) : packet.HasFault ctx error := by
  unfold checkHostId at hcheck
  split at hcheck
  · rename_i hcurve
    obtain rfl := Except.error.inj hcheck
    exact .curve hid hcurve
  · split at hcheck
    · rcases bind_eq_error_iff.mp hcheck with hnone | ⟨hit, hhit, hother⟩
      · unfold Hit.ofPublicKey at hnone
        split at hnone
        · cases hnone
        · rename_i htag
          obtain rfl := Except.error.inj hnone
          refine .key hid (fun htakes => ?_) (.inl rfl)
          have hlong : 13 ≤ id.publicKey.length := by
            rw [Packet.length_publicKey_of_parse hparse hid]
            cases id.curve <;> decide
          have hsome := Hit.isSome_ofPublicKey? htakes.uncompressed hlong
          rw [htag] at hsome
          cases hsome
      · split at hother
        · cases hother
        · rename_i hne
          obtain rfl := Except.error.inj hother
          refine .identity hid fun hsame => hne ?_
          exact Except.ok.inj (hhit.symm.trans hsame)
    · cases hcheck

/-- Session keys are refused only if the public key is of no use. -/
theorem hasFault_of_sessionKeys (haccepted : ctx.config.IsAccepted) {id : HostId}
    (hid : packet.hostId? = some id) {initiator responder : Hit} {challenge : Block}
    {isInitiator : Bool}
    (hkeys : ctx.sessionKeys id.publicKey initiator responder challenge isInitiator =
      .error error) :
    packet.HasFault ctx error := by
  rcases bind_eq_error_iff.mp hkeys with hsecret | ⟨secret, -, hderive⟩
  · unfold HostIdentity.sharedSecret at hsecret
    split at hsecret
    · cases hsecret
    · rename_i reason hrefused
      obtain rfl := Except.error.inj hsecret
      refine .key hid (fun htakes => ?_) (.inr ⟨reason, rfl⟩)
      obtain ⟨secret, hagree⟩ := htakes.agrees
      cases hagree.symm.trans hrefused
  · obtain ⟨keys, hderived, -⟩ :=
      KeyDerivation.exists_derive haccepted.encryption haccepted.integrity
      secret initiator responder challenge isInitiator
    cases hderived.symm.trans hderive

section Validate

variable {datagram : List UInt8} (hparse : Packet.parse datagram = .ok packet)
  (haccepted : ctx.config.IsAccepted)
include hparse haccepted

theorem hasFault_of_validateI2
    (hvalidate : ctx.validateI2 packet.receiver packet.sender packet = .error error) :
    packet.HasFault ctx error := by
  obtain ⟨hnoSolution, hnoHostId, -, hnoCipher, -⟩ := packet.parameter?_eq_none_of_value
  rcases bind_eq_error_iff.mp hvalidate with hmandatory | ⟨⟨⟩, -, hvalidate⟩
  · exact Packet.hasFault_of_checkMandatory hmandatory
  rcases bind_eq_error_iff.mp hvalidate with hsolution | ⟨solution, hsolution, hvalidate⟩
  · exact Packet.hasFault_of_require hnoSolution hsolution
  dsimp only at hvalidate
  split at hvalidate
  · rename_i hunsolved
    obtain rfl := Except.error.inj hvalidate
    exact .solution (Packet.require_eq_ok_iff.mp hsolution) (by simpa using hunsolved)
  rcases bind_eq_error_iff.mp hvalidate with hid | ⟨id, hid, hvalidate⟩
  · exact Packet.hasFault_of_require hnoHostId hid
  have hhostId := Packet.require_eq_ok_iff.mp hid
  rcases bind_eq_error_iff.mp hvalidate with hidentity | ⟨⟨⟩, -, hvalidate⟩
  · exact hasFault_of_checkHostId hparse hhostId hidentity
  rcases bind_eq_error_iff.mp hvalidate with hkeys | ⟨keys, hkeys, hvalidate⟩
  · exact hasFault_of_sessionKeys haccepted hhostId hkeys
  rcases bind_eq_error_iff.mp hvalidate with htag | ⟨⟨⟩, -, hvalidate⟩
  · obtain ⟨secret, -, hderive⟩ := sessionKeys_eq_ok_iff.mp hkeys
    refine Packet.hasFault_of_verifyMac (.of_parse hparse) ?_ htag
    rw [(KeyDerivation.length_integrity_of_derive hderive).1]
    exact haccepted.integrity
  rcases bind_eq_error_iff.mp hvalidate with hoffer | ⟨offer, hoffer, hvalidate⟩
  · exact Packet.hasFault_of_require hnoCipher hoffer
  split at hvalidate
  · cases hvalidate
  · rename_i hnone
    obtain rfl := Except.error.inj hvalidate
    exact .cipher (Packet.require_eq_ok_iff.mp hoffer) hnone

theorem hasFault_of_validateR1
    (hvalidate : ctx.validateR1 packet.receiver packet.sender packet = .error error) :
    packet.HasFault ctx error := by
  obtain ⟨-, hnoHostId, hnoPuzzle, -⟩ := packet.parameter?_eq_none_of_value
  rcases bind_eq_error_iff.mp hvalidate with hmandatory | ⟨⟨⟩, -, hvalidate⟩
  · exact Packet.hasFault_of_checkMandatory hmandatory
  rcases bind_eq_error_iff.mp hvalidate with hgroups | ⟨⟨⟩, -, hvalidate⟩
  · exact hasFault_of_checkGroups hgroups
  rcases bind_eq_error_iff.mp hvalidate with hid | ⟨id, hid, hvalidate⟩
  · exact Packet.hasFault_of_require hnoHostId hid
  have hhostId := Packet.require_eq_ok_iff.mp hid
  rcases bind_eq_error_iff.mp hvalidate with hidentity | ⟨⟨⟩, -, hvalidate⟩
  · exact hasFault_of_checkHostId hparse hhostId hidentity
  rcases bind_eq_error_iff.mp hvalidate with hpuzzle | ⟨puzzle, hpuzzle, hvalidate⟩
  · exact Packet.hasFault_of_require hnoPuzzle hpuzzle
  dsimp only at hvalidate
  split at hvalidate
  · rename_i habove
    obtain rfl := Except.error.inj hvalidate
    exact .complexity (Packet.require_eq_ok_iff.mp hpuzzle) habove
  rcases bind_eq_error_iff.mp hvalidate with hkeys | ⟨keys, -, hvalidate⟩
  · exact hasFault_of_sessionKeys haccepted hhostId hkeys
  · cases hvalidate

omit haccepted in
theorem hasFault_of_validateR2 {keys : KeySet}
    (hkey : Config.IsKeyLength keys.responder.integrity.length)
    (hvalidate : ctx.validateR2 (some keys) packet = .error error) : packet.HasFault ctx error := by
  rcases bind_eq_error_iff.mp hvalidate with hmandatory | ⟨⟨⟩, -, hvalidate⟩
  · exact Packet.hasFault_of_checkMandatory hmandatory
  rcases bind_eq_error_iff.mp hvalidate with hgroups | ⟨⟨⟩, -, htag⟩
  · exact hasFault_of_checkGroups hgroups
  · exact Packet.hasFault_of_verifyMac (.of_parse hparse) hkey htag

end Validate

end Context

end DietExchange
