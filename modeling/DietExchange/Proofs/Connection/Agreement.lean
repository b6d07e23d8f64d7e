import DietExchange.Proofs.Connection.Packets
import DietExchange.Proofs.Connection.Validation
import DietExchange.Proofs.KeyStream

namespace DietExchange

/-- What a host brings to a handshake. -/
structure Party where
  config : Config
  identity : HostIdentity

def Context.party (ctx : Context) : Party := ⟨ctx.config, ctx.identity⟩

/-- What two hosts need for a handshake that the first of them begins, but for a cipher suite. -/
structure Party.NearlyCompatible (initiator responder : Party) : Prop where
  distinct : initiator.identity.hit ≠ responder.identity.hit
  curve : initiator.identity.curve = responder.identity.curve
  lengths : initiator.config.keyLengths = responder.config.keyLengths
  initiatorAccepted : initiator.config.IsAccepted
  responderAccepted : responder.config.IsAccepted
  initiatorKey : initiator.identity.HasCurveKey
  responderKey : responder.identity.HasCurveKey
  initiatorIdentity : responder.config.verifyHostIdentity →
    Hit.ofPublicKey initiator.identity.publicKey = .ok initiator.identity.hit
  responderIdentity : initiator.config.verifyHostIdentity →
    Hit.ofPublicKey responder.identity.publicKey = .ok responder.identity.hit
  complexity : responder.config.puzzleComplexity ≤ initiator.config.maxPuzzleComplexity
  unsolicited : responder.config.acceptUnsolicited = true
  agreement : ∃ secret, initiator.identity.key.agree responder.identity.publicKey = .ok secret ∧
    responder.identity.key.agree initiator.identity.publicKey = .ok secret

/-- What two hosts need for a handshake that the first of them begins. The responder is reached
    under a suite by its code, since that is what an offer holds. -/
structure Party.Compatible (initiator responder : Party) : Prop extends
    initiator.NearlyCompatible responder where
  cipher : ∃ suite ∈ responder.config.cipherSuites, suite.IsCanonical ∧
    suite.code ∈ (initiator.config.cipherSuites.take maxCipherSuites).map CipherSuite.code

/-- A host that also takes packets of peers with whom it has nothing under way. -/
def Party.welcoming (party : Party) : Party :=
  { party with config := { party.config with acceptUnsolicited := true } }

/-- What two hosts need for a handshake that is under way on both sides: all that they need to begin
    one, except that the responder does not have to take packets of strangers. -/
def Party.Fits (initiator responder : Party) : Prop := initiator.Compatible responder.welcoming

/-- The context of such a host. No connection can tell the difference. -/
def Context.welcoming (ctx : Context) : Context :=
  { ctx with config := ctx.party.welcoming.config }

theorem Party.Compatible.fits {initiator responder : Party}
    (hcompatible : initiator.Compatible responder) :
    initiator.Fits responder := by
  obtain ⟨config, identity⟩ := responder
  have hsame : Party.welcoming ⟨config, identity⟩ = ⟨config, identity⟩ := by
    rw [welcoming, ← hcompatible.unsolicited]
  rwa [Fits, hsame]

namespace KeyDerivation

theorem exists_expand (key : Block) {length : Nat} (hlength : length ≤ 4080) :
    ∃ stream, expand key.toList length = .ok stream ∧ stream.length = length := by
  let cipherKey : CipherKey := ⟨key.toList, .inl key.length_toList⟩
  obtain ⟨stream, hstream⟩ : ∃ stream, expand cipherKey.1 length = .ok stream :=
    exists_expand_iff.mpr hlength
  exact ⟨stream, hstream, length_of_expand hstream⟩

/-- The integrity keys of both hosts have the length that was asked for. -/
theorem length_integrity_of_derive {secret : List UInt8} {initiator responder : Hit}
    {challenge : Block} {isInitiator : Bool} {lengths : KeyLengths} {keys : KeySet}
    (hderive : derive secret initiator responder challenge isInitiator lengths = .ok keys) :
    keys.initiator.integrity.length = lengths.integrity ∧
      keys.responder.integrity.length = lengths.integrity := by
  obtain ⟨stream, hexpand, hpure⟩ := bind_eq_ok_iff.mp hderive
  have hlength : stream.length = lengths.total := by
    have hshort : lengths.total ≤ 4080 := by
      by_contra hlong
      rw [expand_eq_error_iff.mpr (Nat.not_le.mp hlong)] at hexpand
      cases hexpand
    obtain ⟨found, hfound, hlength⟩ :=
      exists_expand (extract secret initiator responder challenge) hshort
    obtain rfl := Except.ok.inj (hfound.symm.trans hexpand)
    exact hlength
  dsimp only [takeKeys] at hpure
  obtain rfl := pure_eq_ok_iff.mp hpure
  unfold KeyLengths.total at hlength
  split <;> simp only [List.length_take, List.length_drop, hlength] <;> omega

/-- Keys of lengths that AES keys can have can always be derived, and have these lengths. -/
theorem exists_derive {lengths : KeyLengths} (hencryption : Config.IsKeyLength lengths.encryption)
    (hintegrity : Config.IsKeyLength lengths.integrity) (secret : List UInt8)
    (initiator responder : Hit) (challenge : Block) (isInitiator : Bool) :
    ∃ keys, derive secret initiator responder challenge isInitiator lengths = .ok keys ∧
      keys.initiator.integrity.length = lengths.integrity ∧
      keys.responder.integrity.length = lengths.integrity := by
  have htotal : lengths.total ≤ 4080 := by
    unfold Config.IsKeyLength at hencryption hintegrity
    unfold KeyLengths.total
    omega
  obtain ⟨stream, hstream, -⟩ := exists_expand (extract secret initiator responder challenge) htotal
  have hkeys : ∃ keys, derive secret initiator responder challenge isInitiator lengths = .ok keys :=
    ⟨_, bind_eq_ok_iff.mpr ⟨stream, hstream, rfl⟩⟩
  obtain ⟨keys, hkeys⟩ := hkeys
  exact ⟨keys, hkeys, length_integrity_of_derive hkeys⟩

end KeyDerivation

/-- A tag can be right only under a key that AES can take. -/
theorem Packet.isKeyLength_of_verifyMac {packet : Packet} {key : List UInt8}
    (hverify : packet.verifyMac key = .ok ()) : Config.IsKeyLength key.length := by
  unfold verifyMac at hverify
  split at hverify
  · cases hverify
  · split at hverify
    · cases hverify
    · obtain ⟨computed, hcomputed, -⟩ := bind_eq_ok_iff.mp hverify
      obtain ⟨input, -, hrest⟩ := bind_eq_ok_iff.mp hcomputed
      obtain ⟨cmac, hcmac, -⟩ := bind_eq_ok_iff.mp hrest
      exact CmacKey.ofBytes_ok_iff.mp ⟨cmac, hcmac⟩

namespace Context

/-- Session keys depend on nothing but who derives them. -/
theorem sessionKeys_congr {ctx other : Context} (hparty : ctx.party = other.party) :
    ctx.sessionKeys = other.sessionKeys := by
  obtain ⟨hconfig, hidentity⟩ := Party.mk.inj hparty
  funext publicKey initiator responder challenge isInitiator
  unfold sessionKeys
  rw [hconfig, hidentity]

/-- An I2 that is valid leads to keys that an R2 can be sealed with. -/
theorem isKeyLength_of_validateI2 {ctx : Context} {host peer : Hit} {packet : Packet}
    {keys : KeySet} {cipher : CipherSuite} (hvalid : ctx.validateI2 host peer packet =
      .ok (keys, cipher)) : Config.IsKeyLength keys.responder.integrity.length := by
  obtain ⟨solution, id, haccepts⟩ := validateI2_eq_ok_iff.mp hvalid
  obtain ⟨secret, -, hderive⟩ := sessionKeys_eq_ok_iff.mp haccepts.derived
  obtain ⟨hinitiator, hresponder⟩ := KeyDerivation.length_integrity_of_derive hderive
  rw [hresponder, ← hinitiator]
  exact Packet.isKeyLength_of_verifyMac haccepts.tag

/-- The groups that a host offers include its own, whatever became of their names on the way. -/
theorem contains_canonical_single {ctx other : Context}
    (hcurve : ctx.identity.curve = other.identity.curve) :
    (DhGroupList.single other.group).canonical.contains ctx.group = true := by
  unfold group
  rw [hcurve]
  cases other.identity.curve <;> rfl

/-- An R2 that has everything but the right tag is refused for the tag. -/
theorem validateR2_r2Under {mine theirs : Context}
    (hcurve : mine.identity.curve = theirs.identity.curve) {conn : Connection} {tag : Block}
    {keys : KeySet} {error : Error} (hwrong :
      (theirs.r2Under conn tag).canonical.verifyMac keys.responder.integrity = .error error) :
    mine.validateR2 (some keys) (theirs.r2Under conn tag).canonical = .error error := by
  have hgroups : mine.checkGroups (theirs.r2Under conn tag).canonical.dhGroupList? = .ok () :=
    checkGroups_eq_ok_iff.mpr
      ⟨_, theirs.dhGroupList?_r2Under conn tag, contains_canonical_single hcurve⟩
  unfold validateR2
  rw [theirs.checkMandatory_r2Under conn tag, hgroups]
  exact hwrong

end Context

/-- A suite is picked from an offer if one of ours is in it, by its code. -/
theorem CipherOffer.exists_select? {offered ours : List CipherSuite}
    (hcommon : ∃ suite ∈ ours, suite.IsCanonical ∧
      suite.code ∈ (offered.take maxCipherSuites).map CipherSuite.code) :
    ∃ cipher, (CipherOffer.ofList offered).canonical.select? ours = some cipher := by
  obtain ⟨suite, hmem, hcanonical, hcode⟩ := hcommon
  have hsome : ((CipherOffer.ofList offered).canonical.select? ours).isSome := by
    unfold CipherOffer.select?
    rw [List.find?_isSome]
    refine ⟨suite, hmem, ?_⟩
    obtain ⟨told, htold, heq⟩ := List.mem_map.mp hcode
    rw [List.contains_iff_mem]
    refine List.mem_map.mpr ⟨told, htold, ?_⟩
    rw [heq]
    exact hcanonical
  exact Option.isSome_iff_exists.mp hsome

namespace Party.NearlyCompatible

variable {mine theirs : Context}

theorem exists_sessionKeys (hcompatible : mine.party.NearlyCompatible theirs.party)
    (challenge : Block) :
    ∃ keys, mine.sessionKeys theirs.identity.publicKey mine.identity.hit
      theirs.identity.hit challenge true = .ok keys ∧
      theirs.sessionKeys mine.identity.publicKey mine.identity.hit theirs.identity.hit challenge
        false = .ok { keys with isInitiator := false } ∧
      keys.isInitiator = true ∧ Config.IsKeyLength keys.initiator.integrity.length ∧
      Config.IsKeyLength keys.responder.integrity.length := by
  obtain ⟨secret, hmine, htheirs⟩ := hcompatible.agreement
  have haccepted := hcompatible.initiatorAccepted
  obtain ⟨keys, hderive, hinitiator, hresponder⟩ := KeyDerivation.exists_derive haccepted.encryption
    haccepted.integrity secret mine.identity.hit theirs.identity.hit challenge true
  refine ⟨keys, ?_, ?_, KeyDerivation.isInitiator_of_derive hderive, ?_, ?_⟩
  · exact Context.sessionKeys_eq_ok_iff.mpr
      ⟨secret, HostIdentity.sharedSecret_eq_ok_iff.mpr hmine, hderive⟩
  · refine Context.sessionKeys_eq_ok_iff.mpr
      ⟨secret, HostIdentity.sharedSecret_eq_ok_iff.mpr htheirs, ?_⟩
    have hlengths : theirs.config.keyLengths = mine.config.keyLengths := hcompatible.lengths.symm
    rw [hlengths]
    exact KeyDerivation.derive_role false hderive
  · rw [hinitiator]
    exact haccepted.integrity
  · rw [hresponder]
    exact haccepted.integrity

theorem validateR1 (hcompatible : mine.party.NearlyCompatible theirs.party)
    (hcomplexity : theirs.issuer.complexity = theirs.config.puzzleComplexity) (conn : Connection)
    (challenge : Block) (cookie : UInt16) {keys : KeySet}
    (hkeys : mine.sessionKeys theirs.identity.publicKey mine.identity.hit
      theirs.identity.hit challenge true = .ok keys) :
    mine.validateR1 mine.identity.hit theirs.identity.hit
      (theirs.r1 conn challenge cookie).canonical =
        .ok (⟨theirs.issuer.complexity, defaultLifetime, cookie, challenge⟩, keys) := by
  refine Context.validateR1_eq_ok_iff.mpr
    ⟨HostId.ofKey theirs.identity.curve theirs.identity.publicKey, ?_⟩
  exact {
    mandatory := (Packet.checkMandatory_canonical _).mpr rfl
    groups := Context.checkGroups_eq_ok_iff.mpr ⟨(DhGroupList.single theirs.group).canonical,
      (Packet.dhGroupList?_canonical _).trans rfl,
      Context.contains_canonical_single hcompatible.curve⟩
    hasHostId := Context.hostId?_r1
    identity := Context.checkHostId_eq_ok_iff.mpr
      ⟨hcompatible.curve.symm, hcompatible.responderIdentity⟩
    hasPuzzle := Context.puzzle?_r1
    complexity := by
      rw [hcomplexity]
      exact hcompatible.complexity
    derived := hkeys }

theorem validateR2 (hcompatible : mine.party.NearlyCompatible theirs.party) {conn : Connection}
    {keys : KeySet} {sealed : Packet}
    (hseal : (theirs.r2 conn).recalculateMac keys.responder.integrity = .ok sealed) :
    mine.validateR2 (some keys) sealed.canonical = .ok () :=
  Context.validateR2_eq_ok_iff.mpr ⟨Context.checkMandatory_r2 hseal,
    Context.checkGroups_eq_ok_iff.mpr ⟨_, Context.dhGroupList?_r2 hseal,
      Context.contains_canonical_single hcompatible.curve⟩, keys, rfl, Context.verifyMac_r2 hseal⟩

end Party.NearlyCompatible

namespace Party.Compatible

variable {mine theirs : Context}

theorem exists_select? (hcompatible : mine.party.Compatible theirs.party) :
    ∃ cipher, (CipherOffer.ofList mine.config.cipherSuites).canonical.select?
      theirs.config.cipherSuites = some cipher :=
  CipherOffer.exists_select? hcompatible.cipher

theorem validateI2 (hcompatible : mine.party.Compatible theirs.party) {conn : Connection}
    {puzzle : Puzzle} {answer : Block} {keys : KeySet} {sealed : Packet}
    (echo : Option (List UInt8))
    (hkeys : theirs.sessionKeys mine.identity.publicKey mine.identity.hit theirs.identity.hit
      puzzle.challenge false = .ok keys)
    (hseal : (mine.i2 conn puzzle answer).recalculateMac keys.initiator.integrity = .ok sealed)
    (hverify : theirs.issuer.verify puzzle.challenge answer mine.identity.hit theirs.identity.hit
      theirs.issuer.complexity [] = true) :
    ∃ cipher, theirs.validateI2 theirs.identity.hit mine.identity.hit
      (sealed.withEcho echo).canonical = .ok (keys, cipher) := by
  obtain ⟨cipher, hselect⟩ := hcompatible.exists_select?
  refine ⟨cipher, Context.validateI2_eq_ok_iff.mpr
    ⟨⟨puzzle.k, puzzle.cookie, puzzle.challenge, answer⟩,
      HostId.ofKey mine.identity.curve mine.identity.publicKey, ?_⟩⟩
  exact {
    mandatory := Context.checkMandatory_i2 hseal
    hasSolution := Context.solution?_i2 hseal
    solved := hverify
    hasHostId := Context.hostId?_i2 hseal
    identity := Context.checkHostId_eq_ok_iff.mpr ⟨hcompatible.curve, hcompatible.initiatorIdentity⟩
    derived := hkeys
    tag := Context.verifyMac_i2 hseal
    selected := ⟨_, Context.hipCipher?_i2 hseal, hselect⟩ }

end Party.Compatible

end DietExchange
