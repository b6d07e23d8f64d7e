import DietExchange.Connection.Context

namespace DietExchange

namespace Packet

theorem require_eq_ok_iff {α : Type} {packet : Packet} {kind : ParameterKind} {value : Option α}
    {found : α} : packet.require kind value = .ok found ↔ value = some found := by
  cases value <;> simp [require]

end Packet

theorem HostIdentity.sharedSecret_eq_ok_iff {identity : HostIdentity} {peer secret : List UInt8} :
    identity.sharedSecret peer = .ok secret ↔ identity.key.agree peer = .ok secret := by
  unfold sharedSecret
  cases identity.key.agree peer <;> simp

namespace KeyDerivation

/-- Our role does not enter into the keys. -/
theorem derive_role {secret : List UInt8} {initiator responder : Hit} {challenge : Block}
    {isInitiator : Bool} {lengths : KeyLengths} {keys : KeySet} (role : Bool)
    (hderive : derive secret initiator responder challenge isInitiator lengths = .ok keys) :
    derive secret initiator responder challenge role lengths =
      .ok { keys with isInitiator := role } := by
  obtain ⟨stream, hstream, hpure⟩ := bind_eq_ok_iff.mp hderive
  refine bind_eq_ok_iff.mpr ⟨stream, hstream, ?_⟩
  dsimp only at hpure ⊢
  obtain rfl := pure_eq_ok_iff.mp hpure
  split <;> rfl

theorem isInitiator_of_derive {secret : List UInt8} {initiator responder : Hit} {challenge : Block}
    {isInitiator : Bool} {lengths : KeyLengths} {keys : KeySet}
    (hderive : derive secret initiator responder challenge isInitiator lengths = .ok keys) :
    keys.isInitiator = isInitiator := by
  have hsame := derive_role isInitiator hderive
  rw [hderive] at hsame
  exact congrArg KeySet.isInitiator (Except.ok.inj hsame)

end KeyDerivation

namespace Context

variable {ctx : Context} {host peer : Hit} {packet : Packet} {keys : KeySet}

theorem checkOffer_eq_ok_iff {list : Option DhGroupList} :
    ctx.checkOffer list = .ok () ↔ ∀ offered, list = some offered → offered.contains ctx.group := by
  cases list <;> simp [checkOffer]

theorem checkGroups_eq_ok_iff {list : Option DhGroupList} :
    ctx.checkGroups list = .ok () ↔ ∃ offered, list = some offered ∧
    offered.contains ctx.group := by
  cases list <;> simp [checkGroups]

theorem checkHostId_eq_ok_iff {id : HostId} :
    ctx.checkHostId peer id = .ok () ↔ id.curve = ctx.identity.curve ∧
      (ctx.config.verifyHostIdentity → Hit.ofPublicKey id.publicKey = .ok peer) := by
  unfold checkHostId
  rw [ite_error_eq_ok_iff, Decidable.not_not]
  refine and_congr_right fun _ => ?_
  cases hverify : ctx.config.verifyHostIdentity with
  | false => simp
  | true =>
    simp only [↓reduceIte, forall_const, bind_eq_ok_iff]
    constructor
    · rintro ⟨hit, hhit, hsame⟩
      split at hsame
      · rename_i heq
        rw [hhit, heq]
      · exact absurd hsame throw_ne_ok
    · intro hhit
      exact ⟨peer, hhit, if_pos rfl⟩

theorem sessionKeys_eq_ok_iff {publicKey : List UInt8} {initiator responder : Hit}
    {challenge : Block} {isInitiator : Bool} :
    ctx.sessionKeys publicKey initiator responder challenge isInitiator = .ok keys ↔
      ∃ secret, ctx.identity.sharedSecret publicKey = .ok secret ∧
        KeyDerivation.derive secret initiator responder challenge isInitiator
          ctx.config.keyLengths = .ok keys :=
  bind_eq_ok_iff

theorem isInitiator_of_sessionKeys {publicKey : List UInt8} {initiator responder : Hit}
    {challenge : Block} {isInitiator : Bool}
    (hkeys : ctx.sessionKeys publicKey initiator responder challenge isInitiator = .ok keys) :
    keys.isInitiator = isInitiator := by
  obtain ⟨secret, -, hderive⟩ := sessionKeys_eq_ok_iff.mp hkeys
  exact KeyDerivation.isInitiator_of_derive hderive

/-- All that is asked of an I2, with the parameters that it is asked of. -/
structure AcceptsI2 (ctx : Context) (host peer : Hit) (packet : Packet) (solution : Solution)
    (id : HostId) (keys : KeySet) (cipher : CipherSuite) : Prop where
  mandatory : packet.checkMandatory = .ok ()
  hasSolution : packet.solution? = some solution
  solved : ctx.issuer.verify solution.challenge solution.answer peer host ctx.issuer.complexity [] =
    true
  hasHostId : packet.hostId? = some id
  identity : ctx.checkHostId peer id = .ok ()
  derived : ctx.sessionKeys id.publicKey peer host solution.challenge false = .ok keys
  tag : packet.verifyMac keys.initiator.integrity = .ok ()
  selected : ∃ offer, packet.hipCipher? = some offer ∧
    offer.select? ctx.config.cipherSuites = some cipher

theorem validateI2_eq_ok_iff {cipher : CipherSuite} :
    ctx.validateI2 host peer packet = .ok (keys, cipher) ↔
      ∃ solution id, ctx.AcceptsI2 host peer packet solution id keys cipher := by
  unfold validateI2
  constructor
  · intro hvalid
    obtain ⟨⟨⟩, hmandatory, hvalid⟩ := bind_eq_ok_iff.mp hvalid
    obtain ⟨solution, hsolution, hvalid⟩ := bind_eq_ok_iff.mp hvalid
    dsimp only at hvalid
    split at hvalid
    · exact absurd hvalid throw_ne_ok
    · rename_i hsolved
      obtain ⟨id, hid, hvalid⟩ := bind_eq_ok_iff.mp hvalid
      obtain ⟨⟨⟩, hidentity, hvalid⟩ := bind_eq_ok_iff.mp hvalid
      obtain ⟨derived, hkeys, hvalid⟩ := bind_eq_ok_iff.mp hvalid
      obtain ⟨⟨⟩, htag, hvalid⟩ := bind_eq_ok_iff.mp hvalid
      obtain ⟨offer, hoffer, hvalid⟩ := bind_eq_ok_iff.mp hvalid
      split at hvalid
      · rename_i suite hselect
        obtain ⟨rfl, rfl⟩ := Prod.mk.inj (pure_eq_ok_iff.mp hvalid)
        exact ⟨solution, id, {
          mandatory := hmandatory
          hasSolution := Packet.require_eq_ok_iff.mp hsolution
          solved := by simpa using hsolved
          hasHostId := Packet.require_eq_ok_iff.mp hid
          identity := hidentity
          derived := hkeys
          tag := htag
          selected := ⟨offer, Packet.require_eq_ok_iff.mp hoffer, hselect⟩ }⟩
      · exact absurd hvalid throw_ne_ok
  · rintro ⟨solution, id, haccepts⟩
    obtain ⟨offer, hoffer, hselect⟩ := haccepts.selected
    refine bind_eq_ok_iff.mpr ⟨(), haccepts.mandatory, ?_⟩
    refine bind_eq_ok_iff.mpr ⟨solution, Packet.require_eq_ok_iff.mpr haccepts.hasSolution, ?_⟩
    dsimp only
    rw [if_neg (by simp [haccepts.solved])]
    refine bind_eq_ok_iff.mpr ⟨id, Packet.require_eq_ok_iff.mpr haccepts.hasHostId, ?_⟩
    refine bind_eq_ok_iff.mpr ⟨(), haccepts.identity, ?_⟩
    refine bind_eq_ok_iff.mpr ⟨keys, haccepts.derived, ?_⟩
    refine bind_eq_ok_iff.mpr ⟨(), haccepts.tag, ?_⟩
    refine bind_eq_ok_iff.mpr ⟨offer, Packet.require_eq_ok_iff.mpr hoffer, ?_⟩
    rw [hselect]
    rfl

/-- All that is asked of an R1, with the parameters that it is asked of. -/
structure AcceptsR1 (ctx : Context) (host peer : Hit) (packet : Packet) (id : HostId)
    (puzzle : Puzzle) (keys : KeySet) : Prop where
  mandatory : packet.checkMandatory = .ok ()
  groups : ctx.checkGroups packet.dhGroupList? = .ok ()
  hasHostId : packet.hostId? = some id
  identity : ctx.checkHostId peer id = .ok ()
  hasPuzzle : packet.puzzle? = some puzzle
  complexity : puzzle.k ≤ ctx.config.maxPuzzleComplexity
  derived : ctx.sessionKeys id.publicKey host peer puzzle.challenge true = .ok keys

theorem validateR1_eq_ok_iff {puzzle : Puzzle} :
    ctx.validateR1 host peer packet = .ok (puzzle, keys) ↔
      ∃ id, ctx.AcceptsR1 host peer packet id puzzle keys := by
  unfold validateR1
  constructor
  · intro hvalid
    obtain ⟨⟨⟩, hmandatory, hvalid⟩ := bind_eq_ok_iff.mp hvalid
    obtain ⟨⟨⟩, hgroups, hvalid⟩ := bind_eq_ok_iff.mp hvalid
    obtain ⟨id, hid, hvalid⟩ := bind_eq_ok_iff.mp hvalid
    obtain ⟨⟨⟩, hidentity, hvalid⟩ := bind_eq_ok_iff.mp hvalid
    obtain ⟨told, hpuzzle, hvalid⟩ := bind_eq_ok_iff.mp hvalid
    dsimp only at hvalid
    split at hvalid
    · exact absurd hvalid throw_ne_ok
    · rename_i hcomplexity
      obtain ⟨derived, hkeys, hvalid⟩ := bind_eq_ok_iff.mp hvalid
      obtain ⟨rfl, rfl⟩ := Prod.mk.inj (pure_eq_ok_iff.mp hvalid)
      exact ⟨id, {
        mandatory := hmandatory
        groups := hgroups
        hasHostId := Packet.require_eq_ok_iff.mp hid
        identity := hidentity
        hasPuzzle := Packet.require_eq_ok_iff.mp hpuzzle
        complexity := UInt8.not_lt.mp hcomplexity
        derived := hkeys }⟩
  · rintro ⟨id, haccepts⟩
    refine bind_eq_ok_iff.mpr ⟨(), haccepts.mandatory, ?_⟩
    refine bind_eq_ok_iff.mpr ⟨(), haccepts.groups, ?_⟩
    refine bind_eq_ok_iff.mpr ⟨id, Packet.require_eq_ok_iff.mpr haccepts.hasHostId, ?_⟩
    refine bind_eq_ok_iff.mpr ⟨(), haccepts.identity, ?_⟩
    refine bind_eq_ok_iff.mpr ⟨puzzle, Packet.require_eq_ok_iff.mpr haccepts.hasPuzzle, ?_⟩
    dsimp only
    rw [if_neg (UInt8.not_lt.mpr haccepts.complexity)]
    exact bind_eq_ok_iff.mpr ⟨keys, haccepts.derived, rfl⟩

theorem validateR2_eq_ok_iff {held : Option KeySet} :
    ctx.validateR2 held packet = .ok () ↔ packet.checkMandatory = .ok () ∧
      ctx.checkGroups packet.dhGroupList? = .ok () ∧
      ∃ keys, held = some keys ∧ packet.verifyMac keys.responder.integrity = .ok () := by
  unfold validateR2
  constructor
  · intro hvalid
    obtain ⟨⟨⟩, hmandatory, hvalid⟩ := bind_eq_ok_iff.mp hvalid
    obtain ⟨⟨⟩, hgroups, hvalid⟩ := bind_eq_ok_iff.mp hvalid
    cases held with
    | none => exact absurd hvalid throw_ne_ok
    | some keys => exact ⟨hmandatory, hgroups, keys, rfl, hvalid⟩
  · rintro ⟨hmandatory, hgroups, keys, rfl, htag⟩
    refine bind_eq_ok_iff.mpr ⟨(), hmandatory, ?_⟩
    exact bind_eq_ok_iff.mpr ⟨(), hgroups, htag⟩

end Context

end DietExchange
