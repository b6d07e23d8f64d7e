import DietExchange.Proofs.Connection.Move
import DietExchange.Proofs.Packet.Canonical
import DietExchange.Proofs.Packet.Seal

namespace DietExchange

/-- Whether the public key has the length that keys on its curve have. -/
def HostIdentity.HasCurveKey (identity : HostIdentity) : Prop :=
  identity.publicKey.length = identity.curve.publicKeyLength

/-- The keys that the library's key agreements load have it. -/
theorem HostIdentity.hasCurveKey_of_isStandard {identity : HostIdentity}
    (hstandard : identity.key.IsStandard) : identity.HasCurveKey :=
  hstandard.length_publicKey.1

theorem Curve.publicKeyLength_le (curve : Curve) : curve.publicKeyLength ≤ 133 := by
  cases curve <;> decide

/-- The content of an offer has two bytes for each suite. -/
theorem CipherOffer.length_encode (offer : CipherOffer) :
    offer.encode.length = 2 * offer.suites.length := by
  unfold encode
  induction offer.suites with
  | nil => rfl
  | cons suite rest ih =>
    rw [List.flatMap_cons, List.length_append, ih, length_wordBytes, List.length_cons]
    omega

namespace Parameter

theorem fitsIn_hostId {identity : HostIdentity} (hkey : identity.HasCurveKey) :
    (hostId (HostId.ofKey identity.curve identity.publicKey)).FitsIn 141 := by
  have hlength : identity.publicKey.length ≤ 133 :=
    hkey ▸ identity.curve.publicKeyLength_le
  refine ⟨(HostId.ofKey identity.curve identity.publicKey).layout, ?_, ?_⟩
  · refine ite_error_eq_ok_iff.mpr ⟨?_, rfl⟩
    change ¬(65535 < 2 + identity.publicKey.length ∨ 0x0fff < 0)
    omega
  · simp only [HostId.layout, HostId.ofKey, List.length_append, length_bigEndian, length_wordBytes,
      List.length_nil]
    omega

theorem fitsIn_hipCipher (offer : CipherOffer) : (hipCipher offer).FitsIn 16 := by
  refine ⟨offer.encode, rfl, ?_⟩
  have hcount := offer.length_le
  rw [offer.length_encode]
  unfold maxCipherSuites at hcount
  omega

theorem fitsIn_dhGroupList_single (group : DhGroup) :
    (dhGroupList (DhGroupList.single group)).FitsIn 1 :=
  ⟨_, rfl, Nat.le_refl 1⟩

theorem fitsIn_r1Counter (counter : UInt64) : (r1Counter counter).FitsIn 12 :=
  ⟨_, rfl, by simp⟩

theorem fitsIn_puzzle (p : Puzzle) : (puzzle p).FitsIn 20 := ⟨_, rfl, by simp⟩

theorem fitsIn_solution (s : Solution) : (solution s).FitsIn 36 := ⟨_, rfl, by simp⟩

theorem fitsIn_hipMac3 (tag : Block) : (hipMac3 tag.toList).FitsIn 16 := ⟨_, rfl, by simp⟩

end Parameter

namespace Context

variable {ctx : Context} {conn : Connection}

theorem isWellFormed_hostId (hkey : ctx.identity.HasCurveKey) :
    (Parameter.hostId (HostId.ofKey ctx.identity.curve ctx.identity.publicKey)).IsWellFormed :=
  ⟨hkey, (by decide : (0 : UInt8) < 16)⟩

section I1

theorem exists_encode_i1 (ctx : Context) (conn : Connection) :
    ∃ datagram, (ctx.i1 conn).encode = .ok datagram :=
  have hfits : List.Forall₂ Parameter.FitsIn (ctx.i1 conn).parameters [1] :=
    .cons (Parameter.fitsIn_dhGroupList_single _) .nil
  Packet.exists_encode_eq_ok _ hfits (by decide) (by decide)

theorem parse_i1 {datagram : List UInt8} (hencode : (ctx.i1 conn).encode = .ok datagram) :
    Packet.parse datagram = .ok (ctx.i1 conn).canonical :=
  Packet.parse_of_encode hencode fun id hmem => by simp [i1, groups, Packet.ofParameters] at hmem

end I1

section R1

variable {challenge : Block} {cookie : UInt16}

theorem exists_encode_r1 (hkey : ctx.identity.HasCurveKey) (conn : Connection) (challenge : Block)
    (cookie : UInt16) : ∃ datagram, (ctx.r1 conn challenge cookie).encode = .ok datagram :=
  have hfits : List.Forall₂ Parameter.FitsIn (ctx.r1 conn challenge cookie).parameters
      [12, 20, 141, 1, 1] :=
    .cons (Parameter.fitsIn_r1Counter _) <| .cons (Parameter.fitsIn_puzzle _) <|
      .cons (Parameter.fitsIn_hostId hkey) <| .cons ⟨_, rfl, Nat.le_refl 1⟩ <|
      .cons (Parameter.fitsIn_dhGroupList_single _) .nil
  Packet.exists_encode_eq_ok _ hfits (by decide) (by decide)

theorem parse_r1 (hkey : ctx.identity.HasCurveKey) {datagram : List UInt8}
    (hencode : (ctx.r1 conn challenge cookie).encode = .ok datagram) :
    Packet.parse datagram = .ok (ctx.r1 conn challenge cookie).canonical := by
  refine Packet.parse_of_encode hencode fun id hmem => ?_
  simp only [r1, hostId, groups, Packet.ofParameters, List.mem_cons, reduceCtorEq, false_or,
    Parameter.hostId.injEq, List.not_mem_nil, or_false] at hmem
  rw [hmem]
  exact isWellFormed_hostId hkey

theorem puzzle?_r1 : (ctx.r1 conn challenge cookie).canonical.puzzle? =
    some ⟨ctx.issuer.complexity, defaultLifetime, cookie, challenge⟩ :=
  (Packet.puzzle?_canonical _).trans rfl

theorem hostId?_r1 : (ctx.r1 conn challenge cookie).canonical.hostId? =
    some (HostId.ofKey ctx.identity.curve ctx.identity.publicKey) :=
  (Packet.hostId?_canonical _).trans rfl

end R1

section I2

variable {puzzle : Puzzle} {answer : Block} {key : List UInt8} {sealed : Packet}
  {echo : Option (List UInt8)}

/-- An I2 can be sealed under a key of the right length, and written unless something long is to be
    sent back. -/
theorem exists_seal_i2 (hcurve : ctx.identity.HasCurveKey) (conn : Connection) (puzzle : Puzzle)
    (answer : Block) (hkey : key.length = 16 ∨ key.length = 24 ∨ key.length = 32) :
    ∃ sealed datagram, (ctx.i2 conn puzzle answer).recalculateMac key = .ok sealed ∧
      sealed.encode = .ok datagram := by
  have hfits : List.Forall₂ Parameter.FitsIn (ctx.i2 conn puzzle answer).covered [36, 16, 0, 141] :=
    .cons (Parameter.fitsIn_solution _) <| .cons (Parameter.fitsIn_hipCipher _) <|
      .cons ⟨_, rfl, Nat.le_refl 0⟩ <| .cons (Parameter.fitsIn_hostId hcurve) .nil
  obtain ⟨tag, htag⟩ := Packet.exists_computeMac_eq_ok hfits (by decide) hkey
  have hseal : (ctx.i2 conn puzzle answer).recalculateMac key = .ok { ctx.i2 conn puzzle answer with
      parameters := (ctx.i2 conn puzzle answer).covered ++ [.hipMac3 tag.toList] } :=
    bind_eq_ok_iff.mpr ⟨tag, htag, rfl⟩
  obtain ⟨datagram, hencode⟩ := Packet.exists_encode_eq_ok { ctx.i2 conn puzzle answer with
      parameters := (ctx.i2 conn puzzle answer).covered ++ [.hipMac3 tag.toList] }
    (List.rel_append hfits (.cons (Parameter.fitsIn_hipMac3 tag) .nil)) (by decide) (by decide)
  exact ⟨_, datagram, hseal, hencode⟩

/-- What an I2 holds apart from its tag and what is sent back. -/
theorem parameter?_i2 (hseal : (ctx.i2 conn puzzle answer).recalculateMac key = .ok sealed)
    {kind : ParameterKind} (htag : kind ≠ .hipMac3) (hecho : kind ≠ .echoResponseUnsigned) :
    (sealed.withEcho echo).parameter? kind = (ctx.i2 conn puzzle answer).parameter? kind := by
  rw [← Packet.parameter?_of_recalculateMac hseal htag]
  cases echo with
  | none => rfl
  | some data => exact Packet.parameter?_push_echoResponse hecho

theorem parse_i2 (echo : Option (List UInt8)) (hcurve : ctx.identity.HasCurveKey)
    (hseal : (ctx.i2 conn puzzle answer).recalculateMac key = .ok sealed) {datagram : List UInt8}
    (hencode : (sealed.withEcho echo).encode = .ok datagram) :
    Packet.parse datagram = .ok (sealed.withEcho echo).canonical := by
  refine Packet.parse_of_encode hencode fun id hmem => ?_
  have hold : .hostId id ∈ sealed.parameters := by
    cases echo with
    | none => exact hmem
    | some data => simpa [Packet.withEcho, Packet.push] using hmem
  obtain ⟨front, old, back, tag, -, hparameters, rfl, -⟩ := Packet.recalculateMac_spec hseal
  have hi2 : .hostId id ∈ (ctx.i2 conn puzzle answer).parameters := by
    rw [hparameters]
    simpa using hold
  simp only [i2, hostId, emptyTag, Packet.ofParameters, List.mem_cons, reduceCtorEq, false_or,
    Parameter.hostId.injEq, List.not_mem_nil, or_false] at hi2
  rw [hi2]
  exact isWellFormed_hostId hcurve

theorem solution?_i2 (hseal : (ctx.i2 conn puzzle answer).recalculateMac key = .ok sealed) :
    (sealed.withEcho echo).canonical.solution? =
      some ⟨puzzle.k, puzzle.cookie, puzzle.challenge, answer⟩ := by
  rw [Packet.solution?_canonical, Packet.solution?, parameter?_i2 hseal (by simp) (by simp)]
  rfl

theorem hostId?_i2 (hseal : (ctx.i2 conn puzzle answer).recalculateMac key = .ok sealed) :
    (sealed.withEcho echo).canonical.hostId? =
      some (HostId.ofKey ctx.identity.curve ctx.identity.publicKey) := by
  rw [Packet.hostId?_canonical, Packet.hostId?, parameter?_i2 hseal (by simp) (by simp)]
  rfl

theorem hipCipher?_i2 (hseal : (ctx.i2 conn puzzle answer).recalculateMac key = .ok sealed) :
    (sealed.withEcho echo).canonical.hipCipher? =
      some (CipherOffer.ofList ctx.config.cipherSuites).canonical := by
  rw [Packet.hipCipher?_canonical, Packet.hipCipher?, parameter?_i2 hseal (by simp) (by simp)]
  rfl

theorem verifyMac_i2 (hseal : (ctx.i2 conn puzzle answer).recalculateMac key = .ok sealed) :
    (sealed.withEcho echo).canonical.verifyMac key = .ok () := by
  rw [Packet.verifyMac_canonical]
  cases echo with
  | none => exact Packet.verifyMac_of_recalculateMac hseal
  | some data =>
    exact (Packet.verifyMac_push_echoResponse key).trans (Packet.verifyMac_of_recalculateMac hseal)

theorem header_i2 (echo : Option (List UInt8))
    (hseal : (ctx.i2 conn puzzle answer).recalculateMac key = .ok sealed) :
    (sealed.withEcho echo).kind = .i2 ∧ (sealed.withEcho echo).sender = conn.host ∧
      (sealed.withEcho echo).receiver = conn.peer := by
  obtain ⟨front, old, back, tag, -, -, rfl, -⟩ := Packet.recalculateMac_spec hseal
  cases echo <;> exact ⟨rfl, rfl, rfl⟩

theorem checkMandatory_i2 (hseal : (ctx.i2 conn puzzle answer).recalculateMac key = .ok sealed) :
    (sealed.withEcho echo).canonical.checkMandatory = .ok () := by
  rw [Packet.checkMandatory_canonical, Packet.checkMandatory_eq_ok_iff, (header_i2 echo hseal).1]
  intro kind hmem
  by_cases htag : kind = .hipMac3
  · subst htag
    have hsome := Packet.isSome_parameter?_of_recalculateMac hseal
    cases echo with
    | none => exact hsome
    | some data => rwa [Packet.withEcho, Packet.parameter?_push_echoResponse (by simp)]
  · have hecho : kind ≠ .echoResponseUnsigned :=
      fun heq => by simp [heq, PacketKind.mandatory] at hmem
    rw [parameter?_i2 hseal htag hecho]
    simp only [PacketKind.mandatory, List.mem_cons, List.not_mem_nil, or_false] at hmem
    rcases hmem with rfl | rfl | rfl | rfl | rfl
    · rfl
    · rfl
    · rfl
    · rfl
    · exact absurd rfl htag

end I2

section R2

variable {key : List UInt8} {sealed : Packet}

theorem exists_seal_r2 (ctx : Context) (conn : Connection)
    (hkey : key.length = 16 ∨ key.length = 24 ∨ key.length = 32) :
    ∃ sealed datagram, (ctx.r2 conn).recalculateMac key = .ok sealed ∧
    sealed.encode = .ok datagram := by
  have hfits : List.Forall₂ Parameter.FitsIn (ctx.r2 conn).covered [0, 1] :=
    .cons ⟨_, rfl, Nat.le_refl 0⟩ <| .cons (Parameter.fitsIn_dhGroupList_single _) .nil
  obtain ⟨tag, htag⟩ := Packet.exists_computeMac_eq_ok hfits (by decide) hkey
  have hseal : (ctx.r2 conn).recalculateMac key = .ok { ctx.r2 conn with
      parameters := (ctx.r2 conn).covered ++ [.hipMac3 tag.toList] } :=
    bind_eq_ok_iff.mpr ⟨tag, htag, rfl⟩
  obtain ⟨datagram, hencode⟩ := Packet.exists_encode_eq_ok { ctx.r2 conn with
      parameters := (ctx.r2 conn).covered ++ [.hipMac3 tag.toList] }
    (List.rel_append hfits (.cons (Parameter.fitsIn_hipMac3 tag) .nil)) (by decide) (by decide)
  exact ⟨_, datagram, hseal, hencode⟩

theorem parse_r2 (hseal : (ctx.r2 conn).recalculateMac key = .ok sealed) {datagram : List UInt8}
    (hencode : sealed.encode = .ok datagram) : Packet.parse datagram = .ok sealed.canonical := by
  refine Packet.parse_of_encode hencode fun id hmem => ?_
  obtain ⟨front, old, back, tag, -, hparameters, rfl, -⟩ := Packet.recalculateMac_spec hseal
  have hr2 : .hostId id ∈ (ctx.r2 conn).parameters := by
    rw [hparameters]
    simpa using hmem
  simp [r2, groups, emptyTag, Packet.ofParameters] at hr2

theorem verifyMac_r2 (hseal : (ctx.r2 conn).recalculateMac key = .ok sealed) :
    sealed.canonical.verifyMac key = .ok () :=
  (Packet.verifyMac_canonical _ key).trans (Packet.verifyMac_of_recalculateMac hseal)

theorem header_r2 (hseal : (ctx.r2 conn).recalculateMac key = .ok sealed) :
    sealed.kind = .r2 ∧ sealed.sender = conn.host ∧ sealed.receiver = conn.peer := by
  obtain ⟨front, old, back, tag, -, -, rfl, -⟩ := Packet.recalculateMac_spec hseal
  exact ⟨rfl, rfl, rfl⟩

theorem checkMandatory_r2 (hseal : (ctx.r2 conn).recalculateMac key = .ok sealed) :
    sealed.canonical.checkMandatory = .ok () := by
  rw [Packet.checkMandatory_canonical, Packet.checkMandatory_eq_ok_iff, (header_r2 hseal).1]
  intro kind hmem
  by_cases htag : kind = .hipMac3
  · subst htag
    exact Packet.isSome_parameter?_of_recalculateMac hseal
  · rw [Packet.parameter?_of_recalculateMac hseal htag]
    simp only [PacketKind.mandatory, List.mem_cons, List.not_mem_nil, or_false] at hmem
    rcases hmem with rfl | rfl | rfl
    · rfl
    · rfl
    · exact absurd rfl htag

theorem dhGroupList?_r2 (hseal : (ctx.r2 conn).recalculateMac key = .ok sealed) :
    sealed.canonical.dhGroupList? = some (DhGroupList.single ctx.group).canonical := by
  rw [Packet.dhGroupList?_canonical, Packet.dhGroupList?,
    Packet.parameter?_of_recalculateMac hseal (by simp)]
  rfl

/-- The R2 with any tag, as anyone can write it. -/
def r2Under (ctx : Context) (conn : Connection) (tag : Block) : Packet :=
  .ofParameters .r2 conn.host conn.peer [.encryptedKey [], ctx.groups, .hipMac3 tag.toList]

theorem checkMandatory_r2Under (ctx : Context) (conn : Connection) (tag : Block) :
    (ctx.r2Under conn tag).canonical.checkMandatory = .ok () :=
  (Packet.checkMandatory_canonical _).mpr rfl

theorem dhGroupList?_r2Under (ctx : Context) (conn : Connection) (tag : Block) :
    (ctx.r2Under conn tag).canonical.dhGroupList? = some (DhGroupList.single ctx.group).canonical :=
  Packet.dhGroupList?_canonical _

/-- Under any key some tag is wrong. -/
theorem exists_forged_r2 (ctx : Context) (conn : Connection)
    (hkey : key.length = 16 ∨ key.length = 24 ∨ key.length = 32) : ∃ tag datagram,
    Packet.parse datagram = .ok (ctx.r2Under conn tag).canonical ∧
      (ctx.r2Under conn tag).canonical.verifyMac key = .error .badMac := by
  have hfits : List.Forall₂ Parameter.FitsIn (ctx.r2 conn).covered [0, 1] :=
    .cons ⟨_, rfl, Nat.le_refl 0⟩ <| .cons (Parameter.fitsIn_dhGroupList_single _) .nil
  obtain ⟨right, hright⟩ := Packet.exists_computeMac_eq_ok hfits (by decide) hkey
  obtain ⟨tag, hwrong⟩ : ∃ tag, right ≠ tag := by
    by_cases hzero : right = Block.zero
    · exact ⟨Block.ofNat 1, hzero ▸ by decide⟩
    · exact ⟨Block.zero, hzero⟩
  obtain ⟨datagram, hencode⟩ := Packet.exists_encode_eq_ok (ctx.r2Under conn tag)
    (List.rel_append hfits (.cons (Parameter.fitsIn_hipMac3 tag) .nil)) (by decide) (by decide)
  refine ⟨tag, datagram, Packet.parse_of_encode hencode fun id hmem => ?_, ?_⟩
  · simp [r2Under, groups, Packet.ofParameters] at hmem
  · rw [Packet.verifyMac_canonical]
    have hcompute : (ctx.r2Under conn tag).computeMac key = .ok right := hright
    have htag : right.toList ≠ tag.toList := fun heq => hwrong (Vector.toList_inj.mp heq)
    unfold Packet.verifyMac
    rw [show (ctx.r2Under conn tag).hipMac? = some tag.toList from rfl]
    dsimp only
    rw [if_neg (by simp [blockLength]), hcompute]
    exact if_neg htag

end R2

end Context

end DietExchange
