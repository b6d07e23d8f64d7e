import DietExchange.Proofs.Engine.Gate
import Mathlib.Data.List.Find

namespace DietExchange

namespace Packet

/-- A parameter of a covered kind is looked up among the covered ones. -/
theorem parameter?_eq_find?_covered (packet : Packet) {kind : ParameterKind}
    (hcovered : kind.IsCovered) :
    packet.parameter? kind = packet.covered.find? fun parameter => parameter.kind = kind := by
  rw [covered, List.find?_filter, parameter?]
  congr 1
  funext parameter
  by_cases hkind : parameter.kind = kind
  · simp [hkind, hcovered]
  · simp [hkind]

/-- The first tag is there if its content is. -/
theorem isNone_parameter?_hipMac3 (packet : Packet) :
    (packet.parameter? .hipMac3).isNone = packet.hipMac?.isNone := by
  unfold hipMac?
  cases hfind : packet.parameter? .hipMac3 with
  | none => rfl
  | some parameter =>
    have hkind : parameter.kind = .hipMac3 := by simpa using List.find?_some hfind
    cases parameter <;> simp_all [Parameter.kind]

/-- What an I2 or an R2 must hold is covered, but for the tag itself. -/
theorem isCovered_of_mem_mandatory {kind : PacketKind} (hkind : kind = .i2 ∨ kind = .r2)
    {mandatory : ParameterKind} (hmem : mandatory ∈ kind.mandatory) :
    mandatory.IsCovered ∨ mandatory = .hipMac3 := by
  rcases hkind with rfl | rfl <;> revert mandatory <;> decide

namespace SameSigned

variable {packet other : Packet} (hsame : packet.SameSigned other)
include hsame

theorem parameter?_eq {kind : ParameterKind} (hcovered : kind.IsCovered) :
    packet.parameter? kind = other.parameter? kind := by
  rw [parameter?_eq_find?_covered packet hcovered, parameter?_eq_find?_covered other hcovered,
    hsame.covered]

theorem solution?_eq : packet.solution? = other.solution? := by
  unfold solution?
  rw [hsame.parameter?_eq (by decide)]

theorem hostId?_eq : packet.hostId? = other.hostId? := by
  unfold hostId?
  rw [hsame.parameter?_eq (by decide)]

theorem hipCipher?_eq : packet.hipCipher? = other.hipCipher? := by
  unfold hipCipher?
  rw [hsame.parameter?_eq (by decide)]

theorem dhGroupList?_eq : packet.dhGroupList? = other.dhGroupList? := by
  unfold dhGroupList?
  rw [hsame.parameter?_eq (by decide)]

theorem require_eq {α : Type} (kind : ParameterKind) (value : Option α) :
    packet.require kind value = other.require kind value := by
  unfold require
  rw [hsame.kind]

/-- The same parameter is missing first, if any is. -/
theorem checkMandatory_eq (hkind : packet.kind = .i2 ∨ packet.kind = .r2) :
    packet.checkMandatory = other.checkMandatory := by
  have hmissing : ∀ kind ∈ packet.kind.mandatory,
      (packet.parameter? kind).isNone = (other.parameter? kind).isNone := by
    intro kind hmem
    rcases isCovered_of_mem_mandatory hkind hmem with hcovered | rfl
    · rw [hsame.parameter?_eq hcovered]
    · rw [isNone_parameter?_hipMac3, isNone_parameter?_hipMac3, hsame.tag]
  have hfind : packet.kind.mandatory.find? (fun kind => (packet.parameter? kind).isNone) =
      packet.kind.mandatory.find? (fun kind => (other.parameter? kind).isNone) :=
    List.find?_congr hmissing
  unfold checkMandatory
  rw [hfind, hsame.kind]

end SameSigned

end Packet

section Turn

variable {packet other : Packet} (hsame : packet.SameSigned other)
  (hkind : packet.kind = .i2 ∨ packet.kind = .r2)
include hsame hkind

theorem Context.validateI2_eq_of_sameSigned (ctx : Context) (host peer : Hit) :
    ctx.validateI2 host peer packet = ctx.validateI2 host peer other := by
  unfold Context.validateI2
  simp only [hsame.checkMandatory_eq hkind, hsame.solution?_eq, hsame.hostId?_eq,
    hsame.hipCipher?_eq, hsame.require_eq, hsame.verifyMac_eq]

theorem Context.validateR2_eq_of_sameSigned (ctx : Context) (keys : Option KeySet) :
    ctx.validateR2 keys packet = ctx.validateR2 keys other := by
  unfold Context.validateR2
  simp only [hsame.checkMandatory_eq hkind, hsame.dhGroupList?_eq, hsame.verifyMac_eq]

theorem Turn.answerI1_eq_of_sameSigned (turn : Turn) (ctx : Context) :
    turn.answerI1 ctx packet = turn.answerI1 ctx other := by
  unfold Turn.answerI1
  rw [hsame.checkMandatory_eq hkind, hsame.dhGroupList?_eq]

/-- Whatever state a connection is in, it makes the same of both packets. -/
theorem Turn.receive_eq_of_sameSigned (turn : Turn) (ctx : Context) :
    turn.receive ctx packet = turn.receive ctx other := by
  have hi1 := turn.answerI1_eq_of_sameSigned hsame hkind ctx
  have hi2 : turn.answerI2 ctx packet = turn.answerI2 ctx other := by
    unfold Turn.answerI2
    rw [ctx.validateI2_eq_of_sameSigned hsame hkind]
  have hagain : turn.answerI2Again ctx packet = turn.answerI2Again ctx other := by
    unfold Turn.answerI2Again
    rw [ctx.validateI2_eq_of_sameSigned hsame hkind]
  have hr2 : turn.acceptR2 ctx packet = turn.acceptR2 ctx other := by
    unfold Turn.acceptR2
    rw [ctx.validateR2_eq_of_sameSigned hsame hkind]
  unfold Turn.receive
  rw [hi1, hi2, hagain, hr2, ← hsame.kind]
  rcases hkind with hkind | hkind <;> rw [hkind] <;> cases turn.conn.state <;> rfl

end Turn

namespace Engine

/-- What the tag of an I2 or an R2 does not cover has no influence: the engine comes to the same
    state, with the same answers queued, and gives the same result. -/
theorem handlePacket_eq_of_sameSigned (engine : Engine) {datagram variant : List UInt8}
    {packet other : Packet} (hparse : Packet.parse datagram = .ok packet)
    (hvariant : Packet.parse variant = .ok other) (hkind : packet.kind = .i2 ∨ packet.kind = .r2)
    (hsame : packet.SameSigned other) (source : Address) (now : Nat) :
    engine.handlePacket datagram source now = engine.handlePacket variant source now := by
  have hdeliver : ∀ (engine : Engine) conn isNew,
      engine.deliver conn isNew packet = engine.deliver conn isNew other := by
    intro engine conn isNew
    unfold deliver
    rw [Turn.receive_eq_of_sameSigned hsame hkind, hsame.kind, hsame.sender]
  have haccept : ∀ engine : Engine, engine.accept packet source = engine.accept other source := by
    intro engine
    unfold accept
    simp only [hdeliver, hsame.kind, hsame.sender]
  unfold handlePacket
  rw [hparse, hvariant]
  dsimp only
  rw [haccept, hsame.receiver, hsame.kind]

/-- An I2 that a sample host takes for an I1, and the same with an echo in front of it and a second
    tag and another echo behind: both move it to R2_SENT, and it is the same engine afterwards. -/
theorem exists_sameSigned :
    ∃ (engine : Engine) (datagram variant : List UInt8) (packet other : Packet),
    Reachable engine ∧ Packet.parse datagram = .ok packet ∧ Packet.parse variant = .ok other ∧
    (packet.kind = .i2 ∨ packet.kind = .r2) ∧ packet.SameSigned other ∧ packet ≠ other ∧
    engine.handlePacket datagram (.ofHost 2) 0 = engine.handlePacket variant (.ofHost 2) 0 ∧
    (engine.handlePacket variant (.ofHost 2) 0).engine.state? packet.sender = some .r2Sent := by
  obtain ⟨engine, hreachable, hopen, hidentity, conn, hfind, hawaits⟩ := SampleHost.exists_asking
  have hkey : engine.identity.HasCurveKey := hidentity ▸ SampleHost.hasCurveKey 1
  let theirs : Context := ⟨SampleHost.config, SampleHost.identity 2, engine.issuer, 0⟩
  let asking := Connection.fresh (SampleHost.identity 2).hit (SampleHost.identity 1).hit (.ofHost 2)
  let i2 := theirs.i2 asking ⟨0, 0, 0, Block.zero⟩ Block.zero
  let padded : Packet := { i2 with parameters := .echoRequestUnsigned [1] :: (i2.parameters ++
    [.hipMac3 [], .echoResponseUnsigned [2]]) }
  obtain ⟨datagram, hparse⟩ := exists_forged_i2 theirs (SampleHost.hasCurveKey 2) asking
    ⟨0, 0, 0, Block.zero⟩ Block.zero
  obtain ⟨variant, hvariant⟩ : ∃ variant, Packet.parse variant = .ok padded.canonical := by
    have hfits : List.Forall₂ Parameter.FitsIn padded.parameters [1, 36, 16, 0, 141, 16, 0, 1] :=
      .cons ⟨_, rfl, Nat.le_refl 1⟩ <| .cons (Parameter.fitsIn_solution _) <|
        .cons (Parameter.fitsIn_hipCipher _) <| .cons ⟨_, rfl, Nat.le_refl 0⟩ <|
        .cons (Parameter.fitsIn_hostId (SampleHost.hasCurveKey 2)) <|
        .cons (Parameter.fitsIn_hipMac3 Block.zero) <| .cons ⟨_, rfl, Nat.le_refl 0⟩ <|
        .cons ⟨_, rfl, Nat.le_refl 1⟩ .nil
    obtain ⟨variant, hencode⟩ := padded.exists_encode_eq_ok hfits (by decide) (by decide)
    refine ⟨variant, Packet.parse_of_encode hencode fun id hmem => ?_⟩
    simp only [padded, i2, Context.i2, Context.hostId, Context.emptyTag, Packet.ofParameters,
      List.mem_cons, List.mem_append, reduceCtorEq, false_or, Parameter.hostId.injEq,
      List.not_mem_nil, or_false] at hmem
    rw [hmem]
    exact Context.isWellFormed_hostId (SampleHost.hasCurveKey 2)
  have hsame : i2.canonical.SameSigned padded.canonical := ⟨rfl, rfl, rfl, rfl, rfl, rfl⟩
  have heq := handlePacket_eq_of_sameSigned engine hparse hvariant (.inl rfl) hsame (.ofHost 2) 0
  obtain ⟨-, hr2Sent, -⟩ := i2_is_answered_as_i1 hreachable hopen hkey hparse rfl
    (congrArg HostIdentity.hit hidentity).symm ((Packet.checkMandatory_canonical _).mpr rfl)
    (by rw [Packet.dhGroupList?_canonical]; rfl) (state?_of_find? hfind hawaits.state) (.ofHost 2) 0
  refine ⟨engine, datagram, variant, _, _, hreachable, hparse, hvariant, .inl rfl, hsame, ?_, heq,
    heq ▸ hr2Sent⟩
  intro hequal
  have hlength : 5 = 8 := congrArg (fun packet : Packet => packet.parameters.length) hequal
  cases hlength

end Engine

end DietExchange
