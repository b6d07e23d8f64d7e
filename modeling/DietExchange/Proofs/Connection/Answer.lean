import DietExchange.Proofs.Connection.Phase
import DietExchange.Proofs.Connection.Role

namespace DietExchange

/-! ### Sizes -/

/-- The size of a parameter on the wire, if it has a wire form. -/
def Parameter.wireLength (parameter : Parameter) : Nat :=
  match parameter.content with
  | .ok content => paddedLength content.length
  | .error _ => 0

/-- The size of a packet on the wire, if it has a wire form and no limit is set. -/
def Packet.wireLength (packet : Packet) : Nat :=
  headerLength + (packet.parameters.map Parameter.wireLength).sum

namespace Parameter

theorem wireLength_of_content {parameter : Parameter} {content : List UInt8}
    (hcontent : parameter.content = .ok content) : parameter.wireLength =
      paddedLength content.length := by
  rw [wireLength, hcontent]

theorem wireLength_solution (s : Solution) : (solution s).wireLength = paddedLength 36 := by
  rw [wireLength_of_content rfl]
  simp

theorem wireLength_hipCipher (offer : CipherOffer) :
    (hipCipher offer).wireLength = paddedLength (2 * offer.suites.length) := by
  rw [wireLength_of_content rfl, offer.length_encode]

theorem wireLength_hostId {identity : HostIdentity} (hkey : identity.HasCurveKey) :
    (hostId (HostId.ofKey identity.curve identity.publicKey)).wireLength =
      paddedLength (8 + identity.publicKey.length) := by
  obtain ⟨content, hcontent, -⟩ := fitsIn_hostId hkey
  obtain ⟨-, hlayout⟩ := ite_error_eq_ok_iff.mp hcontent
  obtain rfl := Except.ok.inj hlayout
  rw [wireLength_of_content hcontent]
  simp only [HostId.layout, HostId.ofKey, List.length_append, length_bigEndian, length_wordBytes,
    List.length_nil, Nat.add_zero]

theorem length_of_encode_eq {parameter : Parameter} {bytes : List UInt8}
    (hencode : parameter.encode = .ok bytes) : bytes.length = parameter.wireLength := by
  obtain ⟨content, hcontent, hbytes⟩ := bind_eq_ok_iff.mp hencode
  obtain ⟨-, hbytes⟩ := ite_error_eq_ok_iff.mp hbytes
  obtain rfl := Except.ok.inj hbytes
  rw [length_encodeTlv, wireLength_of_content hcontent]

theorem length_of_encodeAll_eq {parameters : List Parameter} {bytes : List UInt8}
    (hencode : encodeAll parameters = .ok bytes) :
    bytes.length = (parameters.map wireLength).sum := by
  induction parameters generalizing bytes with
  | nil =>
    obtain rfl := Except.ok.inj hencode
    rfl
  | cons parameter rest ih =>
    obtain ⟨first, hfirst, hrest⟩ := bind_eq_ok_iff.mp hencode
    obtain ⟨others, hothers, hbytes⟩ := bind_eq_ok_iff.mp hrest
    obtain rfl := pure_eq_ok_iff.mp hbytes
    rw [List.length_append, length_of_encode_eq hfirst, ih hothers, List.map_cons, List.sum_cons]

/-- A parameter whose content is not refused has a wire form if it is not larger than a packet. -/
theorem exists_encode_of_wireLength_le {parameter : Parameter}
    (hcontent : ∃ content, parameter.content = .ok content)
    (hlength : parameter.wireLength ≤ maxPacketLength) : ∃ bytes, parameter.encode = .ok bytes := by
  obtain ⟨content, hcontent⟩ := hcontent
  rw [wireLength_of_content hcontent] at hlength
  have hle : content.length ≤ 65535 := by
    unfold paddedLength maxPacketLength at hlength
    omega
  exact ⟨_,
    bind_eq_ok_iff.mpr ⟨content, hcontent, ite_error_eq_ok_iff.mpr ⟨Nat.not_lt.mpr hle, rfl⟩⟩⟩

theorem exists_encodeAll_of_wireLength_le {parameters : List Parameter}
    (hcontents : ∀ parameter ∈ parameters, ∃ content, parameter.content = .ok content)
    (hlength : (parameters.map wireLength).sum ≤ maxPacketLength) :
    ∃ bytes, encodeAll parameters = .ok bytes := by
  induction parameters with
  | nil => exact ⟨[], rfl⟩
  | cons parameter rest ih =>
    rw [List.map_cons, List.sum_cons] at hlength
    obtain ⟨first, hfirst⟩ :=
      exists_encode_of_wireLength_le (hcontents parameter List.mem_cons_self)
      (Nat.le_trans (Nat.le_add_right _ _) hlength)
    obtain ⟨others, hothers⟩ := ih (fun other hmem => hcontents other (List.mem_cons_of_mem _ hmem))
      (Nat.le_trans (Nat.le_add_left _ _) hlength)
    exact ⟨first ++ others,
      bind_eq_ok_iff.mpr ⟨first, hfirst, bind_eq_ok_iff.mpr ⟨others, hothers, rfl⟩⟩⟩

end Parameter

namespace Packet

/-- If no parameter is refused, a packet has a wire form exactly if it is not too large. -/
theorem exists_encode_iff {packet : Packet}
    (hcontents : ∀ parameter ∈ packet.parameters, ∃ content, parameter.content = .ok content) :
    (∃ bytes, packet.encode = .ok bytes) ↔ packet.wireLength ≤ maxPacketLength := by
  constructor
  · rintro ⟨bytes, hencode⟩
    obtain ⟨body, hbody, hfits⟩ := bind_eq_ok_iff.mp hencode
    obtain ⟨hsize, -⟩ := ite_error_eq_ok_iff.mp hfits
    rw [wireLength, ← Parameter.length_of_encodeAll_eq hbody]
    exact Nat.not_lt.mp hsize
  · intro hlength
    obtain ⟨body, hbody⟩ := Parameter.exists_encodeAll_of_wireLength_le hcontents
      (Nat.le_trans (Nat.le_add_left _ _) hlength)
    rw [wireLength, ← Parameter.length_of_encodeAll_eq hbody] at hlength
    exact ⟨_,
      bind_eq_ok_iff.mpr ⟨body, hbody, ite_error_eq_ok_iff.mpr ⟨Nat.not_lt.mpr hlength, rfl⟩⟩⟩

theorem wireLength_push (packet : Packet) (parameter : Parameter) :
    (packet.push parameter).wireLength = packet.wireLength + parameter.wireLength := by
  simp only [wireLength, push, List.map_append, List.map_cons, List.map_nil, List.sum_append,
    List.sum_cons, List.sum_nil, Nat.add_zero, Nat.add_assoc]

/-- A tag in the place of another of its size does not change the size of a packet. -/
theorem wireLength_of_recalculateMac {packet sealed : Packet} {key : List UInt8}
    (hseal : packet.recalculateMac key = .ok sealed)
    (htags : ∀ tag, .hipMac3 tag ∈ packet.parameters → tag.length = 16) :
    sealed.wireLength = packet.wireLength := by
  obtain ⟨front, old, back, tag, -, hparameters, rfl, -⟩ := recalculateMac_spec hseal
  have hold : old.length = 16 := htags old (hparameters ▸ by simp)
  have hsame : (Parameter.hipMac3 tag.toList).wireLength = (Parameter.hipMac3 old).wireLength := by
    simp only [Parameter.wireLength, Parameter.content, Block.length_toList, hold]
  simp only [wireLength, hparameters, List.map_append, List.map_cons, hsame]

/-- Nor does it make for a parameter that is refused. -/
theorem content_of_recalculateMac {packet sealed : Packet} {key : List UInt8}
    (hseal : packet.recalculateMac key = .ok sealed)
    (hcontents : ∀ parameter ∈ packet.parameters, ∃ content, parameter.content = .ok content) :
    ∀ parameter ∈ sealed.parameters, ∃ content, parameter.content = .ok content := by
  obtain ⟨front, old, back, tag, -, hparameters, rfl, -⟩ := recalculateMac_spec hseal
  intro parameter hmem
  simp only [List.mem_append, List.mem_cons] at hmem
  rcases hmem with hfront | rfl | hback
  · exact hcontents parameter (hparameters ▸ by simp [hfront])
  · exact ⟨_, rfl⟩
  · exact hcontents parameter (hparameters ▸ by simp [hback])

end Packet

namespace Context

/-- The size of what is sent back. -/
def echoLength : Option (List UInt8) → Nat
  | some data => paddedLength data.length
  | none => 0

/-- The size of our I2 with this sent back: the header, SOLUTION, HIP_CIPHER, an empty
    ENCRYPTED_KEY, HOST_ID, the tag, and what is sent back. -/
def i2Length (ctx : Context) (echo : Option (List UInt8)) : Nat :=
  headerLength + paddedLength 36 + paddedLength
    (2 * (ctx.config.cipherSuites.take maxCipherSuites).length) +
    paddedLength 0 + paddedLength (8 + ctx.identity.publicKey.length) + paddedLength blockLength +
    echoLength echo

variable {ctx : Context} {puzzle : Puzzle} {answer : Block} {key : List UInt8} {sealed : Packet}

theorem content_i2 (hcurve : ctx.identity.HasCurveKey) (conn : Connection) (puzzle : Puzzle)
    (answer : Block) :
    ∀ parameter ∈ (ctx.i2 conn puzzle answer).parameters, ∃ content, parameter.content =
      .ok content := by
  intro parameter hmem
  simp only [i2, Packet.ofParameters, List.mem_cons, List.not_mem_nil, or_false] at hmem
  rcases hmem with rfl | rfl | rfl | rfl | rfl
  · exact ⟨_, rfl⟩
  · exact ⟨_, rfl⟩
  · exact ⟨_, rfl⟩
  · obtain ⟨content, hcontent, -⟩ := Parameter.fitsIn_hostId hcurve
    exact ⟨content, hcontent⟩
  · exact ⟨_, rfl⟩

theorem wireLength_i2 (hcurve : ctx.identity.HasCurveKey) (conn : Connection) (puzzle : Puzzle)
    (answer : Block) : (ctx.i2 conn puzzle answer).wireLength = ctx.i2Length none := by
  have hkey : (Parameter.encryptedKey []).wireLength = paddedLength 0 := rfl
  have htag : emptyTag.wireLength = paddedLength blockLength := by
    rw [emptyTag, Parameter.wireLength_of_content rfl, List.length_replicate]
  simp only [Packet.wireLength, i2, Packet.ofParameters, List.map_cons, List.map_nil, List.sum_cons,
    List.sum_nil, hostId, Parameter.wireLength_solution, Parameter.wireLength_hipCipher, hkey, htag,
    Parameter.wireLength_hostId hcurve, i2Length, echoLength, CipherOffer.ofList, Nat.add_zero,
    Nat.add_assoc]

/-- Whether our I2 can be written is a matter of its size. -/
theorem exists_encode_i2_iff (hcurve : ctx.identity.HasCurveKey) {conn : Connection}
    (hseal : (ctx.i2 conn puzzle answer).recalculateMac key = .ok sealed)
    (echo : Option (List UInt8)) : (∃ datagram, (sealed.withEcho echo).encode = .ok datagram) ↔
      ctx.i2Length echo ≤ maxPacketLength := by
  have htags : ∀ tag, .hipMac3 tag ∈ (ctx.i2 conn puzzle answer).parameters → tag.length = 16 := by
    intro tag hmem
    simp only [i2, Packet.ofParameters, hostId, emptyTag, List.mem_cons, reduceCtorEq, false_or,
      Parameter.hipMac3.injEq, List.not_mem_nil, or_false] at hmem
    rw [hmem, List.length_replicate]
    rfl
  have hcontents := Packet.content_of_recalculateMac hseal (content_i2 hcurve conn puzzle answer)
  have hlength : sealed.wireLength = ctx.i2Length none :=
    (Packet.wireLength_of_recalculateMac hseal htags).trans
      (wireLength_i2 hcurve conn puzzle answer)
  cases echo with
  | none => rw [Packet.withEcho, Packet.exists_encode_iff hcontents, hlength]
  | some data =>
    have hcontentsEcho : ∀ parameter ∈ (sealed.push (.echoResponseUnsigned data)).parameters,
        ∃ content, parameter.content = .ok content := by
      intro parameter hmem
      rcases List.mem_append.mp hmem with hold | hnew
      · exact hcontents parameter hold
      · rw [List.mem_singleton.mp hnew]
        exact ⟨data, rfl⟩
    rw [Packet.withEcho, Packet.exists_encode_iff hcontentsEcho, Packet.wireLength_push, hlength]
    rfl

/-- What is sent back is what was to be. -/
theorem echoResponse?_i2 {conn : Connection}
    (hseal : (ctx.i2 conn puzzle answer).recalculateMac key = .ok sealed)
    (echo : Option (List UInt8)) : (sealed.withEcho echo).canonical.echoResponse? = echo := by
  have hnone : sealed.parameter? .echoResponseUnsigned = none :=
    (Packet.parameter?_of_recalculateMac hseal (by simp)).trans rfl
  rw [Packet.echoResponse?, Packet.parameter?_canonical]
  cases echo with
  | none => rw [Packet.withEcho, hnone]; rfl
  | some data =>
    have hlast : (sealed.push (.echoResponseUnsigned data)).parameter? .echoResponseUnsigned =
        some (.echoResponseUnsigned data) := by
      unfold Packet.parameter? at hnone ⊢
      rw [Packet.push, List.find?_append, hnone]
      rfl
    rw [Packet.withEcho, hlast]
    rfl

end Context

/-! ### What solving a puzzle comes to -/

/-- Whether a packet is the I2 that answers a puzzle between these hosts with this J: it has what
    the puzzle came with, its tag is one under these keys, and it sends back what was asked for. -/
structure Packet.Answers (i2 : Packet) (host peer : Hit) (puzzle : Puzzle) (keys : KeySet)
    (echo : Option (List UInt8)) (answer : Block) : Prop where
  kind : i2.kind = .i2
  sender : i2.sender = host
  receiver : i2.receiver = peer
  solution : i2.solution? = some ⟨puzzle.k, puzzle.cookie, puzzle.challenge, answer⟩
  echo : i2.echoResponse? = echo
  tag : i2.verifyMac keys.initiator.integrity = .ok ()

theorem Context.answers_i2 {ctx : Context} {conn : Connection} {puzzle : Puzzle} {answer : Block}
    {keys : KeySet} {sealed : Packet}
    (hseal : (ctx.i2 conn puzzle answer).recalculateMac keys.initiator.integrity = .ok sealed)
    (echo : Option (List UInt8)) :
    (sealed.withEcho echo).canonical.Answers conn.host conn.peer puzzle keys echo answer where
  kind := (header_i2 echo hseal).1
  sender := (header_i2 echo hseal).2.1
  receiver := (header_i2 echo hseal).2.2
  solution := solution?_i2 hseal
  echo := echoResponse?_i2 hseal echo
  tag := verifyMac_i2 hseal

namespace Turn

variable {turn : Turn} {ctx : Context} {pending : PendingAnswer} {answer : Block}

/-- A step that comes upon a J sends the I2 if it can be written, and otherwise gives the puzzle
    up. -/
theorem conn_solveStep (hpending : turn.conn.pending = some pending)
    (hanswer : (pending.search.step ctx.config.solveBatch turn.rng).answer = some answer) :
    (∃ sealed datagram, (ctx.i2 turn.conn pending.puzzle answer).recalculateMac
        pending.keys.initiator.integrity = .ok sealed ∧
      (sealed.withEcho pending.echo).encode = .ok datagram ∧
      (turn.solveStep ctx).1.conn = turn.conn.conclude pending.keys datagram) ∨
    ((∀ sealed datagram, (ctx.i2 turn.conn pending.puzzle answer).recalculateMac
        pending.keys.initiator.integrity = .ok sealed →
      (sealed.withEcho pending.echo).encode ≠ .ok datagram) ∧
      (turn.solveStep ctx).1.conn = { turn.conn with pending := none }) := by
  unfold solveStep
  rw [hpending]
  dsimp only
  rw [hanswer]
  dsimp only
  split
  · rename_i after hsend
    obtain ⟨sealed, datagram, hseal, hencode, hconn⟩ := sendI2_eq_ok hsend
    exact .inl ⟨sealed, datagram, hseal, hencode, hconn⟩
  · rename_i error hsend
    exact .inr ⟨fun sealed datagram hseal => encode_ne_ok_of_sendI2_eq_error hsend hseal, rfl⟩

variable (hcurve : ctx.identity.HasCurveKey) (hpending : turn.conn.pending = some pending)
  (hanswer : (pending.search.step ctx.config.solveBatch turn.rng).answer = some answer)
include hcurve hpending hanswer

/-- With a J, an I2 that is not too large is sent, and the keys are held from then on. -/
theorem solveStep_of_fits (hkey : Config.IsKeyLength pending.keys.initiator.integrity.length)
    (hfits : ctx.i2Length pending.echo ≤ maxPacketLength) :
    ∃ i2 datagram, Packet.parse datagram = .ok i2 ∧
      i2.Answers turn.conn.host turn.conn.peer pending.puzzle pending.keys pending.echo answer ∧
      (turn.solveStep ctx).1.conn = turn.conn.conclude pending.keys datagram := by
  rcases conn_solveStep hpending hanswer with ⟨sealed, datagram, hseal, hencode, hconn⟩ | ⟨hlost, -⟩
  · exact ⟨_, datagram, Context.parse_i2 pending.echo hcurve hseal hencode,
      Context.answers_i2 hseal pending.echo, hconn⟩
  · obtain ⟨sealed, -, hseal, -⟩ :=
      Context.exists_seal_i2 hcurve turn.conn pending.puzzle answer hkey
    obtain ⟨datagram, hencode⟩ := (Context.exists_encode_i2_iff hcurve hseal pending.echo).mpr hfits
    exact absurd hencode (hlost sealed datagram hseal)

/-- With a J, an I2 that is too large is not sent, and the puzzle is gone. -/
theorem solveStep_of_exceeds (hexceeds : maxPacketLength < ctx.i2Length pending.echo) :
    (turn.solveStep ctx).1.conn = { turn.conn with pending := none } := by
  rcases conn_solveStep hpending hanswer with ⟨sealed, datagram, hseal, hencode, -⟩ | ⟨-, hconn⟩
  · have hfits := (Context.exists_encode_i2_iff hcurve hseal pending.echo).mp ⟨datagram, hencode⟩
    omega
  · exact hconn

end Turn

namespace Connection

variable {ctx : Context} {stimulus : Stimulus} {conn after : Connection} {puzzle : Puzzle}
  {keys : KeySet} {echo : Option (List UInt8)}

theorem Works.settled (hworks : conn.Works puzzle keys echo) :
    conn.settled.Works puzzle keys echo :=
  ⟨hworks.state, hworks.pending⟩

theorem isSolving_of_works (hworks : conn.Works puzzle keys echo) : conn.isSolving := by
  obtain ⟨search, -, hpending⟩ := hworks.pending
  rw [isSolving, hpending]
  rfl

/-- As long as a puzzle is being solved it is the same one. -/
theorem Works.move (hworks : conn.Works puzzle keys echo) (hmove : conn.Move ctx stimulus after)
    (hsolving : after.isSolving) : after.Works puzzle keys echo := by
  obtain ⟨search, hfor, hpending⟩ := hworks.pending
  have hstate := hworks.state
  cases hmove with
  | ignore | wait | rest => exact hworks
  | initiate hother | answerI1 hother | resendR2 hother | acceptR2 hother =>
    cases hstate.symm.trans hother
  | answerI2AsI1 => simp [isSolving, holdTo, transmit, pending_moveTo, hstate] at hsolving
  | takeUpR1 _ _ hidle | resend _ hidle => cases hidle.symm.trans hpending
  | answerI2 hanswers => exact absurd hstate hanswers.state_ne
  | establish | giveUp => simp [isSolving, emit, pending_moveTo, hstate] at hsolving
  | search hfound =>
    obtain rfl := Option.some.inj (hfound.symm.trans hpending)
    exact ⟨hstate, _, hfor.step _ _, rfl⟩
  | solve => simp [isSolving, conclude, transmit, pending_moveTo] at hsolving
  | lose => cases hsolving

/-- An R1 with which solving begins was valid, and its puzzle is the one being solved. -/
theorem AwaitsR1.works (hawaits : conn.AwaitsR1) {packet : Packet}
    (hmove : conn.Move ctx (.packet packet) after) (hsolving : after.isSolving) :
    ∃ puzzle keys, ctx.validateR1 conn.host conn.peer packet = .ok (puzzle, keys) ∧
      after.Works puzzle keys packet.echoRequest? := by
  have hstate := hawaits.state
  have hidle := hawaits.pending
  cases hmove with
  | ignore => simp [isSolving, hidle] at hsolving
  | answerI1 hother | resendR2 hother | acceptR2 hother => cases hstate.symm.trans hother
  | answerI2AsI1 => simp [isSolving, holdTo, transmit, pending_moveTo, hstate] at hsolving
  | answerI2 hanswers => exact absurd hstate hanswers.state_ne
  | @takeUpR1 _ _ puzzle keys search _ _ _ hvalid hstart =>
    obtain ⟨-, hsearch⟩ := ite_error_eq_ok_iff.mp hstart
    obtain rfl := Except.ok.inj hsearch
    exact ⟨puzzle, keys, hvalid, hstate, _, ⟨rfl, rfl, rfl, rfl⟩, rfl⟩

end Connection

end DietExchange
