import DietExchange.Proofs.Engine.Waiting

namespace DietExchange

/-- Whether a datagram is a packet of this kind for this receiver. -/
def Outgoing.isOf (out : Outgoing) (kind : PacketKind) (receiver : Hit) : Bool :=
  match Packet.parse out.datagram with
  | .ok packet => packet.kind = kind ∧ packet.receiver = receiver
  | .error _ => false

theorem Outgoing.isOf_iff {out : Outgoing} {packet : Packet} {kind : PacketKind} {receiver : Hit}
    (hparse : Packet.parse out.datagram = .ok packet) :
    out.isOf kind receiver = true ↔ packet.kind = kind ∧ packet.receiver = receiver := by
  rw [isOf, hparse, decide_eq_true_iff]

theorem Outgoing.isFor_of_isOf {out : Outgoing} {kind : PacketKind} {receiver : Hit}
    (hof : out.isOf kind receiver = true) : out.IsFor receiver := by
  unfold isOf at hof
  split at hof
  · rename_i packet hparse
    exact ⟨packet, hparse, (decide_eq_true_iff.mp hof).2⟩
  · cases hof

/-- The first packet of this kind for this receiver in a queue. -/
def packetTo (receiver : Hit) (kind : PacketKind) (queue : List Outgoing) : List UInt8 :=
  ((queue.find? (·.isOf kind receiver)).map Outgoing.datagram).getD []

theorem packetTo_eq {receiver : Hit} {kind : PacketKind} {queue : List Outgoing}
    {datagram : List UInt8} {packet : Packet} (hparse : Packet.parse datagram = .ok packet)
    (hkind : packet.kind = kind) (hreceiver : packet.receiver = receiver) (hmem : ∃ out ∈ queue,
      out.datagram = datagram)
    (honly : ∀ out ∈ queue, out.IsFor receiver → out.datagram = datagram) :
    packetTo receiver kind queue = datagram := by
  obtain ⟨out, hout, rfl⟩ := hmem
  have hof : out.isOf kind receiver = true := (Outgoing.isOf_iff hparse).mpr ⟨hkind, hreceiver⟩
  obtain ⟨found, hfound⟩ : ∃ found, queue.find? (·.isOf kind receiver) = some found :=
    Option.isSome_iff_exists.mp (List.find?_isSome.mpr ⟨out, hout, hof⟩)
  have heq := honly found (List.mem_of_find?_eq_some hfound)
    (Outgoing.isFor_of_isOf
      (List.find?_some (p := fun out : Outgoing => out.isOf kind receiver) hfound))
  rw [packetTo, hfound]
  exact heq

theorem packetTo_singleton {receiver : Hit} {kind : PacketKind} {address : Address}
    {datagram : List UInt8} {packet : Packet} (hparse : Packet.parse datagram = .ok packet)
    (hkind : packet.kind = kind) (hreceiver : packet.receiver = receiver) :
    packetTo receiver kind [⟨address, datagram⟩] = datagram := by
  refine packetTo_eq hparse hkind hreceiver ⟨_, List.mem_singleton_self _, rfl⟩ fun out hout _ => ?_
  rw [List.mem_singleton.mp hout]

/-- A packet that is found in a queue was queued. -/
theorem mem_of_parse_packetTo {receiver : Hit} {kind : PacketKind} {queue : List Outgoing}
    {packet : Packet} (hparse : Packet.parse (packetTo receiver kind queue) = .ok packet) :
    ∃ out ∈ queue, out.datagram = packetTo receiver kind queue := by
  unfold packetTo at hparse ⊢
  cases hfound : queue.find? (·.isOf kind receiver) with
  | none =>
    rw [hfound] at hparse
    cases hparse
  | some out => exact ⟨out, List.mem_of_find?_eq_some hfound, rfl⟩

/-- Where a datagram comes from and when. -/
structure Arrival where
  source : Address
  now : Nat

/-- A handshake between two engines: how it begins, how its packets arrive, when the hold is seen to
    end, and the calls made of both engines before, between and after. -/
structure Handshake where
  initiator : Engine
  responder : Engine
  address : Address
  start : Nat
  i1 : Arrival
  r1 : Arrival
  i2 : Arrival
  r2 : Arrival
  holdEnd : Nat
  /-- The order in which the responder visits its connections when it sees the hold end. -/
  visits : List Hit
  /-- Calls made of the initiator until the R1 arrives, until the R2 arrives, and after that. -/
  waiting : List Call
  solving : List Call
  finished : List Call
  /-- Calls made of the responder until the I1 arrives, until the I2 arrives, until the hold is seen
      to end, and after that. -/
  idle : List Call
  issued : List Call
  holding : List Call
  settled : List Call

namespace Handshake

open Engine

variable (handshake : Handshake)

def connectCall : Call := .connect handshake.responder.hit handshake.address handshake.start

def asked : Engine := handshake.initiator.after handshake.connectCall

def i1Bytes : List UInt8 :=
  packetTo handshake.responder.hit .i1 (handshake.initiator.queuedBy handshake.connectCall)

def beforeI1 : Engine := handshake.responder.run handshake.idle

def i1Call : Call := .handlePacket handshake.i1Bytes handshake.i1.source handshake.i1.now

def afterI1 : Engine := handshake.beforeI1.after handshake.i1Call

def r1Bytes : List UInt8 :=
  packetTo handshake.initiator.hit .r1 (handshake.beforeI1.queuedBy handshake.i1Call)

def beforeR1 : Engine := handshake.asked.run handshake.waiting

def r1Call : Call := .handlePacket handshake.r1Bytes handshake.r1.source handshake.r1.now

def afterR1 : Engine := handshake.beforeR1.after handshake.r1Call

def beforeR2 : Engine := handshake.afterR1.run handshake.solving

def i2Bytes : List UInt8 :=
  packetTo handshake.responder.hit .i2 (handshake.afterR1.queuedIn handshake.solving)

def beforeI2 : Engine := handshake.afterI1.run handshake.issued

def i2Call : Call := .handlePacket handshake.i2Bytes handshake.i2.source handshake.i2.now

def afterI2 : Engine := handshake.beforeI2.after handshake.i2Call

def r2Bytes : List UInt8 :=
  packetTo handshake.initiator.hit .r2 (handshake.beforeI2.queuedBy handshake.i2Call)

def r2Call : Call := .handlePacket handshake.r2Bytes handshake.r2.source handshake.r2.now

def afterR2 : Engine := handshake.beforeR2.after handshake.r2Call

def finalInitiator : Engine := handshake.afterR2.run handshake.finished

def beforeEnd : Engine := handshake.afterI2.run handshake.holding

def endCall : Call := .handleTimeout handshake.visits handshake.holdEnd

def afterEnd : Engine := handshake.beforeEnd.after handshake.endCall

def finalResponder : Engine := handshake.afterEnd.run handshake.settled

/-- When the responder's hold is over. -/
def deadline : Nat :=
  max handshake.beforeI2.lastNow handshake.i2.now + handshake.responder.config.r2SentHold

def initiatorCalls : List Call :=
  handshake.connectCall :: handshake.waiting ++ handshake.r1Call :: handshake.solving ++
    handshake.r2Call :: handshake.finished

def responderCalls : List Call :=
  handshake.idle ++ handshake.i1Call :: handshake.issued ++ handshake.i2Call :: handshake.holding ++
    handshake.endCall :: handshake.settled

theorem continues_beforeR1 : handshake.initiator.Continues handshake.beforeR1 :=
  (continues_after _ handshake.connectCall).trans (continues_run _ handshake.waiting)

theorem continues_afterR1 : handshake.initiator.Continues handshake.afterR1 :=
  handshake.continues_beforeR1.trans (continues_after _ handshake.r1Call)

theorem continues_beforeR2 : handshake.initiator.Continues handshake.beforeR2 :=
  handshake.continues_afterR1.trans (continues_run _ handshake.solving)

theorem continues_afterR2 : handshake.initiator.Continues handshake.afterR2 :=
  handshake.continues_beforeR2.trans (continues_after _ handshake.r2Call)

theorem continues_beforeI1 : handshake.responder.Continues handshake.beforeI1 :=
  continues_run _ handshake.idle

theorem continues_afterI1 : handshake.responder.Continues handshake.afterI1 :=
  handshake.continues_beforeI1.trans (continues_after _ handshake.i1Call)

theorem continues_beforeI2 : handshake.responder.Continues handshake.beforeI2 :=
  handshake.continues_afterI1.trans (continues_run _ handshake.issued)

theorem continues_afterI2 : handshake.responder.Continues handshake.afterI2 :=
  handshake.continues_beforeI2.trans (continues_after _ handshake.i2Call)

theorem continues_beforeEnd : handshake.responder.Continues handshake.beforeEnd :=
  handshake.continues_afterI2.trans (continues_run _ handshake.holding)

theorem continues_afterEnd : handshake.responder.Continues handshake.afterEnd :=
  handshake.continues_beforeEnd.trans (continues_after _ handshake.endCall)

theorem run_beforeR2 : handshake.initiator.run (handshake.connectCall :: handshake.waiting ++
    handshake.r1Call :: handshake.solving) = handshake.beforeR2 := run_append _ _ _

theorem run_beforeI2 : handshake.responder.run (handshake.idle ++
    handshake.i1Call :: handshake.issued) = handshake.beforeI2 := run_append _ _ _

theorem run_beforeEnd :
    handshake.responder.run (handshake.idle ++ handshake.i1Call :: handshake.issued ++
    handshake.i2Call :: handshake.holding) = handshake.beforeEnd := by
  rw [run_append, run_beforeI2]
  rfl

/-- What is asked of the two engines and of what else happens to them, up to the I2: they fit
    together and do not know each other, there is room for one more connection when one is made,
    calls in between are about other peers, and the challenge of the R1 is not outdated when the I2
    is delivered. -/
structure Proceeds : Prop where
  initiatorReachable : handshake.initiator.Reachable
  responderReachable : handshake.responder.Reachable
  initiatorOpen : handshake.initiator.closed = false
  responderOpen : handshake.responder.closed = false
  nearlyCompatible : handshake.initiator.party.NearlyCompatible handshake.responder.party
  initiatorFresh : handshake.initiator.table.find? handshake.responder.hit = none
  responderFresh : handshake.responder.table.find? handshake.initiator.hit = none
  initiatorRoom : handshake.initiator.connectionCount < handshake.initiator.config.maxConnections
  roomForI1 : handshake.beforeI1.connectionCount < handshake.responder.config.maxConnections
  roomForI2 : handshake.beforeI2.connectionCount < handshake.responder.config.maxConnections
  initiatorSpares : ∀ call ∈ handshake.waiting ++ handshake.solving ++ handshake.finished,
    call.Spares handshake.initiator.hit handshake.responder.hit
  responderSpares :
    ∀ call ∈ handshake.idle ++ handshake.issued ++ handshake.holding ++ handshake.settled,
    call.Spares handshake.responder.hit handshake.initiator.hit
  rotations : handshake.beforeI2.puzzleGeneration ≤ handshake.afterI1.puzzleGeneration + 2

/-- Whether the initiator has found a J by the time that the R2 arrives. -/
def IsSolved : Prop :=
  ∀ conn, handshake.beforeR2.table.find? handshake.responder.hit = some conn →
  conn.isSolving = false

/-- What is asked of it up to where the responder holds its R2: a J was found in time, the hosts
    have a suite in common, and none of the calls made meanwhile sees the hold end. -/
structure Agrees : Prop extends Proceeds handshake where
  solved : handshake.IsSolved
  cipher : ∃ suite ∈ handshake.responder.config.cipherSuites, suite.IsCanonical ∧
    suite.code ∈
      (handshake.initiator.config.cipherSuites.take maxCipherSuites).map CipherSuite.code
  holdingEarly : ∀ order now, .handleTimeout order now ∈ handshake.holding →
    now < handshake.deadline

/-- What is asked of a handshake: in the end a call is made that sees the hold end. -/
structure Conforms : Prop extends Agrees handshake where
  holdEnds : handshake.deadline ≤ handshake.holdEnd

/-- The puzzle and the keys of the initiator in a handshake whose R1 was sent. -/
structure Negotiates (puzzle : Puzzle) (keys : KeySet) : Prop where
  challenge : ∃ secret ∈ handshake.beforeI2.issuer.window.secrets,
    challengeFor secret handshake.initiator.hit handshake.responder.hit [] = puzzle.challenge
  complexity : puzzle.k = handshake.responder.config.puzzleComplexity
  responderKeys : (handshake.responder.context handshake.responder.lastNow).sessionKeys
    handshake.initiator.identity.publicKey handshake.initiator.hit handshake.responder.hit
    puzzle.challenge false = .ok { keys with isInitiator := false }
  isInitiator : keys.isInitiator = true
  initiatorLength : Config.IsKeyLength keys.initiator.integrity.length
  responderLength : Config.IsKeyLength keys.responder.integrity.length

/-- A handshake whose I2 is under way. -/
structure Underway (puzzle : Puzzle) (keys : KeySet) : Prop extends
    Negotiates handshake puzzle keys where
  initiatorOpen : handshake.beforeR2.closed = false
  awaits : ∃ conn, handshake.beforeR2.table.find? handshake.responder.hit = some conn ∧
    conn.AwaitsR2 keys handshake.i2Bytes
  answer : Connection.IsAnswer handshake.initiator.party handshake.initiator.hit
    handshake.responder.hit puzzle keys handshake.i2Bytes
  told : (handshake.initiator.toldIn
    (handshake.connectCall :: handshake.waiting ++ handshake.r1Call :: handshake.solving)).count
    handshake.responder.hit = 0

variable {handshake}

section Proceeds

variable (hproceeds : handshake.Proceeds)
include hproceeds

namespace Proceeds

theorem reachable_beforeR1 : handshake.beforeR1.Reachable :=
  (hproceeds.initiatorReachable.after handshake.connectCall).run handshake.waiting

theorem reachable_beforeR2 : handshake.beforeR2.Reachable :=
  (hproceeds.reachable_beforeR1.after handshake.r1Call).run handshake.solving

theorem reachable_beforeI1 : handshake.beforeI1.Reachable :=
  hproceeds.responderReachable.run handshake.idle

theorem reachable_beforeI2 : handshake.beforeI2.Reachable :=
  (hproceeds.reachable_beforeI1.after handshake.i1Call).run handshake.issued

theorem reachable_beforeEnd : handshake.beforeEnd.Reachable :=
  (hproceeds.reachable_beforeI2.after handshake.i2Call).run handshake.holding

theorem hasCurveKey_initiator {engine : Engine}
    (hcontinues : handshake.initiator.Continues engine) : engine.identity.HasCurveKey :=
  hcontinues.identity ▸ hproceeds.nearlyCompatible.initiatorKey

theorem hasCurveKey_responder {engine : Engine}
    (hcontinues : handshake.responder.Continues engine) : engine.identity.HasCurveKey :=
  hcontinues.identity ▸ hproceeds.nearlyCompatible.responderKey

theorem spares_initiator (calls : List Call) {engine : Engine}
    (hcontinues : handshake.initiator.Continues engine)
    (hsub : calls ⊆ handshake.waiting ++ handshake.solving ++ handshake.finished) :
    ∀ call ∈ calls, call.Spares engine.hit handshake.responder.hit := by
  intro call hmem
  rw [hcontinues.hit]
  exact hproceeds.initiatorSpares call (hsub hmem)

theorem spares_responder (calls : List Call) {engine : Engine}
    (hcontinues : handshake.responder.Continues engine)
    (hsub : calls ⊆ handshake.idle ++ handshake.issued ++ handshake.holding ++ handshake.settled) :
    ∀ call ∈ calls, call.Spares engine.hit handshake.initiator.hit := by
  intro call hmem
  rw [hcontinues.hit]
  exact hproceeds.responderSpares call (hsub hmem)

/-- The initiator waits for the R1 of the I1 that it sent. -/
theorem asks : (handshake.initiator.connect handshake.responder.hit handshake.address
      handshake.start).result = .ok () ∧
    (∃ (ctx : Context) (conn : Connection), ctx.identity = handshake.initiator.identity ∧
      conn.host = handshake.initiator.hit ∧ conn.peer = handshake.responder.hit ∧
      (ctx.i1 conn).encode = .ok handshake.i1Bytes) ∧
    handshake.beforeR1.closed = false ∧
    (handshake.initiator.toldIn (handshake.connectCall :: handshake.waiting)).count
      handshake.responder.hit = 0 ∧
    ∃ conn, handshake.beforeR1.table.find? handshake.responder.hit = some conn ∧ conn.AwaitsR1 := by
  have hdistinct : handshake.responder.hit ≠ handshake.initiator.hit :=
    hproceeds.nearlyCompatible.distinct.symm
  obtain ⟨hresult, ctx, conn, moved, i1, hidentity, hhost, hpeer, hencode, hfind, hawaits, hopen,
    hqueued, htold⟩ := connect_sends_i1 hproceeds.initiatorOpen hdistinct hproceeds.initiatorFresh
      hproceeds.initiatorRoom handshake.address handshake.start
  have hbytes : handshake.i1Bytes = i1 := by
    rw [i1Bytes, connectCall, hqueued]
    exact packetTo_singleton (Context.parse_i1 hencode) rfl hpeer
  have hasked := handshake.initiator.continues_after handshake.connectCall
  have hspares := hproceeds.spares_initiator handshake.waiting hasked (by simp)
  obtain ⟨later, hlater, hstill, hcount⟩ := awaitsR1_run
    (hproceeds.initiatorReachable.after handshake.connectCall)
    (hproceeds.hasCurveKey_initiator hasked) hopen hspares hfind hawaits
  refine ⟨hresult, ⟨ctx, conn, hidentity, hhost, hpeer, hbytes ▸ hencode⟩,
    closed_run_of_spares hopen hspares, ?_, later, hlater, hstill⟩
  have hnone : (handshake.initiator.toldIn []).count handshake.responder.hit = 0 := rfl
  exact count_toldIn rfl hnone (congrArg (List.count handshake.responder.hit) htold) hcount

/-- The responder challenges the initiator with an R1 and keeps nothing. -/
theorem challenges : (handshake.beforeI1.handlePacket handshake.i1Bytes handshake.i1.source
      handshake.i1.now).result = .ok () ∧
    (∃ secret cookie, ∃ theirs : Context, ∃ replying : Connection,
      secret ∈ handshake.beforeI2.issuer.window.secrets ∧
      theirs.party = handshake.responder.party ∧
      theirs.issuer.complexity = handshake.responder.config.puzzleComplexity ∧
      replying.host = handshake.responder.hit ∧ replying.peer = handshake.initiator.hit ∧
      (theirs.r1 replying (challengeFor secret handshake.initiator.hit handshake.responder.hit [])
        cookie).encode = .ok handshake.r1Bytes) ∧
    handshake.beforeI2.closed = false ∧
    handshake.beforeI2.table.find? handshake.initiator.hit = none ∧
    (handshake.responder.toldIn (handshake.idle ++ handshake.i1Call :: handshake.issued)).count
      handshake.initiator.hit = 0 := by
  obtain ⟨-, ⟨ctx, conn, hidentity, hhost, hpeer, hencode⟩, -⟩ := hproceeds.asks
  have hcompatible := hproceeds.nearlyCompatible
  have hidle := handshake.continues_beforeI1
  have hreachable := hproceeds.reachable_beforeI1
  have hkey := hproceeds.hasCurveKey_responder hidle
  have hspares := hproceeds.spares_responder handshake.idle (.refl _) (by simp)
  obtain ⟨hnone, htoldIdle⟩ :=
    find?_run_eq_none hproceeds.responderReachable hcompatible.responderKey
    hproceeds.responderOpen hspares hproceeds.responderFresh
  have hcurve : handshake.beforeI1.identity.curve = ctx.identity.curve := by
    rw [hidle.identity, hidentity]
    exact hcompatible.curve.symm
  obtain ⟨hresult, r1, secret, cookie, replying, hnewest, hencodeR1, hfrom, hto, htable,
    hopen, hissuer, hqueued, htold⟩ := i1_is_answered hreachable
      (closed_run_of_spares hproceeds.responderOpen hspares) hkey
      ((congrArg Config.acceptUnsolicited hidle.config).trans hcompatible.unsolicited) hencode
      (hpeer.trans hidle.hit.symm) hcurve (hhost ▸ hnone) (hidle.config ▸ hproceeds.roomForI1)
      handshake.i1.source handshake.i1.now
  have hbytes : handshake.r1Bytes = r1 := by
    rw [r1Bytes, i1Call, hqueued]
    exact packetTo_singleton (Context.parse_r1 hkey hencodeR1) rfl (hto.trans hhost)
  have hasked := handshake.continues_afterI1
  have hsparesIssued := hproceeds.spares_responder handshake.issued hasked (by simp)
  obtain ⟨hunknown, htoldIssued⟩ := find?_run_eq_none (hreachable.after handshake.i1Call)
    (hproceeds.hasCurveKey_responder hasked) hopen hsparesIssued
    ((congrArg (·.find? handshake.initiator.hit) htable).trans hnone)
  have hmem : secret ∈ handshake.beforeI2.issuer.window.secrets := by
    refine newest_mem_run ?_ hproceeds.rotations
    rw [← hnewest]
    exact congrArg (fun issuer => issuer.window.newest?) hissuer
  rw [hhost, hidle.hit, ← hbytes] at hencodeR1
  let theirs := handshake.beforeI1.context (max handshake.beforeI1.lastNow handshake.i1.now)
  have hparty : theirs.party = handshake.responder.party := hidle.party
  have hcomplexity : theirs.issuer.complexity = handshake.responder.config.puzzleComplexity :=
    hreachable.issuer.1.trans (congrArg Config.puzzleComplexity hidle.config)
  refine ⟨hresult, ⟨secret, cookie, theirs, replying, hmem, hparty, hcomplexity,
    hfrom.trans hidle.hit, hto.trans hhost, hencodeR1⟩, closed_run_of_spares hopen hsparesIssued,
      hunknown, ?_⟩
  exact count_toldIn rfl htoldIdle (congrArg (List.count handshake.initiator.hit) htold) htoldIssued

/-- The initiator takes up the puzzle of the R1. -/
theorem takesUp : (handshake.beforeR1.handlePacket handshake.r1Bytes handshake.r1.source
      handshake.r1.now).result = .ok () ∧
    handshake.afterR1.closed = false ∧
    handshake.beforeR1.toldBy handshake.r1Call = [] ∧
    ∃ puzzle keys, handshake.Negotiates puzzle keys ∧
      ∃ conn, handshake.afterR1.table.find? handshake.responder.hit = some conn ∧
        conn.Solves puzzle keys := by
  obtain ⟨-, -, hopen, -, conn, hfind, hawaits⟩ := hproceeds.asks
  obtain ⟨-, ⟨secret, cookie, theirs, replying, hmem, hparty, hconfigured, hfrom, hto, hencode⟩,
    -⟩ :=
    hproceeds.challenges
  have hwaiting := handshake.continues_beforeR1
  have hidentity : theirs.identity = handshake.responder.identity := congrArg Party.identity hparty
  have hhit : theirs.identity.hit = handshake.responder.hit := congrArg HostIdentity.hit hidentity
  let mine := handshake.beforeR1.context handshake.beforeR1.lastNow
  have hcompatible : mine.party.NearlyCompatible theirs.party := by
    rw [hparty, show mine.party = handshake.initiator.party from hwaiting.party]
    exact hproceeds.nearlyCompatible
  have hcomplexity : theirs.issuer.complexity = theirs.config.puzzleComplexity :=
    hconfigured.trans (congrArg (·.config.puzzleComplexity) hparty).symm
  let challenge := challengeFor secret handshake.initiator.hit handshake.responder.hit []
  obtain ⟨keys, hmine, htheirs, hrole, hinitiator, hresponder⟩ :=
    hcompatible.exists_sessionKeys challenge
  obtain ⟨hresult, moved, hafter, hsolves, hopenR1, -, htold⟩ := r1_is_taken_up
    hproceeds.reachable_beforeR1 hopen hcompatible hcomplexity hencode (hfrom.trans hhit.symm)
    (hto.trans hwaiting.hit.symm) hmine (hhit ▸ hfind) hawaits handshake.r1.source handshake.r1.now
  rw [hhit] at hafter
  have hasking : mine.identity = handshake.initiator.identity := hwaiting.identity
  have hresponds : theirs.party =
      (handshake.responder.context handshake.responder.lastNow).party := hparty
  rw [Context.sessionKeys_congr hresponds, hasking, hhit] at htheirs
  let puzzle : Puzzle := ⟨theirs.issuer.complexity, defaultLifetime, cookie, challenge⟩
  exact ⟨hresult, hopenR1, htold, puzzle, keys, {
    challenge := ⟨secret, hmem, rfl⟩
    complexity := hconfigured
    responderKeys := htheirs
    isInitiator := hrole
    initiatorLength := hinitiator
    responderLength := hresponder }, moved, hafter, hsolves⟩

/-- A puzzle that every answer solves is solved the first time that the initiator sees the time. -/
theorem solved_of_complexity_zero (hzero : handshake.responder.config.puzzleComplexity = 0)
    {order : List Hit} {now : Nat} (hsolving : handshake.solving = [.handleTimeout order now]) :
    handshake.IsSolved := by
  intro conn hfind
  obtain ⟨-, hopen, -, puzzle, keys, hnegotiates, taken, htaken, hsolves⟩ := hproceeds.takesUp
  have hreachable : handshake.afterR1.Reachable :=
    hproceeds.reachable_beforeR1.after handshake.r1Call
  have hafterR1 := handshake.continues_afterR1
  have hbatch : 0 < handshake.afterR1.config.solveBatch := by
    rw [hafterR1.config]
    exact hproceeds.nearlyCompatible.initiatorAccepted.batch
  obtain ⟨later, i2, hlater, hawaits, -⟩ := solves_at_once hreachable
    (hproceeds.hasCurveKey_initiator hafterR1) hopen htaken hsolves
    (hnegotiates.complexity.trans hzero) hbatch hnegotiates.initiatorLength order now
  have hbefore : handshake.beforeR2 = handshake.afterR1.after (.handleTimeout order now) := by
    rw [beforeR2, hsolving]
    rfl
  rw [← hbefore, hfind] at hlater
  obtain rfl := Option.some.inj hlater
  obtain ⟨hmem, -⟩ := ConnectionTable.find?_eq_some_iff.mp hfind
  exact hawaits.isSolving_eq_false (hproceeds.reachable_beforeR2.wellFormed hmem)

end Proceeds

end Proceeds

namespace Agrees

variable (hagrees : handshake.Agrees)
include hagrees

theorem compatible : handshake.initiator.party.Compatible handshake.responder.party :=
  ⟨hagrees.nearlyCompatible, hagrees.cipher⟩

/-- The initiator solves the puzzle of the R1 and sends the I2. -/
theorem underway : ∃ puzzle keys, handshake.Underway puzzle keys := by
  obtain ⟨-, -, -, htoldWaiting, -⟩ := hagrees.asks
  obtain ⟨-, hopen, htoldR1, puzzle, keys, hnegotiates, taken, htaken, hsolves⟩ := hagrees.takesUp
  have hreachable : handshake.afterR1.Reachable :=
    hagrees.reachable_beforeR1.after handshake.r1Call
  have hafterR1 := handshake.continues_afterR1
  have hspares := hagrees.spares_initiator handshake.solving hafterR1 (by simp)
  obtain ⟨later, hlater, hworks, htoldSolving⟩ := solves_run hreachable
    (hagrees.hasCurveKey_initiator hafterR1) hopen hspares htaken hsolves
      hnegotiates.initiatorLength
  rw [hafterR1.party, hafterR1.hit] at hworks
  obtain ⟨i2, hawaits, hanswer, hmem, honly⟩ := hworks.solved (hagrees.solved later hlater)
  have hbytes : handshake.i2Bytes = i2 := by
    obtain ⟨ctx, asking, answer, sealed, hctx, -, hpeer, hseal, hencode, -⟩ := hanswer
    have hcurve : ctx.identity.HasCurveKey := by
      rw [show ctx.identity = handshake.initiator.identity from congrArg Party.identity hctx]
      exact hagrees.compatible.initiatorKey
    obtain ⟨hkind, -, hreceiver⟩ := Context.header_i2 none hseal
    exact packetTo_eq (Context.parse_i2 none hcurve hseal hencode) hkind
      (hreceiver.trans hpeer) hmem honly
  exact ⟨puzzle, keys, {
    toNegotiates := hnegotiates
    initiatorOpen := closed_run_of_spares hopen hspares
    awaits := ⟨later, hlater, hbytes ▸ hawaits⟩
    answer := hbytes ▸ hanswer
    told :=
      count_toldIn rfl htoldWaiting (congrArg (List.count handshake.responder.hit) htoldR1)
        htoldSolving }⟩

end Agrees

end Handshake

end DietExchange
