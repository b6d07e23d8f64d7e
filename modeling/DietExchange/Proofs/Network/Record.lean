import DietExchange.Proofs.Engine.Issued
import DietExchange.Proofs.Engine.Solving
import DietExchange.Proofs.Network.Agreement

namespace DietExchange

namespace Connection

/-- What a move of a connection has to write that it does not just send again. -/
inductive Writes (ctx : Context) (conn : Connection) : Stimulus → List UInt8 → Prop where
  | i1 {datagram : List UInt8} (hencode : (ctx.i1 conn).encode = .ok datagram) :
    Writes ctx conn .initiate datagram
  | r1 {packet : Packet} {challenge : Block} {cookie : UInt16} {datagram : List UInt8}
    (hissue : ctx.issuer.issue conn.peer conn.host [] = .ok challenge)
    (hencode : (ctx.r1 conn challenge cookie).encode = .ok datagram) :
    Writes ctx conn (.packet packet) datagram
  | i2 {pending : PendingAnswer} {answer : Block} {i2 : Packet} {datagram : List UInt8}
    (hpending : conn.pending = some pending)
    (hseal : (ctx.i2 conn pending.puzzle answer).recalculateMac pending.keys.initiator.integrity =
      .ok i2)
    (hencode : (i2.withEcho pending.echo).encode = .ok datagram) : Writes ctx conn .search datagram
  | r2 {packet r2 : Packet} {keys : KeySet} {cipher : CipherSuite} {datagram : List UInt8}
    (hkind : packet.kind = .i2)
    (hvalid : ctx.validateI2 conn.host conn.peer packet = .ok (keys, cipher))
    (hseal : (ctx.r2 conn).recalculateMac keys.responder.integrity = .ok r2)
    (hencode : r2.encode = .ok datagram) : Writes ctx conn (.packet packet) datagram

variable {ctx : Context} {stimulus : Stimulus} {conn moved : Connection} {datagram : List UInt8}

/-- What a connection transmits that had nothing to say is its last packet or newly written. -/
theorem Move.writes (hmove : conn.Move ctx stimulus moved) (houtbox : conn.outbox = [])
    (hout : .transmit datagram ∈ moved.outbox) :
    (∃ kind, conn.lastSent = some ⟨kind, datagram⟩) ∨ conn.Writes ctx stimulus datagram := by
  have hnone : .transmit datagram ∉ conn.outbox := by
    rw [houtbox]
    exact List.not_mem_nil
  cases hmove with
  | ignore | takeUpR1 | wait | rest | search | lose => exact absurd hout hnone
  | acceptR2 | establish | giveUp => exact absurd (by simpa [emit] using hout) hnone
  | initiate _ hencode =>
    obtain rfl : datagram = _ := by simpa [transmit, houtbox] using hout
    exact .inr (.i1 hencode)
  | answerI1 _ _ _ _ hissue hencode =>
    obtain rfl : datagram = _ := by simpa [transmit, houtbox] using hout
    exact .inr (.r1 hissue hencode)
  | answerI2AsI1 _ _ _ _ hissue hencode =>
    obtain rfl : datagram = _ := by simpa [transmit, holdTo, houtbox] using hout
    exact .inr (.r1 hissue hencode)
  | answerI2 _ hkind hvalid htag hencode =>
    obtain rfl : datagram = _ := by simpa [transmit, respond, holdTo, houtbox] using hout
    exact .inr (.r2 hkind hvalid htag hencode)
  | solve hpending _ htag hencode =>
    obtain rfl : datagram = _ := by simpa [transmit, conclude, houtbox] using hout
    exact .inr (.i2 hpending htag hencode)
  | resendR2 _ _ _ hsame =>
    obtain rfl : datagram = _ := by simpa [emit, houtbox] using hout
    exact .inl ⟨_, lastSent_of_sameR2? hsame⟩
  | @resend _ sent _ _ hsent =>
    obtain rfl : datagram = _ := by simpa [emit, houtbox] using hout
    exact .inl ⟨sent.kind, hsent⟩

/-- What is the last packet after a move was so before it or is transmitted. -/
theorem Move.lastSent_or_transmit (hmove : conn.Move ctx stimulus moved) {sent : SentPacket}
    (hlast : moved.lastSent = some sent) :
    conn.lastSent = some sent ∨ .transmit sent.datagram ∈ moved.outbox := by
  cases hmove with
  | ignore | takeUpR1 | resendR2 | wait | rest | search | lose | resend => exact .inl hlast
  | acceptR2 | establish | giveUp => exact .inl (by simpa [emit] using hlast)
  | initiate | answerI1 | answerI2AsI1 | answerI2 | solve =>
    obtain rfl : _ = sent := by simpa [transmit, respond, conclude, holdTo] using hlast
    exact .inr (by simp [transmit, respond, conclude, holdTo])

/-- A connection comes to I1_SENT with its I1 only. -/
theorem Move.asks (hmove : conn.Move ctx stimulus moved) (hstate : moved.state = .i1Sent) :
    conn.state = .i1Sent ∨
      ∃ datagram, (ctx.i1 conn).encode = .ok datagram ∧ .transmit datagram ∈ moved.outbox := by
  cases hmove with
  | ignore | takeUpR1 | wait | rest | search | lose | resend => exact .inl hstate
  | initiate _ hencode => exact .inr ⟨_, hencode, by simp [transmit]⟩
  | answerI1 hidle => cases hidle.symm.trans hstate
  | resendR2 hheld => cases hheld.symm.trans hstate
  | answerI2AsI1 | answerI2 | acceptR2 | establish | giveUp | solve =>
    simp [respond, conclude, holdTo, emit] at hstate

/-- A puzzle that is worked on was so before, or is that of the R1 that was just taken up. -/
theorem Move.pending_cases (hmove : conn.Move ctx stimulus moved) {later : PendingAnswer}
    (hlater : moved.pending = some later) :
    (∃ pending, conn.pending = some pending ∧ pending.puzzle = later.puzzle ∧
      pending.keys = later.keys ∧ pending.echo = later.echo) ∨
    ∃ packet, stimulus = .packet packet ∧ packet.kind = .r1 ∧ later.echo = packet.echoRequest? ∧
      ctx.validateR1 conn.host conn.peer packet = .ok (later.puzzle, later.keys) := by
  have hsame : conn.pending = some later → ∃ pending, conn.pending = some pending ∧
      pending.puzzle = later.puzzle ∧ pending.keys = later.keys ∧ pending.echo = later.echo :=
    fun hpending => ⟨later, hpending, rfl, rfl, rfl⟩
  cases hmove with
  | ignore | answerI1 | resendR2 | wait | rest | resend => exact .inl (hsame hlater)
  | initiate | answerI2AsI1 | answerI2 | acceptR2 | establish | giveUp =>
    simp only [transmit, respond, holdTo, emit, pending_moveTo,
      Option.ite_none_left_eq_some] at hlater
    exact .inl (hsame hlater.2)
  | takeUpR1 _ hkind _ hvalid =>
    obtain rfl := Option.some.inj hlater
    exact .inr ⟨_, rfl, hkind, rfl, hvalid⟩
  | @search _ pending _ hpending =>
    obtain rfl := Option.some.inj hlater
    exact .inl ⟨pending, hpending, rfl, rfl, rfl⟩
  | solve => simp [conclude, transmit, pending_moveTo] at hlater
  | lose => cases hlater

/-- Keys of a responder were there before, or are those of an I2 that is answered with an R2. -/
theorem Move.serves_cases (hmove : conn.Move ctx stimulus moved) (hform : conn.WellFormed)
    {keys : KeySet} (hkeys : moved.keys = some keys) (hrole : keys.isInitiator = false) :
    conn.keys = some keys ∨ ∃ packet cipher r2 datagram, stimulus = .packet packet ∧
    packet.kind = .i2 ∧ ctx.validateI2 conn.host conn.peer packet = .ok (keys, cipher) ∧
      (ctx.r2 conn).recalculateMac keys.responder.integrity = .ok r2 ∧ r2.encode = .ok datagram ∧
      .transmit datagram ∈ moved.outbox := by
  cases hmove with
  | ignore | answerI1 | resendR2 | wait | rest | resend | takeUpR1 | search | lose =>
      exact .inl hkeys
  | initiate | answerI2AsI1 | acceptR2 | establish | giveUp =>
    exact .inl (by simpa [transmit, holdTo, emit] using hkeys)
  | answerI2 _ hkind hvalid htag hencode =>
    obtain rfl : _ = keys := by simpa [respond, holdTo] using hkeys
    exact .inr ⟨_, _, _, _, rfl, hkind, hvalid, htag, hencode, by simp [transmit, respond, holdTo]⟩
  | @solve _ pending _ _ _ _ hpending =>
    obtain rfl : pending.keys = keys := by simpa [conclude] using hkeys
    cases (hform.pending pending hpending).2.symm.trans hrole

end Connection

theorem PuzzleIssuer.issue_eq_ok {issuer : PuzzleIssuer} {initiator responder : Hit}
    {context : List UInt8} {challenge : Block} (hissue : issuer.issue initiator responder context =
      .ok challenge) : ∃ secret, challenge = challengeFor secret initiator responder context := by
  unfold issue at hissue
  split at hissue
  · exact ⟨_, (Except.ok.inj hissue).symm⟩
  · cases hissue

theorem Packet.echoRequest?_r1 {ctx : Context} {conn : Connection} {challenge : Block}
    {cookie : UInt16} : (ctx.r1 conn challenge cookie).canonical.echoRequest? = none :=
  (Packet.echoRequest?_canonical _).trans rfl

namespace Network

variable (network : Network)

/-- Whether a network has the same two hosts as another one and all that they have queued there. -/
structure Extends (network other : Network) : Prop where
  party : ∀ side, (other.engine side).party = (network.engine side).party
  sent : ∀ side datagram, datagram ∈ network.sent side → datagram ∈ other.sent side

/-- Whether a puzzle is that of an R1 that a host has queued for the other. -/
def Posed (side : Side) (puzzle : Puzzle) : Prop :=
  ∃ packet, network.Told side packet ∧ packet.kind = .r1 ∧ packet.puzzle? = some puzzle

/-- Whether keys are those of a responder that an I2 of the other host led to, under a challenge of
    its own. -/
def Serves (side : Side) (keys : KeySet) : Prop :=
  keys.isInitiator = false ∧ ∃ packet solution secret, network.Told side.other packet ∧
    packet.kind = .i2 ∧ packet.solution? = some solution ∧
    solution.challenge = challengeFor secret (network.peer side) (network.engine side).hit [] ∧
    keys.IsDerived (network.engine side).party (network.peer side)
      (network.engine side.other).party.hostId solution.challenge

/-- Whether an R2 that a host has queued confirms these keys. -/
def Confirmed (side : Side) (keys : KeySet) : Prop :=
  ∃ r2 ∈ network.sent side,
    (network.engine side).Confirms (network.engine side.other) keys r2

/-- What there is to say of a datagram that a host has queued for the other. -/
structure Letter (side : Side) (datagram : List UInt8) (packet : Packet) : Prop where
  sender : packet.sender = (network.engine side).hit
  spoken : ∀ id, packet.hostId? = some id → id = (network.engine side).party.hostId
  invites : packet.kind = .r1 → packet.echoRequest? = none ∧ ∃ secret cookie,
    (network.engine side).Challenges (network.engine side.other) secret cookie datagram
  solves : packet.kind = .i2 → packet.checkMandatory = .ok () ∧ packet.dhGroupList? = none ∧
    ∃ solution puzzle, packet.solution? = some solution ∧ network.Posed side.other puzzle ∧
      puzzle.challenge = solution.challenge
  confirms : packet.kind = .r2 → ∃ keys, network.Serves side keys ∧
    (network.engine side).Confirms (network.engine side.other) keys datagram

/-- What the datagrams say of our connection with the other host. -/
structure Recorded (side : Side) (conn : Connection) : Prop where
  letters : ∀ datagram ∈ network.sent side, ∀ packet, Packet.parse datagram = .ok packet →
    packet.receiver = network.peer side → network.Letter side datagram packet
  last : ∀ sent, conn.lastSent = some sent → sent.datagram ∈ network.sent side
  asked : conn.state = .i1Sent →
    ∃ i1 ∈ network.sent side, (network.engine side).Asks (network.engine side.other) i1
  pending : ∀ pending, conn.pending = some pending → network.Posed side.other pending.puzzle ∧
    pending.echo = none ∧ Config.IsKeyLength pending.keys.initiator.integrity.length
  holds : ∀ keys, conn.keys = some keys → keys.isInitiator = false →
    network.Serves side keys ∧ network.Confirmed side keys

/-- Whether the datagrams of both hosts tell of them. -/
def IsRecorded : Prop := ∀ side conn, network.Linked side conn → network.Recorded side conn

variable {network} {other : Network} {event : Event} {side : Side} {conn : Connection}

theorem IsRecorded.letter_of_sent (hrecorded : network.IsRecorded) {datagram : List UInt8}
    (hsent : datagram ∈ network.sent side) {packet : Packet}
    (hparse : Packet.parse datagram = .ok packet)
    (hreceiver : packet.receiver = network.peer side) : network.Letter side datagram packet := by
  obtain ⟨conn, hlinked⟩ := network.exists_linked side
  exact (hrecorded side conn hlinked).letters datagram hsent packet hparse hreceiver

theorem IsRecorded.letter (hrecorded : network.IsRecorded) {packet : Packet}
    (htold : network.Told side packet) :
    ∃ datagram ∈ network.sent side, Packet.parse datagram = .ok packet ∧
      packet.receiver = network.peer side ∧ network.Letter side datagram packet := by
  obtain ⟨datagram, hsent, hparse, hreceiver⟩ := htold
  exact ⟨datagram, hsent, hparse, hreceiver, hrecorded.letter_of_sent hsent hparse hreceiver⟩

theorem Extends.hit (hextends : network.Extends other) (side : Side) :
    (other.engine side).hit = (network.engine side).hit :=
  congrArg (·.identity.hit) (hextends.party side)

theorem Extends.peer (hextends : network.Extends other) (side : Side) :
    other.peer side = network.peer side :=
  hextends.hit side.other

theorem extends_run (network : Network) (events : List Event) :
    network.Extends (network.run events) :=
  ⟨fun side => (network.continues_run events side).party,
    fun _ _ hsent => mem_sent_run_of_mem hsent events⟩

theorem extends_step (network : Network) (event : Event) : network.Extends (network.step event) :=
  network.extends_run [event]

section Extends

variable (hextends : network.Extends other)
include hextends

theorem Told.mono {packet : Packet} (htold : network.Told side packet) :
    other.Told side packet := by
  obtain ⟨datagram, hsent, hparse, hreceiver⟩ := htold
  exact ⟨datagram, hextends.sent side datagram hsent, hparse,
    hreceiver.trans (hextends.peer side).symm⟩

theorem Posed.mono {puzzle : Puzzle} (hposed : network.Posed side puzzle) :
    other.Posed side puzzle := by
  obtain ⟨packet, htold, hrest⟩ := hposed
  exact ⟨packet, htold.mono hextends, hrest⟩

theorem Serves.mono {keys : KeySet} (hserves : network.Serves side keys) :
    other.Serves side keys := by
  obtain ⟨hrole, packet, solution, secret, htold, hkind, hsolution, hsecret, hderived⟩ := hserves
  refine ⟨hrole, packet, solution, secret, htold.mono hextends, hkind, hsolution, ?_, ?_⟩
  · rw [hextends.peer, hextends.hit]
    exact hsecret
  · rw [hextends.peer, hextends.party, hextends.party]
    exact hderived

variable {giving taking : Side}

theorem Extends.confirms {keys : KeySet} {r2 : List UInt8}
    (hconfirms : (network.engine giving).Confirms (network.engine taking) keys r2) :
    (other.engine giving).Confirms (other.engine taking) keys r2 := by
  unfold Engine.Confirms
  rw [hextends.party, hextends.hit, hextends.hit]
  exact hconfirms

theorem Extends.challenges {secret : Block} {cookie : UInt16} {r1 : List UInt8}
    (hchallenges : (network.engine giving).Challenges (network.engine taking) secret cookie r1) :
    (other.engine giving).Challenges (other.engine taking) secret cookie r1 := by
  unfold Engine.Challenges
  rw [hextends.party, hextends.hit, hextends.hit]
  exact hchallenges

theorem Extends.asks {i1 : List UInt8}
    (hasks : (network.engine giving).Asks (network.engine taking) i1) :
    (other.engine giving).Asks (other.engine taking) i1 := by
  have hidentity : (other.engine giving).identity = (network.engine giving).identity :=
    congrArg Party.identity (hextends.party giving)
  unfold Engine.Asks
  rw [hidentity, hextends.hit, hextends.hit]
  exact hasks

theorem Confirmed.mono {keys : KeySet} (hconfirmed : network.Confirmed side keys) :
    other.Confirmed side keys := by
  obtain ⟨r2, hsent, hconfirms⟩ := hconfirmed
  exact ⟨r2, hextends.sent side r2 hsent, hextends.confirms hconfirms⟩

theorem Letter.mono {datagram : List UInt8} {packet : Packet}
    (hletter : network.Letter side datagram packet) : other.Letter side datagram packet where
  sender := hletter.sender.trans (hextends.hit side).symm
  spoken id hid := by
    rw [hextends.party]
    exact hletter.spoken id hid
  invites hkind := by
    obtain ⟨hsilent, secret, cookie, hchallenges⟩ := hletter.invites hkind
    exact ⟨hsilent, secret, cookie, hextends.challenges hchallenges⟩
  solves hkind := by
    obtain ⟨hmandatory, hgroups, solution, puzzle, hsolution, hposed, hsame⟩ := hletter.solves hkind
    exact ⟨hmandatory, hgroups, solution, puzzle, hsolution, hposed.mono hextends, hsame⟩
  confirms hkind := by
    obtain ⟨keys, hserves, hconfirms⟩ := hletter.confirms hkind
    exact ⟨keys, hserves.mono hextends, hextends.confirms hconfirms⟩

/-- Where a host queues nothing for the other, what is said of its connection stays true. -/
theorem Recorded.mono (hrecorded : network.Recorded side conn)
    (hsilent : ∀ datagram ∈ other.sent side, ∀ packet, Packet.parse datagram = .ok packet →
      packet.receiver = network.peer side → datagram ∈ network.sent side) :
        other.Recorded side conn where
  letters datagram hsent packet hparse hreceiver := by
    rw [hextends.peer] at hreceiver
    have hold := hsilent datagram hsent packet hparse hreceiver
    exact (hrecorded.letters datagram hold packet hparse hreceiver).mono hextends
  last sent hlast := hextends.sent side _ (hrecorded.last sent hlast)
  asked hstate := by
    obtain ⟨i1, hsent, hasks⟩ := hrecorded.asked hstate
    exact ⟨i1, hextends.sent side i1 hsent, hextends.asks hasks⟩
  pending pending hpending := by
    obtain ⟨hposed, hrest⟩ := hrecorded.pending pending hpending
    exact ⟨hposed.mono hextends, hrest⟩
  holds keys hkeys hrole := by
    obtain ⟨hserves, hconfirmed⟩ := hrecorded.holds keys hkeys hrole
    exact ⟨hserves.mono hextends, hconfirmed.mono hextends⟩

end Extends

theorem Recorded.settled (hrecorded : network.Recorded side conn) :
    network.Recorded side conn.settled :=
  ⟨hrecorded.letters, hrecorded.last, hrecorded.asked, hrecorded.pending, hrecorded.holds⟩

theorem Recorded.fresh (hrecorded : network.Recorded side conn) (host peer : Hit)
    (address : Address) : network.Recorded side (Connection.fresh host peer address) where
  letters := hrecorded.letters
  last _ hlast := by cases hlast
  asked hstate := by cases hstate
  pending _ hpending := by cases hpending
  holds _ hkeys := by cases hkeys

section Step

section Drives

variable {stimulus : Stimulus} {before moved : Connection} (hdrives :
  (network.engine event.side).Drives event.call (network.peer event.side) stimulus before moved)
include hdrives

theorem mem_sent_of_transmit {datagram : List UInt8} (hout : .transmit datagram ∈ moved.outbox) :
    datagram ∈ (network.step event).sent event.side :=
  mem_sent_step
    (hdrives.queued ⟨moved.address, datagram⟩ (Connection.mem_outgoing_iff.mpr ⟨rfl, hout⟩))

theorem mem_or_transmit_of_sent {datagram : List UInt8} {packet : Packet}
    (hsent : datagram ∈ (network.step event).sent event.side)
    (hparse : Packet.parse datagram = .ok packet)
    (hreceiver : packet.receiver = network.peer event.side) :
    datagram ∈ network.sent event.side ∨ .transmit datagram ∈ moved.outbox := by
  rw [sent_step_self] at hsent
  refine (List.mem_append.mp hsent).imp_right fun hnew => ?_
  obtain ⟨out, hout, rfl⟩ := List.mem_map.mp hnew
  have houtgoing := hdrives.queuedOnly out hout ⟨packet, hparse, hreceiver⟩
  exact (Connection.mem_outgoing_iff.mp houtgoing).2

variable (hhonest : network.Honest) (hadmits : network.Admits event)
  (hrecorded : network.IsRecorded) {ctx : Context}
  (hparty : ctx.party = (network.engine event.side).party)
include hhonest hadmits hrecorded hparty

/-- The keys that an I2 of the other host leads to are those of a responder. -/
theorem serves_of_validateI2 {packet : Packet} {keys : KeySet} {cipher : CipherSuite}
    (hstimulus : stimulus = .packet packet) (hkind : packet.kind = .i2)
    (hvalid : ctx.validateI2 before.host before.peer packet = .ok (keys, cipher)) :
    network.Serves event.side keys := by
  have howns : (network.view False event.side).Owns before := hhonest.owns hdrives.offered
  obtain ⟨solution, id, haccepts⟩ := Context.validateI2_eq_ok_iff.mp hvalid
  have hidentity : ctx.identity = (network.engine event.side).identity :=
    congrArg Party.identity hparty
  have hhost : before.host = ctx.identity.hit :=
    howns.host.trans (congrArg HostIdentity.hit hidentity.symm)
  have hpeer : before.peer = network.peer event.side := hdrives.peer_eq
  have hsolved := haccepts.solved
  rw [hhost, hpeer, hidentity] at hsolved
  rw [hhost, hpeer] at haccepts
  obtain ⟨hrole, hderived⟩ := haccepts.isDerived
  obtain ⟨⟨secret, -, hsecret⟩, -⟩ := PuzzleIssuer.accepts_of_verify hsolved
  have htold : network.Told event.side.other packet :=
    told_of_stimulus hdrives hadmits hstimulus (by simp [hkind])
  obtain ⟨_, -, -, -, hletter⟩ := hrecorded.letter htold
  obtain rfl := hletter.spoken id haccepts.hasHostId
  rw [hparty] at hderived
  exact ⟨hrole, packet, solution, secret, htold, hkind, haccepts.hasSolution,
    hsecret.symm, hderived⟩

/-- What a host writes for the other tells of it. -/
theorem letter_of_writes
    (hissuer : ∀ packet, stimulus = .packet packet →
      ctx.issuer = (network.engine event.side).issuer)
    {datagram : List UInt8} (hwrites : before.Writes ctx stimulus datagram)
    {packet : Packet} (hparse : Packet.parse datagram = .ok packet) :
    network.Letter event.side datagram packet := by
  have hlinked : network.Linked event.side before := hdrives.offered
  have howns : (network.view False event.side).Owns before := hhonest.owns hlinked
  have hidentity : ctx.identity = (network.engine event.side).identity :=
    congrArg Party.identity hparty
  have hkey : ctx.identity.HasCurveKey := hidentity ▸ hhonest.key event.side
  have hletter : ∀ {kind : PacketKind}, before.Carries ctx.identity kind datagram →
      (kind = .r1 → packet.echoRequest? = none ∧ ∃ secret cookie,
        (network.engine event.side).Challenges (network.engine event.side.other) secret cookie
          datagram) →
      (kind = .i2 → packet.checkMandatory = .ok () ∧ packet.dhGroupList? = none ∧
        ∃ solution puzzle, packet.solution? = some solution ∧
          network.Posed event.side.other puzzle ∧ puzzle.challenge = solution.challenge) →
      (kind = .r2 → ∃ keys, network.Serves event.side keys ∧
        (network.engine event.side).Confirms (network.engine event.side.other) keys datagram) →
      network.Letter event.side datagram packet := by
    rintro kind ⟨found, hfound, rfl, hsender, -, hspoken⟩ hr1 hi2 hr2
    obtain rfl := Except.ok.inj (hfound.symm.trans hparse)
    rw [hidentity] at hspoken
    exact ⟨hsender.trans howns.host, hspoken, hr1, hi2, hr2⟩
  cases hwrites with
  | i1 hencode => exact hletter (Connection.carries_i1 hencode) (by simp) (by simp) (by simp)
  | @r1 _ _ cookie _ hissue hencode =>
    refine hletter (Connection.carries_r1 hkey hencode) (fun _ => ?_) (by simp) (by simp)
    obtain rfl := Except.ok.inj ((Context.parse_r1 hkey hencode).symm.trans hparse)
    obtain ⟨secret, rfl⟩ := PuzzleIssuer.issue_eq_ok hissue
    have hcomplexity : ctx.issuer.complexity = ctx.config.puzzleComplexity := by
      rw [hissuer _ rfl, (hhonest.reachable event.side).issuer.1]
      exact (congrArg (·.config.puzzleComplexity) hparty).symm
    rw [howns.host, howns.peer] at hencode
    exact ⟨Packet.echoRequest?_r1, secret, cookie, ctx, before, hparty, hcomplexity, howns.host,
      howns.peer, hencode⟩
  | @i2 pending _ _ _ hpending hseal hencode =>
    refine hletter (Connection.carries_i2 hkey hseal hencode) (by simp) (fun _ => ?_) (by simp)
    obtain rfl :=
      Except.ok.inj ((Context.parse_i2 pending.echo hkey hseal hencode).symm.trans hparse)
    obtain ⟨hposed, -⟩ := (hrecorded event.side before hlinked).pending pending hpending
    exact ⟨Context.checkMandatory_i2 hseal, Context.dhGroupList?_i2 pending.echo hseal, _,
      pending.puzzle, Context.solution?_i2 hseal, hposed, rfl⟩
  | r2 hkind hvalid hseal hencode =>
    refine hletter (Connection.carries_r2 hseal hencode) (by simp) (by simp) (fun _ => ?_)
    exact ⟨_, serves_of_validateI2 hdrives hhonest hadmits hrecorded hparty rfl hkind hvalid,
      ctx, before, _, hparty, hseal, hencode, howns.host, hdrives.peer_eq⟩

omit hrecorded in
/-- A move of our connection keeps what is said of it. -/
theorem Recorded.of_drives (hrecorded : network.IsRecorded)
    (haccepted : (network.engine event.side).config.IsAccepted)
    (hissuer : ∀ packet, stimulus = .packet packet →
      ctx.issuer = (network.engine event.side).issuer)
    (hmove : before.Move ctx stimulus moved) : (network.step event).Recorded event.side moved := by
  have hlinked : network.Linked event.side before := hdrives.offered
  have howns : (network.view False event.side).Owns before := hhonest.owns hlinked
  have hbefore := hrecorded event.side before hlinked
  have hextends := network.extends_step event
  refine ⟨fun datagram hsent packet hparse hreceiver => ?_, fun sent hlast => ?_, fun hstate => ?_,
    fun later hlater => ?_, fun keys hkeys hrole => ?_⟩
  · rw [peer_step] at hreceiver
    refine Letter.mono hextends ?_
    rcases mem_or_transmit_of_sent hdrives hsent hparse hreceiver with hold | hout
    · exact hbefore.letters datagram hold packet hparse hreceiver
    · rcases hmove.writes howns.outbox hout with ⟨kind, hlast⟩ | hwrites
      · exact hbefore.letters datagram (hbefore.last _ hlast) packet hparse hreceiver
      · exact letter_of_writes hdrives hhonest hadmits hrecorded hparty hissuer hwrites hparse
  · rcases hmove.lastSent_or_transmit hlast with hold | hout
    · exact hextends.sent _ _ (hbefore.last sent hold)
    · exact mem_sent_of_transmit hdrives hout
  · rcases hmove.asks hstate with hold | ⟨datagram, hencode, hout⟩
    · obtain ⟨i1, hsent, hasks⟩ := hbefore.asked hold
      exact ⟨i1, hextends.sent _ _ hsent, hextends.asks hasks⟩
    · exact ⟨datagram, mem_sent_of_transmit hdrives hout, hextends.asks
        ⟨ctx, before, congrArg Party.identity hparty, howns.host, hdrives.peer_eq, hencode⟩⟩
  · rcases hmove.pending_cases hlater with ⟨pending, hpending, hpuzzle, hkeys, hecho⟩ |
      ⟨packet, hstimulus, hkind, hecho, hvalid⟩
    · obtain ⟨hposed, hsilent, hlength⟩ := hbefore.pending pending hpending
      rw [hpuzzle] at hposed
      exact ⟨hposed.mono hextends, hecho ▸ hsilent, hkeys ▸ hlength⟩
    · obtain ⟨id, haccepts⟩ := Context.validateR1_eq_ok_iff.mp hvalid
      have htold : network.Told event.side.other packet :=
        told_of_stimulus hdrives hadmits hstimulus (by simp [hkind])
      have hposed : network.Posed event.side.other later.puzzle :=
        ⟨packet, htold, hkind, haccepts.hasPuzzle⟩
      obtain ⟨_, -, -, -, hletter⟩ := hrecorded.letter htold
      have hconfig : ctx.config = (network.engine event.side).config := congrArg Party.config hparty
      exact ⟨hposed.mono hextends, hecho.trans (hletter.invites hkind).1,
        Context.isKeyLength_of_sessionKeys (hconfig ▸ haccepted) haccepts.derived⟩
  · rcases hmove.serves_cases howns.form hkeys hrole with hold |
      ⟨packet, cipher, r2, datagram, hstimulus, hkind, hvalid, hseal, hencode, hout⟩
    · obtain ⟨hserves, hconfirmed⟩ := hbefore.holds keys hold hrole
      exact ⟨hserves.mono hextends, hconfirmed.mono hextends⟩
    · have hserves :=
        serves_of_validateI2 hdrives hhonest hadmits hrecorded hparty hstimulus hkind hvalid
      exact ⟨hserves.mono hextends, datagram, mem_sent_of_transmit hdrives hout, hextends.confirms
        ⟨ctx, before, r2, hparty, hseal, hencode, howns.host, hdrives.peer_eq⟩⟩

end Drives

section Undisturbed

variable (hundisturbed : (network.engine event.side).Undisturbed event.call
  (network.peer event.side))
include hundisturbed

/-- Where a host queues nothing for the other, nothing is to be said of it anew. -/
theorem mem_of_undisturbed {datagram : List UInt8}
    (hsent : datagram ∈ (network.step event).sent event.side) {packet : Packet}
    (hparse : Packet.parse datagram = .ok packet)
    (hreceiver : packet.receiver = network.peer event.side) :
    datagram ∈ network.sent event.side := by
  rw [sent_step_self] at hsent
  refine (List.mem_append.mp hsent).resolve_right fun hnew => ?_
  obtain ⟨out, hout, rfl⟩ := List.mem_map.mp hnew
  exact hundisturbed.queued out hout ⟨packet, hparse, hreceiver⟩

theorem told_of_undisturbed {packet : Packet}
    (htold : (network.step event).Told event.side packet) : network.Told event.side packet := by
  obtain ⟨datagram, hsent, hparse, hreceiver⟩ := htold
  rw [peer_step] at hreceiver
  exact ⟨datagram, mem_of_undisturbed hundisturbed hsent hparse hreceiver, hparse, hreceiver⟩

theorem linked_of_undisturbed (hafter : (network.step event).Linked event.side conn) :
    network.Linked event.side conn := by
  unfold Linked at hafter ⊢
  rwa [engine_step_self, peer_step, hundisturbed.find, Engine.hit_after] at hafter

end Undisturbed

/-- Whatever the network brings about, the datagrams go on telling of both hosts. -/
theorem IsRecorded.step (hhonest : network.Honest)
    (haccepted : ∀ side, (network.engine side).config.IsAccepted) (hadmits : network.Admits event)
    (hrecorded : network.IsRecorded) : (network.step event).IsRecorded := by
  intro side conn hafter
  rcases side.eq_or_eq_other event.side with rfl | rfl
  · rcases Engine.undisturbed_or_drives (hhonest.reachable event.side) (hhonest.key event.side)
      (hhonest.isOpen event.side) hadmits.notClose (network.peer event.side) with
      hundisturbed | ⟨stimulus, before, moved, hdrives⟩
    · exact (hrecorded event.side conn (linked_of_undisturbed hundisturbed hafter)).mono
        (network.extends_step event) fun datagram hsent packet =>
          mem_of_undisturbed hundisturbed hsent
    · obtain ⟨ctx, hparty, hissuer, hmove⟩ := hdrives.move
      have hmoved :=
        Recorded.of_drives hdrives hhonest hadmits hparty hrecorded (haccepted event.side)
        hissuer hmove
      unfold Linked at hafter
      rw [engine_step_self, peer_step] at hafter
      rcases hafter with hfound | ⟨hnone, address, rfl⟩
      · rcases hdrives.kept with hfind | ⟨-, -, hnone⟩
        · obtain rfl := Option.some.inj (hfind.symm.trans hfound)
          exact hmoved.settled
        · cases hnone.symm.trans hfound
      · exact hmoved.fresh _ _ _
  · refine (hrecorded _ conn (linked_step_other.mp hafter)).mono (network.extends_step event)
      fun datagram hsent _ _ _ => ?_
    rwa [sent_step_other] at hsent

theorem IsRecorded.run {events : List Event} (hhonest : network.Honest)
    (haccepted : ∀ side, (network.engine side).config.IsAccepted) (hlawful : network.Lawful events)
    (hrecorded : network.IsRecorded) : (network.run events).IsRecorded := by
  induction events generalizing network with
  | nil => exact hrecorded
  | cons event rest ih =>
    obtain ⟨hadmits, hrest⟩ := hlawful
    refine ih (hhonest.step hadmits)
      (fun side => ?_) hrest (hrecorded.step hhonest haccepted hadmits)
    rw [(network.continues_step event side).config]
    exact haccepted side

end Step

/-- Of two engines without connections that have queued nothing there is nothing to tell. -/
theorem isRecorded_start {left right : Engine} (hleft : left.table = .empty)
    (hright : right.table = .empty) : (start left right).IsRecorded := by
  intro side conn hlinked
  obtain ⟨address, rfl⟩ := fresh_of_linked_start hleft hright hlinked
  exact {
    letters := fun _ hsent => absurd hsent List.not_mem_nil
    last := fun _ hlast => by cases hlast
    asked := fun hstate => by cases hstate
    pending := fun _ hpending => by cases hpending
    holds := fun _ hkeys => by cases hkeys }

end Network

end DietExchange
