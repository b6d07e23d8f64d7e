import DietExchange.Proofs.Engine.Footing
import DietExchange.Proofs.Engine.Gate
import DietExchange.Proofs.Engine.Waiting

namespace DietExchange

theorem Context.dhGroupList?_i2 {ctx : Context} {conn : Connection} {puzzle : Puzzle}
    {answer : Block} {key : List UInt8} {sealed : Packet} (echo : Option (List UInt8))
    (hseal : (ctx.i2 conn puzzle answer).recalculateMac key = .ok sealed) :
    (sealed.withEcho echo).canonical.dhGroupList? = none := by
  rw [Packet.dhGroupList?_canonical, Packet.dhGroupList?, parameter?_i2 hseal (by simp) (by simp)]
  rfl

namespace Engine

/-- Whether a datagram is an R1 of one engine for another, with a challenge under this secret. -/
def Challenges (engine other : Engine) (secret : Block) (cookie : UInt16)
    (datagram : List UInt8) : Prop :=
  ∃ (ctx : Context) (conn : Connection), ctx.party = engine.party ∧
    ctx.issuer.complexity = ctx.config.puzzleComplexity ∧ conn.host = engine.hit ∧
    conn.peer = other.hit ∧
    (ctx.r1 conn (challengeFor secret other.hit engine.hit []) cookie).encode = .ok datagram

/-- Whether these are the keys of one engine for a handshake with another, under a challenge of the
    other one that comes from this secret. -/
structure Agrees (engine other : Engine) (secret : Block) (keys : KeySet) : Prop where
  isInitiator : keys.isInitiator = true
  initiatorLength : Config.IsKeyLength keys.initiator.integrity.length
  responderLength : Config.IsKeyLength keys.responder.integrity.length
  shared : (other.context other.lastNow).sessionKeys engine.identity.publicKey engine.hit other.hit
    (challengeFor secret engine.hit other.hit []) false = .ok { keys with isInitiator := false }

/-- Whether a puzzle is one of an engine with a challenge for a peer under this secret. -/
structure Poses (engine : Engine) (peer : Hit) (secret : Block) (puzzle : Puzzle) : Prop where
  challenge : puzzle.challenge = challengeFor secret peer engine.hit []
  complexity : puzzle.k = engine.config.puzzleComplexity

/-- Whether a datagram is an I2 of one engine for another, sealed under these keys, that answers a
    challenge under this secret. -/
def Answers (engine other : Engine) (secret : Block) (keys : KeySet)
    (datagram : List UInt8) : Prop :=
  engine.Agrees other secret keys ∧ ∃ puzzle, other.Poses engine.hit secret puzzle ∧
    Connection.IsAnswer engine.party engine.hit other.hit puzzle keys datagram

/-- Whether a packet is an R1 of another engine with a challenge under this secret, and this puzzle
    and these keys are what an engine makes of it. -/
structure Reads (engine other : Engine) (secret : Block) (r1 : Packet) (puzzle : Puzzle)
    (keys : KeySet) : Prop where
  kind : r1.kind = .r1
  sender : r1.sender = other.hit
  receiver : r1.receiver = engine.hit
  echo : r1.echoRequest? = none
  valid : ∀ ctx : Context, ctx.party = engine.party →
    ctx.validateR1 engine.hit other.hit r1 = .ok (puzzle, keys)
  agrees : engine.Agrees other secret keys
  poses : other.Poses engine.hit secret puzzle

/-- Whether a datagram is an R2 of one engine for another, sealed under these keys. -/
def Confirms (engine other : Engine) (keys : KeySet) (datagram : List UInt8) : Prop :=
  ∃ (ctx : Context) (conn : Connection) (sealed : Packet), ctx.party = engine.party ∧
    (ctx.r2 conn).recalculateMac keys.responder.integrity = .ok sealed ∧
    sealed.encode = .ok datagram ∧ conn.host = engine.hit ∧ conn.peer = other.hit

variable {engine other : Engine} {secret : Block} {keys : KeySet}

theorem Challenges.exists_parse {cookie : UInt16} {r1 : List UInt8}
    (hchallenges : engine.Challenges other secret cookie r1) (hkey : engine.identity.HasCurveKey) :
    ∃ packet, Packet.parse r1 = .ok packet ∧ packet.receiver = other.hit := by
  obtain ⟨ctx, conn, hparty, -, -, hpeer, hencode⟩ := hchallenges
  have hidentity : ctx.identity = engine.identity := congrArg Party.identity hparty
  exact ⟨_, Context.parse_r1 (hidentity ▸ hkey) hencode, hpeer⟩

/-- An R1 stays one of an engine for another, whatever the two do. -/
theorem Challenges.of_continues {first second : Engine} {cookie : UInt16} {r1 : List UInt8}
    (hchallenges : other.Challenges engine secret cookie r1)
    (hother : other.Continues second) (hengine : engine.Continues first) :
    second.Challenges first secret cookie r1 := by
  unfold Challenges
  rw [hother.party, hother.hit, hengine.hit]
  exact hchallenges

theorem Answers.exists_i2 {i2 : List UInt8} (hanswers : engine.Answers other secret keys i2)
    (hkey : engine.identity.HasCurveKey) :
    ∃ packet, Packet.parse i2 = .ok packet ∧ packet.receiver = other.hit ∧ packet.kind = .i2 := by
  obtain ⟨-, puzzle, -, ctx, conn, answer, sealed, hparty, -, hpeer, hseal, hencode, -⟩ := hanswers
  have hidentity : ctx.identity = engine.identity := congrArg Party.identity hparty
  obtain ⟨hkind, -, hreceiver⟩ := Context.header_i2 none hseal
  exact ⟨_, Context.parse_i2 none (hidentity ▸ hkey) hseal hencode, hreceiver.trans hpeer, hkind⟩

theorem Answers.exists_parse {i2 : List UInt8} (hanswers : engine.Answers other secret keys i2)
    (hkey : engine.identity.HasCurveKey) :
    ∃ packet, Packet.parse i2 = .ok packet ∧ packet.receiver = other.hit := by
  obtain ⟨packet, hparse, hreceiver, -⟩ := hanswers.exists_i2 hkey
  exact ⟨packet, hparse, hreceiver⟩

theorem Confirms.exists_parse {r2 : List UInt8} (hconfirms : engine.Confirms other keys r2) :
    ∃ packet, Packet.parse r2 = .ok packet ∧ packet.receiver = other.hit := by
  obtain ⟨ctx, conn, sealed, -, hseal, hencode, -, hpeer⟩ := hconfirms
  obtain ⟨-, -, hreceiver⟩ := Context.header_r2 hseal
  exact ⟨_, Context.parse_r2 hseal hencode, hreceiver.trans hpeer⟩

/-- An engine that fits can make something of an R1. -/
theorem Challenges.exists_reads {cookie : UInt16} {r1 : List UInt8}
    (hchallenges : other.Challenges engine secret cookie r1)
    (hfits : engine.party.Fits other.party) : ∃ packet puzzle keys,
      Packet.parse r1 = .ok packet ∧ engine.Reads other secret packet puzzle keys := by
  obtain ⟨theirs, replying, hparty, hconfigured, hfrom, hto, hencode⟩ := hchallenges
  have hidentity : theirs.identity = other.identity := congrArg Party.identity hparty
  have hhit : theirs.identity.hit = other.hit := congrArg HostIdentity.hit hidentity
  let challenge := challengeFor secret engine.hit other.hit []
  let mine := engine.context engine.lastNow
  have hcompatible : mine.party.Compatible theirs.welcoming.party := by
    rw [← hparty] at hfits
    exact hfits
  obtain ⟨keys, hmine, hshared, hrole, hinitiator, hresponder⟩ :=
    hcompatible.exists_sessionKeys challenge
  have hvalid : mine.validateR1 engine.hit theirs.identity.hit _ = _ :=
    hcompatible.validateR1 hconfigured replying challenge cookie hmine
  have htheirs : theirs.sessionKeys engine.identity.publicKey engine.hit
      theirs.identity.hit challenge false = .ok { keys with isInitiator := false } := hshared
  rw [Context.sessionKeys_congr (show theirs.party =
    (other.context other.lastNow).party from hparty), hhit] at htheirs
  rw [hhit] at hvalid
  exact ⟨_, ⟨theirs.issuer.complexity, defaultLifetime, cookie, challenge⟩, keys,
    Context.parse_r1 hcompatible.responderKey hencode, {
      kind := rfl
      sender := hfrom
      receiver := hto
      echo := (Packet.echoRequest?_canonical _).trans rfl
      valid := fun ctx hctx => by
        rw [Context.validateR1_congr (show ctx.party = mine.party from hctx)]
        exact hvalid
      agrees := ⟨hrole, hinitiator, hresponder, htheirs⟩
      poses := ⟨rfl, hconfigured.trans (congrArg (·.config.puzzleComplexity) hparty)⟩ }⟩

section Reads

variable {r1 : Packet} {puzzle : Puzzle} (hreads : engine.Reads other secret r1 puzzle keys)
  {conn : Connection} (hhost : conn.host = engine.hit) (hpeer : conn.peer = other.hit)
  {i2 : List UInt8}
include hreads hhost hpeer

/-- A connection that waits with an answer to the puzzle of an R1 rests on the R1. -/
theorem Reads.restsOn (hawaits : conn.AwaitsR2 keys i2)
    (hanswer : Connection.IsAnswer engine.party engine.hit other.hit puzzle keys i2) :
    conn.RestsOn engine.party r1 keys i2 := by
  refine ⟨hawaits, puzzle, ?_⟩
  rw [hhost, hpeer, hreads.echo]
  exact ⟨⟨engine.context engine.lastNow, rfl, hreads.valid _ rfl⟩, hanswer⟩

/-- The I2 of a connection that rests on an R1 answers the challenge of the R1. -/
theorem Reads.answers {held : KeySet} (hrests : conn.RestsOn engine.party r1 held i2) :
    engine.Answers other secret held i2 := by
  obtain ⟨found, ⟨ctx, hparty, hfound⟩, hreply⟩ := hrests.reply
  rw [hhost, hpeer] at hfound hreply
  rw [hreads.echo] at hreply
  obtain ⟨rfl, rfl⟩ := Prod.mk.inj (Except.ok.inj (hfound.symm.trans (hreads.valid ctx hparty)))
  exact ⟨hreads.agrees, found, hreads.poses, hreply⟩

end Reads

section Asker

variable {cookie : UInt16} {r1 : List UInt8}
  (hchallenges : other.Challenges engine secret cookie r1)
  (hcompatible : engine.party.Compatible other.party) {asked : Engine}
  (hcontinues : engine.Continues asked) (hreachable : asked.Reachable)
  (hopen : asked.closed = false) {conn : Connection}
  (hfind : asked.table.find? other.hit = some conn) (hawaits : conn.AwaitsR1)
  (source : Address) (now : Nat)
include hchallenges hcompatible hcontinues hreachable hopen hfind hawaits

/-- An engine that waits for an R1 takes it up. -/
theorem Challenges.takesUp : (asked.after (.handlePacket r1 source now)).closed = false ∧
    asked.queuedBy (.handlePacket r1 source now) = [] ∧
    ∃ packet puzzle keys taken, Packet.parse r1 = .ok packet ∧
      engine.Reads other secret packet puzzle keys ∧
      (asked.after (.handlePacket r1 source now)).table.find? other.hit = some taken ∧
      taken.Solves puzzle keys := by
  obtain ⟨packet, puzzle, keys, hparse, hreads⟩ := hchallenges.exists_reads hcompatible.fits
  have hmaximum : puzzle.k ≤ maxComplexity := by
    rw [hreads.poses.complexity]
    exact UInt8.le_trans hcompatible.complexity hcompatible.initiatorAccepted.maximum
  have hvalid := hreads.valid (asked.context (max asked.lastNow now)) hcontinues.party
  rw [← hcontinues.hit] at hvalid
  obtain ⟨-, taken, htaken, hsolves, hstill, hqueued, -⟩ :=
    r1_is_taken hreachable hopen hparse hreads.kind hreads.sender
      (hreads.receiver.trans hcontinues.hit.symm) hfind hawaits hvalid hmaximum hreads.echo source
  exact ⟨hstill, hqueued, packet, puzzle, keys, taken, hparse, hreads, htaken, hsolves⟩

/-- An engine that has taken up an R1 has sent the I2 by the time that it is done with the puzzle,
    whatever else it does with others. -/
theorem Challenges.answered {calls : List Call}
    (hspares : ∀ call ∈ calls, call.Spares engine.hit other.hit)
    (hsolved : ∀ later, (asked.run (.handlePacket r1 source now :: calls)).table.find? other.hit =
      some later → later.isSolving = false) :
    ∃ keys i2 later, engine.Answers other secret keys i2 ∧
      (∃ out ∈ (asked.after (.handlePacket r1 source now)).queuedIn calls, out.datagram = i2) ∧
      (asked.run (.handlePacket r1 source now :: calls)).closed = false ∧
      (asked.run (.handlePacket r1 source now :: calls)).table.find? other.hit = some later ∧
      later.AwaitsR2 keys i2 := by
  obtain ⟨hstill, -, packet, puzzle, keys, taken, -, hreads, htaken, hsolves⟩ :=
    hchallenges.takesUp hcompatible hcontinues hreachable hopen hfind hawaits source now
  have hafter := hcontinues.trans (asked.continues_after (.handlePacket r1 source now))
  have hkey : (asked.after (.handlePacket r1 source now)).identity.HasCurveKey := by
    rw [hafter.identity]
    exact hcompatible.initiatorKey
  rw [← hafter.hit] at hspares
  obtain ⟨later, hlater, hworks, -⟩ :=
    solves_run (hreachable.after _) hkey hstill hspares htaken hsolves hreads.agrees.initiatorLength
  obtain ⟨i2, hsent, hanswer, hqueued, -⟩ := hworks.solved (hsolved later hlater)
  rw [hafter.party, hafter.hit] at hanswer
  exact ⟨keys, i2, later, ⟨hreads.agrees, puzzle, hreads.poses, hanswer⟩, hqueued,
    closed_run_of_spares hstill hspares, hlater, hsent⟩

/-- Under puzzles that are no work it has sent the I2 the first time that it sees the time. -/
theorem Challenges.answered_at_once (heasy : other.config.puzzleComplexity = 0) (order : List Hit) :
    ∃ packet keys i2 later, Packet.parse r1 = .ok packet ∧ engine.Answers other secret keys i2 ∧
      (∃ out ∈ (asked.after (.handlePacket r1 source now)).queuedBy (.handleTimeout order now),
        out.datagram = i2) ∧
      (asked.run [.handlePacket r1 source now, .handleTimeout order now]).closed = false ∧
      (asked.run [.handlePacket r1 source now, .handleTimeout order now]).table.find? other.hit =
        some later ∧
      later.RestsOn engine.party packet keys i2 := by
  obtain ⟨hstill, -, packet, puzzle, keys, taken, hparse, hreads, htaken, hsolves⟩ :=
    hchallenges.takesUp hcompatible hcontinues hreachable hopen hfind hawaits source now
  have hafter := hcontinues.trans (asked.continues_after (.handlePacket r1 source now))
  have hkey : (asked.after (.handlePacket r1 source now)).identity.HasCurveKey := by
    rw [hafter.identity]
    exact hcompatible.initiatorKey
  have hbatch : 0 < (asked.after (.handlePacket r1 source now)).config.solveBatch := by
    rw [hafter.config]
    exact hcompatible.initiatorAccepted.batch
  have hsolving := hreachable.after (.handlePacket r1 source now)
  obtain ⟨later, i2, hlater, hsent, hanswer, hqueued⟩ :=
    solves_at_once hsolving hkey hstill htaken hsolves
    (hreads.poses.complexity.trans heasy) hbatch hreads.agrees.initiatorLength order now
  rw [hafter.party, hafter.hit] at hanswer
  obtain ⟨hmem, hpeer⟩ := ConnectionTable.find?_eq_some_iff.mp hlater
  have hhost : later.host = engine.hit :=
    ((hsolving.after (.handleTimeout order now)).host_eq hmem).trans
      (hcontinues.trans (asked.continues_run [.handlePacket r1 source now,
        .handleTimeout order now])).hit
  have hcall : Call.handleTimeout order now ≠ .close := by simp
  exact ⟨packet, keys, i2, later, hparse, ⟨hreads.agrees, puzzle, hreads.poses, hanswer⟩, hqueued,
    closed_after hstill hcall, hlater, hreads.restsOn hhost hpeer hsent hanswer⟩

end Asker

/-- An engine to which the I2 is welcome answers it and holds the keys. -/
theorem Answers.confirmed {i2 : List UInt8} (hanswers : other.Answers engine secret keys i2)
    {holder : Engine} (hcontinues : engine.Continues holder) (hreachable : Reachable holder)
    (hopen : holder.closed = false) (source : Address) (now : Nat)
    (hfits : other.party.Fits engine.party) (hmem : secret ∈ holder.issuer.window.secrets)
    (hunsolicited : holder.table.find? other.hit = none → engine.config.acceptUnsolicited = true)
    (hwelcomes : holder.Welcomes other.hit) :
    (holder.handlePacket i2 source now).result = .ok () ∧
    ∃ r2 moved, engine.Confirms other keys r2 ∧
      (∃ address, holder.queuedBy (.handlePacket i2 source now) = [⟨address, r2⟩]) ∧
      (holder.after (.handlePacket i2 source now)).closed = false ∧
      (holder.after (.handlePacket i2 source now)).table.find? other.hit = some moved ∧
      moved.Holds { keys with isInitiator := false }
        (max holder.lastNow now + engine.config.r2SentHold) := by
  obtain ⟨hagrees, puzzle, ⟨hchallenge, hcomplexity⟩, hanswer⟩ := hanswers
  let mine := other.context other.lastNow
  have hholder : mine.party.Fits holder.party := by
    rw [hcontinues.party]
    exact hfits
  have hresponds : (engine.context engine.lastNow).party = (holder.context holder.lastNow).party :=
    hcontinues.party.symm
  have hshared := hagrees.shared
  rw [← hchallenge, Context.sessionKeys_congr hresponds] at hshared
  rw [← hcontinues.hit] at hanswer hchallenge hshared
  rw [← hcontinues.config] at hcomplexity hunsolicited
  obtain ⟨hresult, moved, replying, sealed, address, r2, hfind, hholds, hseal, hencode, hfrom,
    hto, hstill, hqueued, -⟩ :=
      i2_is_answered hreachable hopen hholder hunsolicited hanswer hmem hchallenge.symm
      hcomplexity hshared hagrees.responderLength hwelcomes source now
  rw [hcontinues.config] at hholds
  exact ⟨hresult, r2, moved, ⟨holder.context (max holder.lastNow now), replying, sealed,
    hcontinues.party, hseal, hencode, hfrom.trans hcontinues.hit, hto⟩, ⟨address, hqueued⟩, hstill,
      hfind, hholds⟩

/-- An engine that waits for an R1 answers an I2 like an I1, and then the I2 is welcome to it. -/
theorem Answers.welcomes {i2 : List UInt8} (hanswers : other.Answers engine secret keys i2)
    {holder : Engine} (hcontinues : engine.Continues holder) (hreachable : holder.Reachable)
    (hopen : holder.closed = false) (source : Address) (now : Nat)
    (hkey : engine.identity.HasCurveKey) (hotherKey : other.identity.HasCurveKey)
    (hstate : holder.state? other.hit = some .i1Sent) :
    (holder.after (.handlePacket i2 source now)).Welcomes other.hit := by
  obtain ⟨-, puzzle, -, ctx, conn, answer, sealed, hparty, hhost, hpeer, hseal, hencode, -⟩ :=
    hanswers
  have hidentity : ctx.identity = other.identity := congrArg Party.identity hparty
  obtain ⟨hkind, hsender, hreceiver⟩ := Context.header_i2 none hseal
  have hparse := Context.parse_i2 none (hidentity ▸ hotherKey) hseal hencode
  obtain ⟨-, hr2Sent, hkeyless⟩ :=
    i2_is_answered_as_i1 hreachable hopen (hcontinues.identity ▸ hkey)
    hparse hkind ((hreceiver.trans hpeer).trans hcontinues.hit.symm)
    (Context.checkMandatory_i2 hseal) (Context.checkOffer_eq_ok_iff.mpr fun offered hoffered => by
      cases (Context.dhGroupList?_i2 none hseal).symm.trans hoffered)
    (show holder.state? (sealed.withEcho none).sender = some .i1Sent by rwa [hsender, hhost])
      source now
  rw [show (sealed.withEcho none).canonical.sender = other.hit from hsender.trans hhost]
    at hr2Sent hkeyless
  obtain ⟨held, hfind, hheld⟩ := Option.map_eq_some_iff.mp hr2Sent
  have hkeys : held.keys = none := by
    rw [← hkeyless, keys?_of_find? hfind rfl]
  exact .inr ⟨held, hfind, .inr (.inl ⟨hheld, hkeys⟩)⟩

/-- An engine that waits for an R2 is done with the one that the other sends. -/
theorem Confirms.concludes {r2 : List UInt8} (hconfirms : other.Confirms engine keys r2)
    (hfits : engine.party.Fits other.party) {waiting : Engine}
    (hcontinues : engine.Continues waiting) (hreachable : Reachable waiting)
    (hopen : waiting.closed = false) {conn : Connection}
    (hfind : waiting.table.find? other.hit = some conn) {i2 : List UInt8}
    (hawaits : conn.AwaitsR2 keys i2) (source : Address) (now : Nat) :
    (waiting.handlePacket r2 source now).result = .ok () ∧
      (waiting.after (.handlePacket r2 source now)).closed = false ∧ ∃ moved,
      (waiting.after (.handlePacket r2 source now)).table.find? other.hit = some moved ∧
      moved.IsDone keys := by
  obtain ⟨theirs, replying, sealed, hparty, hseal, hencode, hfrom, hto⟩ := hconfirms
  have hhit : theirs.identity.hit = other.hit := congrArg (·.identity.hit) hparty
  have htheirs : waiting.party.Fits theirs.party := by
    rw [hparty, hcontinues.party]
    exact hfits
  obtain ⟨hresult, moved, hafter, hdone, hstill, -⟩ :=
    r2_completes hreachable hopen htheirs hseal hencode
    (hfrom.trans hhit.symm) (hto.trans hcontinues.hit.symm) (hhit ▸ hfind) hawaits source now
  rw [hhit] at hafter
  exact ⟨hresult, hstill, moved, hafter, hdone⟩

end Engine

end DietExchange
