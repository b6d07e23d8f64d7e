import DietExchange.Proofs.Connection.Phase
import DietExchange.Proofs.Engine.Progress

namespace DietExchange

namespace Engine

def party (engine : Engine) : Party := ⟨engine.config, engine.identity⟩

theorem Continues.party {old new : Engine} (hcontinues : Continues old new) : new.party =
    old.party := by
  rw [Engine.party, hcontinues.config, hcontinues.identity]
  rfl

theorem Continues.hit {old new : Engine} (hcontinues : Continues old new) : new.hit = old.hit :=
  congrArg HostIdentity.hit hcontinues.identity

section Window

/-- What rotations leave of the secrets: each puts one in front, and three are kept. -/
theorem issuer_run (engine : Engine) (calls : List Call) : ∃ pushed : List Block,
    (engine.run calls).issuer.generation = engine.issuer.generation + pushed.length ∧
    (engine.run calls).issuer.window.secrets =
      (pushed ++ engine.issuer.window.secrets).take secretWindowSize ∧
    (engine.run calls).issuer.complexity = engine.issuer.complexity := by
  induction calls generalizing engine with
  | nil =>
    refine ⟨[], rfl, ?_, rfl⟩
    rw [List.nil_append, List.take_of_length_le engine.issuer.window.length_le]
    rfl
  | cons call rest ih =>
    obtain ⟨pushed, hgeneration, hsecrets, hcomplexity⟩ := ih (engine.after call)
    rw [run_cons]
    rcases engine.issuer_after call with hsame | ⟨order, now, secret, -, hrotated⟩
    · rw [hsame] at hgeneration hsecrets hcomplexity
      exact ⟨pushed, hgeneration, hsecrets, hcomplexity⟩
    · rw [hrotated] at hgeneration hsecrets hcomplexity
      refine ⟨pushed ++ [secret], ?_, ?_, hcomplexity⟩
      · rw [hgeneration, List.length_append, List.length_singleton]
        dsimp only
        omega
      · rw [hsecrets, SecretWindow.push, List.append_assoc, List.singleton_append]
        simp only [List.take_append, List.take_take, Nat.min_eq_left (Nat.sub_le _ _)]

/-- A challenge is accepted for as long as its secret was not replaced more than twice. -/
theorem newest_mem_run {engine : Engine} {calls : List Call} {secret : Block}
    (hnewest : engine.issuer.window.newest? = some secret)
    (hrotations : (engine.run calls).issuer.generation ≤ engine.issuer.generation + 2) :
    secret ∈ (engine.run calls).issuer.window.secrets := by
  obtain ⟨pushed, hgeneration, hsecrets, -⟩ := engine.issuer_run calls
  have hpushed : pushed.length ≤ 2 := by omega
  obtain ⟨rest, hrest⟩ : ∃ rest, engine.issuer.window.secrets = secret :: rest :=
    List.head?_eq_some_iff.mp hnewest
  have hlength : pushed.length < secretWindowSize := Nat.lt_succ_of_le hpushed
  rw [hsecrets, hrest, List.take_append]
  apply List.mem_append_right
  obtain ⟨room, hroom⟩ := Nat.exists_eq_add_of_lt hlength
  have hspace : secretWindowSize - pushed.length = room + 1 := by omega
  rw [hspace, List.take_succ_cons]
  exact List.mem_cons_self

/-- An answer to a challenge under a secret that is kept is accepted if it solves it. -/
theorem verify_of_mem {issuer : PuzzleIssuer} {secret challenge answer : Block}
    {initiator responder : Hit} (hmem : secret ∈ issuer.window.secrets)
    (hchallenge : challengeFor secret initiator responder [] = challenge)
    (hcomplexity : issuer.complexity ≤ maxComplexity)
    (hsolves : solves challenge answer initiator responder issuer.complexity = true) :
    issuer.verify challenge answer initiator responder issuer.complexity [] = true := by
  unfold PuzzleIssuer.verify
  rw [if_neg (UInt8.not_lt.mpr hcomplexity), hsolves, Bool.and_true, List.any_eq_true]
  exact ⟨secret, hmem, beq_iff_eq.mpr hchallenge⟩

end Window

variable {engine : Engine} {now : Nat} {source : Address} {datagram : List UInt8}

/-- A connect to a peer with whom nothing was begun sends an I1. -/
theorem connect_offered_sends_i1 (hopen : engine.closed = false) {peer : Hit}
    (hpeer : peer ≠ engine.hit) {address : Address} {conn : Connection}
    (hoffers : engine.Offers peer address conn) (hstate : conn.state = .unassociated)
    (hidle : conn.pending = none) (houtbox : conn.outbox = []) (now : Nat) :
    (engine.connect peer address now).result = .ok () ∧
    ∃ (moved : Connection) (datagram : List UInt8),
      ((engine.context (max engine.lastNow now)).i1 conn).encode = .ok datagram ∧
      (engine.after (.connect peer address now)).table.find? peer = some moved ∧ moved.AwaitsR1 ∧
      (engine.after (.connect peer address now)).closed = false ∧
      engine.queuedBy (.connect peer address now) = [⟨conn.address, datagram⟩] ∧
      engine.toldBy (.connect peer address now) = [] := by
  obtain ⟨hresult, moved, hmove, habsorbs⟩ := connect_offered hopen hpeer hoffers hstate now
  have hfind := habsorbs.find_moved (hmove.peer_eq.trans hoffers.peer_eq)
  have hqueued := habsorbs.queued
  have htold := habsorbs.told
  cases hmove with
  | @initiate _ datagram _ hencode =>
    refine ⟨hresult, _, datagram, hencode, hfind, ⟨?_, ?_⟩, habsorbs.closed.trans hopen,
      hqueued.trans ?_, htold.trans ?_⟩
    · exact Connection.state_moveTo _ _
    · simp [Connection.settled, Connection.pending_moveTo, Connection.transmit, hidle]
    · simp [Connection.outgoing, Connection.moveTo, Connection.transmit, hstate, houtbox,
        Connection.sweepSignals, State.needsRetransmission, Signal.outgoing?]
    · simp [Connection.completions, Connection.moveTo, Connection.transmit, hstate, houtbox,
        Connection.sweepSignals, State.needsRetransmission, Signal.completion?]

/-- A connect to a new peer sends an I1 if there is room in the table. -/
theorem connect_sends_i1 (hopen : engine.closed = false) {peer : Hit} (hpeer : peer ≠ engine.hit)
    (hnone : engine.table.find? peer = none)
    (hroom : engine.connectionCount < engine.config.maxConnections) (address : Address)
    (now : Nat) : (engine.connect peer address now).result = .ok () ∧
      ∃ (ctx : Context) (conn moved : Connection) (datagram : List UInt8),
      ctx.identity = engine.identity ∧ conn.host = engine.hit ∧ conn.peer = peer ∧
      (ctx.i1 conn).encode = .ok datagram ∧
      (engine.after (.connect peer address now)).table.find? peer = some moved ∧ moved.AwaitsR1 ∧
      (engine.after (.connect peer address now)).closed = false ∧
      engine.queuedBy (.connect peer address now) = [⟨address, datagram⟩] ∧
      engine.toldBy (.connect peer address now) = [] := by
  obtain ⟨hresult, moved, datagram, hencode, hrest⟩ := connect_offered_sends_i1 hopen hpeer
    (.inr ⟨hnone, hroom, rfl⟩ : engine.Offers peer address _) rfl rfl rfl now
  exact ⟨hresult, _, _, moved, datagram, rfl, rfl, rfl, hencode, hrest⟩

/-- An I1 of a new peer with our group is answered with an R1, and nothing is kept of it. -/
theorem i1_is_answered (hreachable : Reachable engine) (hopen : engine.closed = false)
    (hkey : engine.identity.HasCurveKey) (hunsolicited : engine.config.acceptUnsolicited = true)
    {ctx : Context} {conn : Connection} (hencode : (ctx.i1 conn).encode = .ok datagram)
    (hreceiver : conn.peer = engine.hit) (hcurve : engine.identity.curve = ctx.identity.curve)
    (hnone : engine.table.find? conn.host = none)
    (hroom : engine.connectionCount < engine.config.maxConnections) (source : Address) (now : Nat) :
    (engine.handlePacket datagram source now).result = .ok () ∧
      ∃ r1 secret cookie replying, engine.issuer.window.newest? = some secret ∧
      ((engine.context (max engine.lastNow now)).r1 replying
        (challengeFor secret conn.host engine.hit []) cookie).encode = .ok r1 ∧
      replying.host = engine.hit ∧ replying.peer = conn.host ∧
      (engine.after (.handlePacket datagram source now)).table = engine.table ∧
      (engine.after (.handlePacket datagram source now)).closed = false ∧
      (engine.after (.handlePacket datagram source now)).issuer = engine.issuer ∧
      engine.queuedBy (.handlePacket datagram source now) = [⟨source, r1⟩] ∧
      engine.toldBy (.handlePacket datagram source now) = [] := by
  have hparse := Context.parse_i1 hencode
  obtain ⟨-, secret, hsecret⟩ := hreachable.issuer
  let fresh := Connection.fresh engine.hit conn.host source
  have hissue : engine.issuer.issue fresh.peer fresh.host [] =
      .ok (challengeFor secret conn.host engine.hit []) := by
    rw [PuzzleIssuer.issue, hsecret]
    rfl
  obtain ⟨turn, hreceive⟩ := Turn.exists_receive_i1 ⟨fresh, engine.rng, []⟩
    (engine.context (max engine.lastNow now)) (ctx.i1 conn).canonical rfl rfl
    ((Packet.checkMandatory_canonical _).mpr rfl)
    (Context.checkOffer_eq_ok_iff.mpr fun offered hoffered => by
      rw [Packet.dhGroupList?_canonical] at hoffered
      obtain rfl := Option.some.inj hoffered
      exact Context.contains_canonical_single hcurve) hissue hkey
  obtain ⟨hresult, -, hforgotten⟩ :=
    handlePacket_unknown hopen hparse hreceiver source now hnone hunsolicited hroom hreceive
  obtain ⟨challenge, cookie, r1, hfound, hencodeR1, hstate, houtgoing, hcompletions⟩ :=
    (Turn.move_of_receive hreceive).answers_i1 rfl rfl rfl
  obtain ⟨htable, hqueued, htold, hclosed, hissuer⟩ := hforgotten hstate
  obtain rfl := Except.ok.inj (hissue.symm.trans hfound)
  exact ⟨hresult, r1, secret, cookie, fresh, hsecret, hencodeR1, rfl, rfl, htable,
    hclosed.trans hopen, hissuer, hqueued.trans houtgoing, htold.trans hcompletions⟩

/-- An R1 that is valid is taken where one is waited for, with nothing to say. -/
theorem r1_is_taken (hreachable : Reachable engine) (hopen : engine.closed = false)
    {packet : Packet} {peer : Hit} (hparse : Packet.parse datagram = .ok packet)
    (hkind : packet.kind = .r1) (hsender : packet.sender = peer)
    (hreceiver : packet.receiver = engine.hit) {conn : Connection}
    (hfind : engine.table.find? peer = some conn) (hawaits : conn.AwaitsR1) {now : Nat}
    {puzzle : Puzzle} {keys : KeySet}
    (hvalid : (engine.context (max engine.lastNow now)).validateR1 engine.hit peer packet =
      .ok (puzzle, keys)) (hmaximum : puzzle.k ≤ maxComplexity) (hecho : packet.echoRequest? = none)
    (source : Address) :
    (engine.handlePacket datagram source now).result = .ok () ∧ ∃ moved,
      (engine.after (.handlePacket datagram source now)).table.find? peer = some moved ∧
      moved.Solves puzzle keys ∧ (engine.after (.handlePacket datagram source now)).closed = false ∧
      engine.queuedBy (.handlePacket datagram source now) = [] ∧
      engine.toldBy (.handlePacket datagram source now) = [] := by
  obtain ⟨hmem, hpeer⟩ := ConnectionTable.find?_eq_some_iff.mp hfind
  rw [← hreachable.host_eq hmem, ← hpeer] at hvalid
  obtain ⟨turn, hreceive⟩ := Turn.exists_receive_r1 ⟨conn, engine.rng, []⟩
    (engine.context (max engine.lastNow now)) packet hawaits.state hkind hawaits.pending
      hvalid hmaximum
  subst hsender
  obtain ⟨hresult, habsorbs⟩ := handlePacket_known hopen hparse hreceiver source now hfind hreceive
  have hmove := Turn.move_of_receive hreceive
  obtain ⟨hsolves, hsilent⟩ :=
    hmove.takes_r1 (hreachable.outbox_eq_nil hmem) hawaits hkind hvalid hecho
  refine ⟨hresult, _, habsorbs.find_moved (hmove.peer_eq.trans hpeer),
    ⟨hsolves.state, hsolves.pending⟩, habsorbs.closed.trans hopen, habsorbs.queued.trans ?_,
      habsorbs.told.trans ?_⟩
  · rw [Connection.outgoing, hsilent, List.filterMap_nil]
  · rw [Connection.completions, hsilent, List.filterMap_nil]

/-- The R1 of a host that fits is taken up where one is waited for. -/
theorem r1_is_taken_up (hreachable : Reachable engine) (hopen : engine.closed = false)
    {theirs : Context} {replying conn : Connection} {challenge : Block} {cookie : UInt16}
    {keys : KeySet} (hcompatible : engine.party.NearlyCompatible theirs.party)
    (hcomplexity : theirs.issuer.complexity = theirs.config.puzzleComplexity)
    (hencode : (theirs.r1 replying challenge cookie).encode = .ok datagram)
    (hsender : replying.host = theirs.identity.hit) (hreceiver : replying.peer = engine.hit)
    (hkeys : (engine.context engine.lastNow).sessionKeys theirs.identity.publicKey engine.hit
      theirs.identity.hit challenge true = .ok keys)
    (hfind : engine.table.find? theirs.identity.hit = some conn) (hawaits : conn.AwaitsR1)
    (source : Address) (now : Nat) :
    (engine.handlePacket datagram source now).result = .ok () ∧ ∃ moved,
      (engine.after (.handlePacket datagram source now)).table.find? theirs.identity.hit =
        some moved ∧
      moved.Solves ⟨theirs.issuer.complexity, defaultLifetime, cookie, challenge⟩ keys ∧
      (engine.after (.handlePacket datagram source now)).closed = false ∧
      engine.queuedBy (.handlePacket datagram source now) = [] ∧
      engine.toldBy (.handlePacket datagram source now) = [] := by
  have hparse := Context.parse_r1 hcompatible.responderKey hencode
  have hfits : (engine.context (max engine.lastNow now)).party.NearlyCompatible theirs.party :=
    hcompatible
  have hvalid := hfits.validateR1 hcomplexity replying challenge cookie hkeys
  have hmaximum : theirs.issuer.complexity ≤ maxComplexity := by
    rw [hcomplexity]
    exact UInt8.le_trans hcompatible.complexity hcompatible.initiatorAccepted.maximum
  have hecho : (theirs.r1 replying challenge cookie).canonical.echoRequest? = none :=
    (Packet.echoRequest?_canonical _).trans rfl
  exact r1_is_taken hreachable hopen hparse rfl hsender hreceiver hfind hawaits hvalid hmaximum
    hecho source

/-- Whether an I2 of a peer would be answered anew: there is no connection with it but room for one,
    or there is one that is done, or that waits for an R2 and has the larger HIT, or that is held
    without keys. -/
def Welcomes (engine : Engine) (peer : Hit) : Prop :=
  (engine.table.find? peer = none ∧ engine.connectionCount < engine.config.maxConnections) ∨
    ∃ conn, engine.table.find? peer = some conn ∧ ((conn.state = .i2Sent ∧ ¬conn.host < conn.peer) ∨
      (conn.state = .r2Sent ∧ conn.keys = none) ∨ conn.state = .established)

/-- An I2 that is valid is taken where it is looked at, and answered with an R2. -/
theorem i2_is_taken (hreachable : Reachable engine) (hopen : engine.closed = false)
    {packet : Packet} {peer : Hit} (hparse : Packet.parse datagram = .ok packet)
    (hkind : packet.kind = .i2) (hsender : packet.sender = peer)
    (hreceiver : packet.receiver = engine.hit) (hunsolicited : engine.table.find? peer = none →
      engine.config.acceptUnsolicited = true)
    (hwelcomes : engine.Welcomes peer) {now : Nat} {keys : KeySet} {cipher : CipherSuite}
    (hvalid : (engine.context (max engine.lastNow now)).validateI2 engine.hit peer packet =
      .ok (keys, cipher)) (hlength : Config.IsKeyLength keys.responder.integrity.length)
    (source : Address) :
    (engine.handlePacket datagram source now).result = .ok () ∧
      ∃ (replying moved : Connection) (sealed : Packet) (address : Address) (r2 : List UInt8),
      engine.Absorbs (.handlePacket datagram source now) moved ∧ moved.peer = peer ∧
      moved.Holds keys (max engine.lastNow now + engine.config.r2SentHold) ∧
      ((engine.context (max engine.lastNow now)).r2 replying).recalculateMac
        keys.responder.integrity = .ok sealed ∧
      sealed.encode = .ok r2 ∧ replying.host = engine.hit ∧ replying.peer = peer ∧
      moved.outgoing = [⟨address, r2⟩] ∧ moved.completions = [] := by
  let ctx := engine.context (max engine.lastNow now)
  have hanswered : ∀ conn : Connection, conn.host = engine.hit → conn.peer = peer →
      conn.outbox = [] →
      conn.AnswersI2 keys → ∃ (turn : Turn) (sealed : Packet) (address : Address) (r2 : List UInt8),
        Turn.receive ⟨conn, engine.rng, []⟩ ctx packet = .ok turn ∧ turn.conn.peer = peer ∧
        turn.conn.Holds keys (max engine.lastNow now + engine.config.r2SentHold) ∧
        (ctx.r2 conn).recalculateMac keys.responder.integrity = .ok sealed ∧
        sealed.encode = .ok r2 ∧ turn.conn.outgoing = [⟨address, r2⟩] ∧
        turn.conn.completions = [] := by
    intro conn hhost hpeer houtbox hanswers
    rw [← hhost, ← hpeer] at hvalid
    obtain ⟨turn, hreceive⟩ :=
      Turn.exists_receive_i2 ⟨conn, engine.rng, []⟩ ctx packet hkind hanswers hvalid hlength
    obtain ⟨sealed, address, r2, hafter⟩ :=
      (Turn.move_of_receive hreceive).answers_i2 houtbox hkind hanswers hvalid
    exact ⟨turn, sealed, address, r2, hreceive, hafter.1.trans hpeer, hafter.2⟩
  rcases hwelcomes with ⟨hnone, hroom⟩ | ⟨conn, hfind, hstate⟩
  · obtain ⟨turn, sealed, address, r2, hreceive, hpeer, hholds, hrest⟩ := hanswered
      (Connection.fresh engine.hit peer source) rfl rfl rfl (.inl rfl)
    subst hsender
    obtain ⟨hresult, hkept, -⟩ := handlePacket_unknown hopen hparse hreceiver source now hnone
      (hunsolicited hnone) hroom hreceive
    have habsorbs := hkept (by simp [hholds.state])
    exact ⟨hresult, _, turn.conn, sealed, address, r2, habsorbs, hpeer, hholds, hrest.1,
      hrest.2.1, rfl, rfl, hrest.2.2⟩
  · obtain ⟨hmem, hknown⟩ := ConnectionTable.find?_eq_some_iff.mp hfind
    have hanswers : conn.AnswersI2 keys := by
      rcases hstate with hlarger | ⟨hr2Sent, hkeyless⟩ | hdone
      · exact .inr (.inl hlarger)
      · exact .inr (.inr (.inl ⟨hr2Sent, by rw [Turn.sameR2?, hkeyless]⟩))
      · exact .inr (.inr (.inr hdone))
    obtain ⟨turn, sealed, address, r2, hreceive, hpeer, hholds, hrest⟩ := hanswered conn
      (hreachable.host_eq hmem) hknown (hreachable.outbox_eq_nil hmem) hanswers
    subst hsender
    obtain ⟨hresult, habsorbs⟩ :=
      handlePacket_known hopen hparse hreceiver source now hfind hreceive
    exact ⟨hresult, conn, turn.conn, sealed, address, r2, habsorbs, hpeer, hholds, hrest.1,
      hrest.2.1, hreachable.host_eq hmem, hknown, hrest.2.2⟩

/-- An I2 of a host that fits and answers a challenge under a secret that is kept is answered with
    an R2. -/
theorem i2_is_answered (hreachable : Reachable engine) (hopen : engine.closed = false)
    {mine : Context} {puzzle : Puzzle} {keys : KeySet} (hfits : mine.party.Fits engine.party)
    (hunsolicited : engine.table.find? mine.identity.hit = none →
      engine.config.acceptUnsolicited = true)
    (hanswer : Connection.IsAnswer mine.party mine.identity.hit engine.hit puzzle keys datagram)
    {secret : Block} (hmem : secret ∈ engine.issuer.window.secrets)
    (hchallenge : challengeFor secret mine.identity.hit engine.hit [] = puzzle.challenge)
    (hcomplexity : puzzle.k = engine.config.puzzleComplexity)
    (hkeys : (engine.context engine.lastNow).sessionKeys mine.identity.publicKey mine.identity.hit
      engine.hit puzzle.challenge false = .ok { keys with isInitiator := false })
    (hlength : Config.IsKeyLength keys.responder.integrity.length)
    (hwelcomes : engine.Welcomes mine.identity.hit) (source : Address) (now : Nat) :
    (engine.handlePacket datagram source now).result = .ok () ∧
      ∃ (moved replying : Connection) (sealed : Packet) (address : Address) (r2 : List UInt8),
      (engine.after (.handlePacket datagram source now)).table.find? mine.identity.hit =
        some moved ∧
        moved.Holds { keys with isInitiator := false }
        (max engine.lastNow now + engine.config.r2SentHold) ∧
      ((engine.context (max engine.lastNow now)).r2 replying).recalculateMac
        keys.responder.integrity = .ok sealed ∧
      sealed.encode = .ok r2 ∧ replying.host = engine.hit ∧ replying.peer = mine.identity.hit ∧
      (engine.after (.handlePacket datagram source now)).closed = false ∧
      engine.queuedBy (.handlePacket datagram source now) = [⟨address, r2⟩] ∧
      engine.toldBy (.handlePacket datagram source now) = [] := by
  obtain ⟨ctx, conn, answer, sealed, hparty, hhost, hpeer, hseal, hencode, hsolves⟩ := hanswer
  have hidentity : ctx.identity = mine.identity := congrArg Party.identity hparty
  rw [← hparty] at hfits
  rw [← hidentity] at hkeys hchallenge hsolves hwelcomes hunsolicited hhost ⊢
  obtain ⟨hkind, hsender, hreceiver⟩ := Context.header_i2 none hseal
  have hparse := Context.parse_i2 none hfits.initiatorKey hseal hencode
  have hconfigured := hreachable.issuer.1
  have hmaximum : engine.issuer.complexity ≤ maxComplexity := by
    rw [hconfigured]
    exact UInt8.le_trans hfits.responderAccepted.complexity hfits.responderAccepted.maximum
  have hcompatible :
      ctx.party.Compatible (engine.context (max engine.lastNow now)).welcoming.party := hfits
  rw [hcomplexity.trans hconfigured.symm] at hsolves
  obtain ⟨cipher, hvalid⟩ := hcompatible.validateI2 none hkeys hseal
    (verify_of_mem hmem hchallenge hmaximum hsolves)
  obtain ⟨hresult, replying, moved, r2Sealed, address, r2, habsorbs, hmoved, hholds, htag,
    hr2, hfrom, hto, hqueued, htold⟩ :=
      i2_is_taken hreachable hopen hparse hkind (hsender.trans hhost)
      (hreceiver.trans hpeer) hunsolicited hwelcomes hvalid hlength source
  exact ⟨hresult, moved.settled, replying, r2Sealed, address, r2, habsorbs.find_moved hmoved,
    ⟨hholds.state, hholds.keys, hholds.holdUntil⟩, htag, hr2, hfrom, hto,
    habsorbs.closed.trans hopen, habsorbs.queued.trans hqueued, habsorbs.told.trans htold⟩

/-- The R2 of a host that fits completes the handshake where one is waited for under the same
    keys. -/
theorem r2_completes (hreachable : Reachable engine) (hopen : engine.closed = false)
    {theirs : Context} {replying conn : Connection} {sealed : Packet} {keys : KeySet}
    {i2 : List UInt8} (hfits : engine.party.Fits theirs.party)
    (hseal : (theirs.r2 replying).recalculateMac keys.responder.integrity = .ok sealed)
    (hencode : sealed.encode = .ok datagram)
    (hsender : replying.host = theirs.identity.hit) (hreceiver : replying.peer = engine.hit)
    (hfind : engine.table.find? theirs.identity.hit = some conn) (hawaits : conn.AwaitsR2 keys i2)
    (source : Address) (now : Nat) :
    (engine.handlePacket datagram source now).result = .ok () ∧ ∃ moved,
      (engine.after (.handlePacket datagram source now)).table.find? theirs.identity.hit =
        some moved ∧ moved.IsDone keys ∧
      (engine.after (.handlePacket datagram source now)).closed = false ∧
      engine.toldBy (.handlePacket datagram source now) = [theirs.identity.hit] := by
  obtain ⟨hmem, hpeer⟩ := ConnectionTable.find?_eq_some_iff.mp hfind
  have houtbox := hreachable.outbox_eq_nil hmem
  obtain ⟨hkind, hfrom, hto⟩ := Context.header_r2 hseal
  have hparse := Context.parse_r2 hseal hencode
  have hvalid : (engine.context (max engine.lastNow now)).validateR2 conn.keys sealed.canonical =
      .ok () := by
    rw [hawaits.keys]
    have hcompatible : (engine.context (max engine.lastNow now)).party.Compatible
        theirs.welcoming.party :=
      hfits
    exact hcompatible.validateR2 hseal
  obtain ⟨turn, hreceive⟩ := Turn.exists_receive_r2 ⟨conn, engine.rng, []⟩
    (engine.context (max engine.lastNow now)) sealed.canonical hawaits.state hkind hvalid
  have hknown : engine.table.find? sealed.canonical.sender = some conn :=
    (congrArg engine.table.find? (hfrom.trans hsender)).trans hfind
  obtain ⟨hresult, habsorbs⟩ := handlePacket_known hopen hparse (hto.trans hreceiver)
    source now hknown hreceive
  have hmove := Turn.move_of_receive hreceive
  obtain ⟨hdone, hcompletions⟩ := hmove.accepts_r2 houtbox hawaits hkind
  have hafter := habsorbs.find_moved (hmove.peer_eq.trans hpeer)
  refine ⟨hresult, _, hafter, ⟨hdone.state, hdone.keys⟩, habsorbs.closed.trans hopen, ?_⟩
  rw [habsorbs.told, hcompletions, ← hpeer]

end Engine

end DietExchange
