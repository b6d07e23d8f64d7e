import DietExchange.Proofs.Engine.Bystander

namespace DietExchange

namespace Turn

variable (turn : Turn) (ctx : Context) (packet : Packet)

theorem exists_initiate (hstate : turn.conn.state = .unassociated) :
    ∃ after, turn.initiate ctx = .ok after := by
  obtain ⟨datagram, hencode⟩ := ctx.exists_encode_i1 turn.conn
  obtain ⟨sent, hsend⟩ := exists_send_eq_ok turn hencode
  unfold initiate
  rw [if_neg (not_not_intro hstate)]
  exact ⟨_, bind_eq_ok_iff.mpr ⟨sent, hsend, rfl⟩⟩

theorem exists_answerI1 (hmandatory : packet.checkMandatory = .ok ())
    (hoffer : ctx.checkOffer packet.dhGroupList? = .ok ()) {challenge : Block}
    (hissue : ctx.issuer.issue turn.conn.peer turn.conn.host [] = .ok challenge)
    (hkey : ctx.identity.HasCurveKey) : ∃ after, turn.answerI1 ctx packet = .ok after := by
  obtain ⟨datagram, hencode⟩ :=
    Context.exists_encode_r1 hkey turn.conn challenge turn.rng.word16.1
  obtain ⟨after, hsend⟩ := exists_send_eq_ok { turn with rng := turn.rng.word16.2 } hencode
  refine ⟨after, bind_eq_ok_iff.mpr ⟨(), hmandatory, bind_eq_ok_iff.mpr ⟨(), hoffer, ?_⟩⟩⟩
  exact bind_eq_ok_iff.mpr ⟨challenge, hissue, hsend⟩

/-- An I1 that finds nothing is answered if its groups include ours. -/
theorem exists_receive_i1 (hstate : turn.conn.state = .unassociated) (hkind : packet.kind = .i1)
    (hmandatory : packet.checkMandatory = .ok ())
    (hoffer : ctx.checkOffer packet.dhGroupList? = .ok ()) {challenge : Block}
    (hissue : ctx.issuer.issue turn.conn.peer turn.conn.host [] = .ok challenge)
    (hkey : ctx.identity.HasCurveKey) : ∃ after, turn.receive ctx packet = .ok after := by
  unfold receive
  rw [hstate, hkind]
  exact exists_answerI1 _ _ _ hmandatory hoffer hissue hkey

/-- An I2 that finds an I1 sent is answered if its groups, if there are any, include ours. -/
theorem exists_receive_i2AsI1 (hstate : turn.conn.state = .i1Sent) (hkind : packet.kind = .i2)
    (hmandatory : packet.checkMandatory = .ok ())
    (hoffer : ctx.checkOffer packet.dhGroupList? = .ok ()) {challenge : Block}
    (hissue : ctx.issuer.issue turn.conn.peer turn.conn.host [] = .ok challenge)
    (hkey : ctx.identity.HasCurveKey) : ∃ after, turn.receive ctx packet = .ok after := by
  unfold receive
  rw [hstate, hkind]
  obtain ⟨answered, hanswer⟩ := exists_answerI1 turn ctx packet hmandatory hoffer hissue hkey
  exact ⟨_, bind_eq_ok_iff.mpr ⟨answered, hanswer, rfl⟩⟩

/-- An R1 is taken up if it is valid and we wait for one. -/
theorem exists_receive_r1 (hstate : turn.conn.state = .i1Sent) (hkind : packet.kind = .r1)
    (hidle : turn.conn.pending = none) {puzzle : Puzzle} {keys : KeySet}
    (hvalid : ctx.validateR1 turn.conn.host turn.conn.peer packet = .ok (puzzle, keys))
    (hcomplexity : puzzle.k ≤ maxComplexity) : ∃ after, turn.receive ctx packet = .ok after := by
  unfold receive
  rw [hstate, hkind]
  have hsolving : ¬turn.conn.isSolving = true := by simp [Connection.isSolving, hidle]
  dsimp only
  rw [acceptR1, if_neg hsolving]
  have hstart : PuzzleSearch.start puzzle.challenge turn.conn.host turn.conn.peer puzzle.k =
      .ok ⟨puzzle.challenge, turn.conn.host, turn.conn.peer, puzzle.k, 0⟩ :=
    if_neg (UInt8.not_lt.mpr hcomplexity)
  exact ⟨_, bind_eq_ok_iff.mpr ⟨(puzzle, keys), hvalid, bind_eq_ok_iff.mpr ⟨_, hstart, rfl⟩⟩⟩

theorem exists_sendR2 {keys : KeySet} (cipher : CipherSuite)
    (hkey : Config.IsKeyLength keys.responder.integrity.length) :
    ∃ after, turn.sendR2 ctx keys cipher = .ok after := by
  obtain ⟨sealed, datagram, hseal, hencode⟩ := ctx.exists_seal_r2 turn.conn hkey
  obtain ⟨sent, hsend⟩ := turn.exists_send_eq_ok hencode
  exact ⟨_, bind_eq_ok_iff.mpr ⟨sealed, hseal, bind_eq_ok_iff.mpr ⟨sent, hsend, rfl⟩⟩⟩

/-- An I2 that is valid is answered wherever it is not one of old. -/
theorem exists_receive_i2 (hkind : packet.kind = .i2) {keys : KeySet} {cipher : CipherSuite}
    (hanswers : turn.conn.AnswersI2 keys)
    (hvalid : ctx.validateI2 turn.conn.host turn.conn.peer packet = .ok (keys, cipher))
    (hkey : Config.IsKeyLength keys.responder.integrity.length) :
    ∃ after, turn.receive ctx packet = .ok after := by
  obtain ⟨after, hsend⟩ := turn.exists_sendR2 ctx cipher hkey
  have hanswer : turn.answerI2 ctx packet = .ok after :=
    bind_eq_ok_iff.mpr ⟨(keys, cipher), hvalid, hsend⟩
  unfold receive
  rcases hanswers with hstate | ⟨hstate, hlarger⟩ | ⟨hstate, hnone⟩ | hstate
  · rw [hstate, hkind]
    exact ⟨after, hanswer⟩
  · rw [hstate, hkind]
    dsimp only
    rw [if_neg hlarger]
    exact ⟨after, hanswer⟩
  · rw [hstate, hkind]
    refine ⟨after, bind_eq_ok_iff.mpr ⟨(keys, cipher), hvalid, ?_⟩⟩
    dsimp only
    rw [hnone]
    exact hsend
  · rw [hstate, hkind]
    exact ⟨after, hanswer⟩

/-- An R2 completes the handshake if it is valid and we wait for one. -/
theorem exists_receive_r2 (hstate : turn.conn.state = .i2Sent) (hkind : packet.kind = .r2)
    (hvalid : ctx.validateR2 turn.conn.keys packet = .ok ()) :
    ∃ after, turn.receive ctx packet = .ok after := by
  unfold receive
  rw [hstate, hkind]
  exact ⟨_, bind_eq_ok_iff.mpr ⟨(), hvalid, rfl⟩⟩

end Turn

namespace Engine

/-- What a call that is taken makes of an engine, given the connection that it moved. -/
structure Absorbs (engine : Engine) (call : Call) (moved : Connection) : Prop where
  find : ∀ peer, (engine.after call).table.find? peer =
    if moved.peer = peer then some moved.settled else engine.table.find? peer
  queued : engine.queuedBy call = moved.outgoing
  told : engine.toldBy call = moved.completions
  closed : (engine.after call).closed = engine.closed
  issuer : (engine.after call).issuer = engine.issuer

theorem Absorbs.find_moved {engine : Engine} {call : Call} {moved : Connection} {peer : Hit}
    (habsorbs : engine.Absorbs call moved) (hpeer : moved.peer = peer) :
    (engine.after call).table.find? peer = some moved.settled := by
  rw [habsorbs.find, if_pos hpeer]

theorem absorbs_of_settle {engine : Engine} {call : Call} (rng : RandomStream) (now : Nat)
    {moved : Connection}
    (hafter : engine.after call = ({ engine.advance now with rng := rng }.settle moved).1) :
    engine.Absorbs call moved := by
  obtain ⟨count, timer, hsettle⟩ := settle_eq { engine.advance now with rng := rng } moved
  rw [hsettle] at hafter
  refine ⟨fun peer => ?_, queuedBy_of_append (by rw [hafter]; rfl),
    toldBy_of_append (by rw [hafter]; rfl), by rw [hafter]; rfl, by rw [hafter]; rfl⟩
  rw [hafter]
  exact ConnectionTable.find?_put _ _ _

/-- A connect is taken if nothing was begun with the peer and there is room for it. -/
theorem connect_offered {engine : Engine} (hopen : engine.closed = false) {peer : Hit}
    (hpeer : peer ≠ engine.hit) {address : Address} {conn : Connection}
    (hoffers : engine.Offers peer address conn) (hstate : conn.state = .unassociated) (now : Nat) :
    (engine.connect peer address now).result = .ok () ∧ ∃ moved,
      conn.Move (engine.context (max engine.lastNow now)) .initiate moved ∧
      engine.Absorbs (.connect peer address now) moved := by
  have hown : peer ≠ (engine.advance now).hit := hpeer
  obtain ⟨turn, hturn⟩ := Turn.exists_initiate ⟨conn, engine.rng, []⟩
    (engine.context (max engine.lastNow now)) hstate
  have hconnect : engine.connect peer address now = (engine.advance now).initiate conn := by
    unfold connect
    rw [hopen, if_neg Bool.false_ne_true]
    dsimp only
    rw [if_neg hown]
    rcases hoffers with hfind | ⟨hnone, hroom, rfl⟩
    · rw [show (engine.advance now).table.find? peer = some conn from hfind]
    · rw [show (engine.advance now).table.find? peer = none from hnone]
      exact if_neg (Nat.not_le.mpr hroom)
  have hinitiate : (engine.advance now).initiate conn =
      ⟨.ok (), ({ engine.advance now with rng := turn.rng }.settle turn.conn).1,
        turn.log ++ ({ engine.advance now with rng := turn.rng }.settle turn.conn).2⟩ := by
    unfold initiate
    rw [show Turn.initiate ⟨conn, (engine.advance now).rng, []⟩
      ((engine.advance now).context (engine.advance now).lastNow) = .ok turn from hturn]
  refine ⟨by rw [hconnect, hinitiate], turn.conn, Turn.move_of_initiate hturn, ?_⟩
  refine absorbs_of_settle turn.rng now ?_
  change (engine.connect peer address now).engine = _
  rw [hconnect, hinitiate]

/-- A packet that its connection does not refuse: a new connection that nothing was made of is not
    kept. -/
theorem deliver_of_ok (engine : Engine) (isNew : Bool) {conn : Connection} {packet : Packet}
    {turn : Turn}
    (hreceive : Turn.receive ⟨conn, engine.rng, []⟩ (engine.context engine.lastNow) packet =
      .ok turn) :
    (engine.deliver conn isNew packet).result = .ok () ∧
      (engine.deliver conn isNew packet).engine =
        if isNew = true ∧ turn.conn.state = .unassociated then
          ({ engine with rng := turn.rng }.forget turn.conn).1
        else ({ engine with rng := turn.rng }.settle turn.conn).1 := by
  unfold deliver
  rw [hreceive]
  refine ⟨rfl, ?_⟩
  by_cases hforget : isNew = true ∧ turn.conn.state = .unassociated
  · simp [hforget]
  · rw [if_neg hforget]
    simp only [Bool.and_eq_true, beq_iff_eq, if_neg hforget]

section Packet

variable {engine : Engine} (hopen : engine.closed = false) {datagram : List UInt8} {packet : Packet}
  (hparse : Packet.parse datagram = .ok packet) (hreceiver : packet.receiver = engine.hit)
  (source : Address) (now : Nat) {turn : Turn}
include hopen hparse hreceiver

theorem handlePacket_eq_accept : engine.handlePacket datagram source now =
    (engine.advance now).accept packet source := by
  have hours : ¬packet.receiver ≠ (engine.advance now).hit := not_not_intro hreceiver
  unfold handlePacket
  rw [hopen, if_neg Bool.false_ne_true, hparse]
  exact if_neg hours

theorem handlePacket_eq_deliver {conn : Connection}
    (hfind : engine.table.find? packet.sender = some conn) :
    engine.handlePacket datagram source now = (engine.advance now).deliver conn false packet := by
  rw [handlePacket_eq_accept hopen hparse hreceiver, accept,
    show (engine.advance now).table.find? packet.sender = some conn from hfind]

/-- A packet that its connection does not refuse is taken. -/
theorem handlePacket_known {conn : Connection} (hfind : engine.table.find? packet.sender =
    some conn)
    (hreceive : Turn.receive ⟨conn, engine.rng,
      []⟩ (engine.context (max engine.lastNow now)) packet = .ok turn) :
    (engine.handlePacket datagram source now).result = .ok () ∧
      engine.Absorbs (.handlePacket datagram source now) turn.conn := by
  have hhandle := handlePacket_eq_deliver hopen hparse hreceiver source now hfind
  obtain ⟨hresult, hengine⟩ := (engine.advance now).deliver_of_ok false hreceive
  rw [if_neg (by simp)] at hengine
  refine ⟨by rw [hhandle, hresult], absorbs_of_settle turn.rng now ?_⟩
  change (engine.handlePacket datagram source now).engine = _
  rw [hhandle, hengine]

/-- A packet of an unknown peer that a new connection does not refuse is taken if there is room in
    the table, and the connection is kept if something was made of it. -/
theorem handlePacket_unknown (hnone : engine.table.find? packet.sender = none)
    (hunsolicited : engine.config.acceptUnsolicited = true)
    (hroom : engine.connectionCount < engine.config.maxConnections)
    (hreceive : Turn.receive ⟨Connection.fresh engine.hit packet.sender source, engine.rng, []⟩
      (engine.context (max engine.lastNow now)) packet = .ok turn) :
    (engine.handlePacket datagram source now).result = .ok () ∧
      (turn.conn.state ≠ .unassociated →
        engine.Absorbs (.handlePacket datagram source now) turn.conn) ∧
      (turn.conn.state = .unassociated →
        (engine.after (.handlePacket datagram source now)).table = engine.table ∧
        engine.queuedBy (.handlePacket datagram source now) = turn.conn.outgoing ∧
        engine.toldBy (.handlePacket datagram source now) = turn.conn.completions ∧
        (engine.after (.handlePacket datagram source now)).closed = engine.closed ∧
        (engine.after (.handlePacket datagram source now)).issuer = engine.issuer) := by
  have hspace : ¬(engine.advance now).config.maxConnections ≤
      (engine.advance now).connectionCount :=
    Nat.not_le.mpr hroom
  have hwelcome : ¬(!(engine.advance now).config.acceptUnsolicited) = true := by
    simp [advance, hunsolicited]
  have haccept : (engine.advance now).accept packet source =
      (engine.advance now).deliver (Connection.fresh engine.hit packet.sender source) true
        packet := by
    unfold accept
    rw [show (engine.advance now).table.find? packet.sender = none from hnone]
    dsimp only
    rw [if_neg hwelcome]
    exact if_neg hspace
  have hhandle := handlePacket_eq_accept hopen hparse hreceiver source now
  obtain ⟨hresult, hengine⟩ := (engine.advance now).deliver_of_ok true hreceive
  have hafter : engine.after (.handlePacket datagram source now) =
      (engine.handlePacket datagram source now).engine := rfl
  rw [hhandle, haccept, hengine] at hafter
  refine ⟨by rw [hhandle, haccept, hresult], fun hkeep => ?_, fun hforget => ?_⟩
  · rw [if_neg fun hnew => hkeep hnew.2] at hafter
    exact absorbs_of_settle turn.rng now hafter
  · rw [if_pos ⟨rfl, hforget⟩] at hafter
    obtain ⟨count, timer, heq⟩ := forget_eq { engine.advance now with rng := turn.rng } turn.conn
    rw [heq] at hafter
    exact ⟨by rw [hafter]; rfl, queuedBy_of_append (by rw [hafter]; rfl),
      toldBy_of_append (by rw [hafter]; rfl), by rw [hafter]; rfl, by rw [hafter]; rfl⟩

end Packet

end Engine

end DietExchange
