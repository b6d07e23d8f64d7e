import DietExchange.Proofs.Engine.Completion

namespace DietExchange

/-- The keys of the sender of a packet of this kind. -/
def KeySet.ofSender (keys : KeySet) : PacketKind → HostKeys
  | .i1 | .i2 => keys.initiator
  | .r1 | .r2 => keys.responder

/-- Whether an I2 or an R2 proves what it has to: an I2 that its puzzle is solved and that the
    sender has the keys that the I2 leads to, an R2 that the sender has the keys held. -/
def Context.Verifies (ctx : Context) (host peer : Hit) (held : Option KeySet)
    (packet : Packet) : Prop :=
  match packet.kind with
  | .i2 => ∃ solution id keys, packet.solution? = some solution ∧
      ctx.issuer.verify solution.challenge solution.answer peer host ctx.issuer.complexity
        [] = true ∧ packet.hostId? = some id ∧
      ctx.sessionKeys id.publicKey peer host solution.challenge false = .ok keys ∧
      packet.verifyMac keys.initiator.integrity = .ok ()
  | .r2 => ∃ keys, held = some keys ∧ packet.verifyMac keys.responder.integrity = .ok ()
  | _ => False

theorem Context.AcceptsI2.verifies {ctx : Context} {host peer : Hit} {packet : Packet}
    {solution : Solution} {id : HostId} {keys : KeySet} {cipher : CipherSuite}
    (haccepts : ctx.AcceptsI2 host peer packet solution id keys cipher) (hkind : packet.kind = .i2)
    (held : Option KeySet) : ctx.Verifies host peer held packet := by
  unfold Context.Verifies
  rw [hkind]
  exact ⟨solution, id, keys, haccepts.hasSolution, haccepts.solved, haccepts.hasHostId,
    haccepts.derived, haccepts.tag⟩

namespace Connection

theorem sameKeys_of_sameR2? {conn : Connection} {keys : KeySet} {datagram : List UInt8}
    (hsame : Turn.sameR2? conn keys = some datagram) :
    ∃ held, conn.keys = some held ∧ held.SameKeys keys := by
  unfold Turn.sameR2? at hsame
  split at hsame
  · rename_i held _ hkeys _
    split at hsame
    · rename_i hheld
      exact ⟨held, hkeys, hheld⟩
    · cases hsame
  · cases hsame

/-- What an I2 or an R2 makes of a connection: nothing, or what an I1 would, or it verifies. -/
theorem Move.gate {ctx : Context} {packet : Packet} {conn after : Connection}
    (hform : conn.WellFormed) (hkind : packet.kind = .i2 ∨ packet.kind = .r2)
    (hmove : conn.Move ctx (.packet packet) after) :
    (conn.heeds packet.kind = false ∧ after = conn) ∨
    (packet.kind = .i2 ∧ conn.state = .i1Sent ∧ after.state = .r2Sent ∧ after.keys = none) ∨
    (ctx.Verifies conn.host conn.peer conn.keys packet ∧ ∃ keys, after.keys = some keys ∧
      packet.verifyMac (keys.ofSender packet.kind).integrity = .ok ()) := by
  cases hmove with
  | ignore hdeaf => exact .inl ⟨hdeaf, rfl⟩
  | answerI1 hstate hi1 => simp [hi1] at hkind
  | takeUpR1 hstate hr1 => simp [hr1] at hkind
  | answerI2AsI1 hstate hi2 =>
    have hkeys := hform.keyless (.inr hstate)
    exact .inr (.inl ⟨hi2, hstate, by simp [holdTo], by simpa [holdTo, transmit] using hkeys⟩)
  | @answerI2 _ _ _ keys cipher _ hanswers hi2 hvalid =>
    obtain ⟨solution, id, haccepts⟩ := Context.validateI2_eq_ok_iff.mp hvalid
    refine .inr (.inr ⟨haccepts.verifies hi2 _, keys, by simp [respond, holdTo], ?_⟩)
    rw [hi2]
    exact haccepts.tag
  | resendR2 hstate hi2 hvalid hsame =>
    obtain ⟨solution, id, haccepts⟩ := Context.validateI2_eq_ok_iff.mp hvalid
    obtain ⟨held, hheld, hinitiator, -⟩ := sameKeys_of_sameR2? hsame
    refine .inr (.inr ⟨haccepts.verifies hi2 _, held, hheld, ?_⟩)
    rw [hi2, KeySet.ofSender, hinitiator]
    exact haccepts.tag
  | acceptR2 hstate hr2 hvalid =>
    obtain ⟨-, -, keys, hkeys, htag⟩ := Context.validateR2_eq_ok_iff.mp hvalid
    refine .inr (.inr ⟨?_, keys, by simpa [emit] using hkeys, by rw [hr2]; exact htag⟩)
    unfold Context.Verifies
    rw [hr2]
    exact ⟨keys, hkeys, htag⟩

end Connection

/-- A packet that is ignored changes nothing but the log. -/
theorem Turn.receive_of_deaf (turn : Turn) (ctx : Context) {packet : Packet}
    (hdeaf : turn.conn.heeds packet.kind = false) :
    ∃ event, turn.receive ctx packet = .ok (turn.note event) := by
  unfold Connection.heeds at hdeaf
  unfold receive
  split at hdeaf
  all_goals simp_all [acceptR1]

namespace Engine

/-- Whether an I2 or an R2 proves what it has to prove to this engine. -/
def Verifies (engine : Engine) (packet : Packet) : Prop :=
  (engine.context engine.lastNow).Verifies engine.hit packet.sender
    (engine.keys? packet.sender) packet

theorem keys?_of_offers {engine : Engine} {peer : Hit} {conn : Connection} (address : Address)
    (hoffers : engine.Offers peer address conn) : engine.keys? peer = conn.keys := by
  rcases hoffers with hfind | ⟨hnone, -, rfl⟩
  · exact keys?_of_find? hfind rfl
  · rw [keys?, hnone]
    rfl

/-- A packet that its connection ignores changes nothing. -/
theorem deliver_of_deaf {engine : Engine} {packet : Packet} {conn : Connection} {isNew : Bool}
    (houtbox : conn.outbox = []) (hdeaf : conn.heeds packet.kind = false)
    (hconn : engine.table.find? packet.sender = some conn ∨
      (isNew = true ∧ conn.state = .unassociated)) :
    (engine.deliver conn isNew packet).engine = engine := by
  obtain ⟨event, hreceive⟩ := Turn.receive_of_deaf ⟨conn, engine.rng, []⟩
    (engine.context engine.lastNow) hdeaf
  unfold deliver
  rw [hreceive]
  dsimp only [Turn.note]
  split
  · rw [forget, houtbox]
    rfl
  · rename_i hkept
    rcases hconn with hfind | ⟨rfl, hstate⟩
    · have hpeer : conn.peer = packet.sender := ConnectionTable.peer_of_find? hfind
      have hsettled : { conn with outbox := [] } = conn := by rw [← houtbox]
      rw [settle, houtbox]
      simp only [obeyAll, hsettled]
      rw [ConnectionTable.put_of_find? (hpeer ▸ hfind)]
    · simp [hstate] at hkept

/-- So an engine that takes it has only seen the time. -/
theorem handlePacket_of_deaf {engine : Engine} (hopen : engine.closed = false)
    {datagram : List UInt8} {packet : Packet} (hparse : Packet.parse datagram = .ok packet)
    (hreceiver : packet.receiver = engine.hit) {conn : Connection}
    (hfind : engine.table.find? packet.sender = some conn) (houtbox : conn.outbox = [])
    (hdeaf : conn.heeds packet.kind = false) (source : Address) (now : Nat) :
    (engine.handlePacket datagram source now).result = .ok () ∧
      (engine.handlePacket datagram source now).engine = engine.advance now := by
  obtain ⟨event, hreceive⟩ := Turn.receive_of_deaf ⟨conn, (engine.advance now).rng, []⟩
    ((engine.advance now).context (engine.advance now).lastNow) hdeaf
  rw [handlePacket_eq_deliver hopen hparse hreceiver source now hfind]
  exact ⟨((engine.advance now).deliver_of_ok false hreceive).1,
    deliver_of_deaf houtbox hdeaf (.inl hfind)⟩

/-- An I2 or an R2 that does not verify has no effect, unless its connection is in I1_SENT. -/
theorem deliver_of_not_verifies {engine : Engine} {packet : Packet} {conn : Connection}
    {isNew : Bool} (hform : conn.WellFormed) (houtbox : conn.outbox = [])
    (hhost : conn.host = engine.hit) (hpeer : conn.peer = packet.sender)
    (hconn : engine.table.find? packet.sender = some conn ∨
      (isNew = true ∧ conn.state = .unassociated))
    (hkind : packet.kind = .i2 ∨ packet.kind = .r2)
    (hforged : ¬(engine.context engine.lastNow).Verifies engine.hit packet.sender conn.keys packet)
    (hstate : packet.kind = .i2 → conn.state ≠ .i1Sent) :
    (engine.deliver conn isNew packet).engine = engine := by
  cases hdeaf : conn.heeds packet.kind with
  | false => exact deliver_of_deaf houtbox hdeaf hconn
  | true =>
    unfold deliver
    split
    · rfl
    · rename_i turn hreceive
      exfalso
      rcases (Turn.move_of_receive hreceive).gate hform hkind with
        ⟨hignored, -⟩ | ⟨hi2, hi1Sent, -⟩ | ⟨hverifies, -⟩
      · rw [hdeaf] at hignored
        cases hignored
      · exact hstate hi2 hi1Sent
      · rw [hhost, hpeer] at hverifies
        exact hforged hverifies

theorem handlePacket_of_not_verifies {engine : Engine} (hreachable : Reachable engine)
    {datagram : List UInt8} {packet : Packet} (hparse : Packet.parse datagram = .ok packet)
    (hkind : packet.kind = .i2 ∨ packet.kind = .r2) (source : Address) (now : Nat)
    (hforged : ¬engine.Verifies packet)
    (hstate : packet.kind = .i2 → engine.state? packet.sender ≠ some .i1Sent) :
    (engine.handlePacket datagram source now).engine = engine ∨
      (engine.handlePacket datagram source now).engine = engine.advance now := by
  unfold handlePacket
  split
  · exact .inl rfl
  · right
    rw [hparse]
    dsimp only
    split
    · rfl
    · unfold accept
      split
      · rename_i conn hfind
        have hmem := (ConnectionTable.find?_eq_some_iff.mp hfind).1
        have hkeys : engine.keys? packet.sender = conn.keys :=
          keys?_of_offers (.ofHost 2) (.inl hfind)
        have hconnState : engine.state? packet.sender = some conn.state := state?_of_find? hfind rfl
        refine deliver_of_not_verifies (hreachable.wellFormed hmem) (hreachable.outbox_eq_nil hmem)
          (hreachable.host_eq hmem) (ConnectionTable.peer_of_find? hfind) (.inl hfind) hkind ?_ ?_
        · rw [← hkeys]
          exact hforged
        · intro hi2 hi1Sent
          exact hstate hi2 (hconnState.trans (congrArg some hi1Sent))
      · rename_i hnone
        split
        · rfl
        · split
          · rfl
          · have hkeys : engine.keys? packet.sender = none := by
              rw [keys?, show engine.table.find? packet.sender = none from hnone]
              rfl
            refine deliver_of_not_verifies (Connection.wellFormed_fresh _ _ _) rfl rfl rfl
              (.inr ⟨rfl, rfl⟩) hkind ?_ (fun _ hi1Sent => by cases hi1Sent)
            rw [Verifies, hkeys] at hforged
            exact hforged

/-- A packet that changes the state of a connection moves the one with its sender. -/
theorem moved_of_state?_ne {engine : Engine} {datagram : List UInt8} {packet : Packet}
    (hparse : Packet.parse datagram = .ok packet) {source : Address} {now : Nat} {peer : Hit}
    (hchange : (engine.handlePacket datagram source now).engine.state? peer ≠ engine.state? peer) :
    ∃ conn moved, engine.Offers packet.sender source conn ∧
      conn.Move (engine.context (max engine.lastNow now)) (.packet packet) moved ∧
      (engine.handlePacket datagram source now).engine.table = engine.table.put moved.settled ∧
      (engine.table.find? packet.sender = none → moved.state ≠ .unassociated) := by
  cases hclosed : engine.closed with
  | true =>
    refine absurd ?_ hchange
    simp [handlePacket, hclosed]
  | false =>
    rcases handlePacket_cases hclosed datagram source now with
      hadvance | ⟨found, hfound, -, hturned⟩
    · refine absurd ?_ hchange
      rw [hadvance]
      rfl
    · obtain rfl := Except.ok.inj (hfound.symm.trans hparse)
      obtain ⟨-, ⟨htable, -⟩ | ⟨conn, moved, hoffers, hmove, -, -, hkept | ⟨htable, -⟩⟩⟩ :=
        hturned.effect
      · refine absurd ?_ hchange
        rw [state?, state?, htable]
        rfl
      · exact ⟨conn, moved, hoffers, hmove, hkept⟩
      · refine absurd ?_ hchange
        rw [state?, state?, htable]
        rfl

/-- Where an I2 or an R2 moves a connection, it was checked against the keys that the connection
    holds afterwards, and an I2 against the puzzle secrets too. It is not when the I2 finds its
    connection in I1_SENT and is answered like an I1. One that does not verify has no effect on
    anything else. -/
theorem verification_gates {engine : Engine} (hreachable : Reachable engine) {datagram : List UInt8}
    {packet : Packet} (hparse : Packet.parse datagram = .ok packet)
    (hkind : packet.kind = .i2 ∨ packet.kind = .r2) (source : Address) (now : Nat) :
    (∀ peer, (engine.handlePacket datagram source now).engine.state? peer ≠ engine.state? peer →
      peer = packet.sender ∧
      ((packet.kind = .i2 ∧ engine.state? peer = some .i1Sent ∧
        (engine.handlePacket datagram source now).engine.state? peer = some .r2Sent ∧
        (engine.handlePacket datagram source now).engine.keys? peer = none) ∨
      (engine.Verifies packet ∧
        ∃ keys, (engine.handlePacket datagram source now).engine.keys? peer = some keys ∧
          packet.verifyMac (keys.ofSender packet.kind).integrity = .ok ()))) ∧
    (¬engine.Verifies packet → (packet.kind = .i2 → engine.state? packet.sender ≠ some .i1Sent) →
      (engine.handlePacket datagram source now).engine = { engine with
        lastNow := (engine.handlePacket datagram source now).engine.lastNow }) := by
  refine ⟨fun peer hchange => ?_, fun hforged hstate => ?_⟩
  · obtain ⟨conn, moved, hoffers, hmove, htable, hnew⟩ := moved_of_state?_ne hparse hchange
    have hfind := ConnectionTable.find?_put engine.table moved.settled peer
    rw [← htable] at hfind
    have hpeer : moved.settled.peer = peer := by
      by_contra hne
      rw [if_neg hne] at hfind
      exact hchange (by rw [state?, state?, hfind])
    rw [if_pos hpeer] at hfind
    have hform : conn.WellFormed := hoffers.preserves (fun _ => hreachable.wellFormed)
      (fun _ _ => Connection.wellFormed_fresh _ _ _)
    have hhost : conn.host = engine.hit :=
      hoffers.preserves (fun _ => hreachable.host_eq) (fun _ _ => rfl)
    have hsender : peer = packet.sender :=
      hpeer.symm.trans (hmove.peer_eq.trans hoffers.peer_eq)
    subst hsender
    refine ⟨rfl, ?_⟩
    have hkeys : (engine.handlePacket datagram source now).engine.keys? packet.sender =
        moved.keys :=
      keys?_of_find? hfind rfl
    have hstate : (engine.handlePacket datagram source now).engine.state? packet.sender =
        some moved.state := state?_of_find? hfind rfl
    rcases hmove.gate hform hkind with ⟨-, rfl⟩ | ⟨hi2, hi1Sent, hr2Sent, hnone⟩ | ⟨hverifies, htag⟩
    · rcases hoffers with hfound | ⟨hnone, -, rfl⟩
      · exact absurd (hstate.trans (state?_of_find? hfound rfl).symm) hchange
      · exact absurd rfl (hnew hnone)
    · rcases hoffers with hfound | ⟨-, -, rfl⟩
      · exact .inl ⟨hi2, state?_of_find? hfound hi1Sent, hstate.trans (congrArg some hr2Sent),
          hkeys.trans hnone⟩
      · cases hi1Sent
    · rw [hkeys]
      refine .inr ⟨?_, htag⟩
      rw [hhost, hoffers.peer_eq, ← keys?_of_offers _ hoffers] at hverifies
      exact hverifies
  · rcases handlePacket_of_not_verifies hreachable hparse hkind source now hforged hstate with
      hsame | hadvance
    · rw [hsame]
    · rw [hadvance]
      rfl

/-- The initiator of a handshake waits for the R2. The one of the responder verifies and completes
    the handshake; one with another tag leaves no trace. -/
theorem exists_gated :
    ∃ (engine : Engine) (genuine forged : List UInt8) (accepted refused : Packet),
    Reachable engine ∧ Packet.parse genuine = .ok accepted ∧ Packet.parse forged = .ok refused ∧
    accepted.kind = .r2 ∧ refused.kind = .r2 ∧ refused.sender = accepted.sender ∧
    engine.state? accepted.sender = some .i2Sent ∧
    (engine.handlePacket genuine (.ofHost 2) 0).engine.state? accepted.sender = some .established ∧
    engine.Verifies accepted ∧ ¬engine.Verifies refused ∧
    (engine.handlePacket forged (.ofHost 2) 0).engine = { engine with
      lastNow := (engine.handlePacket forged (.ofHost 2) 0).engine.lastNow } := by
  obtain ⟨initiator, hinitiator⟩ := SampleHost.exists_isNew 1
  obtain ⟨responder, hresponder⟩ := SampleHost.exists_isNew 2
  let handshake := Handshake.prompt initiator responder 0
  have hconforms : handshake.Conforms := Handshake.conforms_sample hinitiator hresponder
  obtain ⟨puzzle, keys, hunderway⟩ := hconforms.underway
  obtain ⟨conn, hfind, hawaits⟩ := hunderway.awaits
  obtain ⟨-, -, ⟨concluded, hconcluded, hdone⟩, -⟩ := hconforms.concludes hunderway
  obtain ⟨-, ⟨theirs, replying, sealed, -, hseal, hencode, hhost, -⟩, -⟩ :=
    hconforms.responds hunderway
  have hgenuine := Context.parse_r2 hseal hencode
  obtain ⟨hkind, hsender, -⟩ := Context.header_r2 hseal
  have hfrom : sealed.canonical.sender = responder.hit := hsender.trans hhost
  obtain ⟨tag, forged, hforged, hwrong⟩ :=
    theirs.exists_forged_r2 replying hunderway.responderLength
  have hwaiting : handshake.beforeR2.state? sealed.canonical.sender = some .i2Sent :=
    hfrom ▸ state?_of_find? hfind hawaits.state
  have hestablished :
      (handshake.beforeR2.handlePacket handshake.r2Bytes (.ofHost 2) 0).engine.state?
        sealed.canonical.sender = some .established :=
    hfrom ▸ state?_of_find? hconcluded hdone.state
  have hverifies : handshake.beforeR2.Verifies sealed.canonical := by
    obtain ⟨hmoved, -⟩ :=
      verification_gates hconforms.reachable_beforeR2 hgenuine (.inr hkind) (.ofHost 2) 0
    have hchange : (handshake.beforeR2.handlePacket handshake.r2Bytes (.ofHost 2) 0).engine.state?
        sealed.canonical.sender ≠ handshake.beforeR2.state? sealed.canonical.sender := by
      rw [hestablished, hwaiting]
      decide
    obtain ⟨-, ⟨hi2, -⟩ | ⟨hverifies, -⟩⟩ := hmoved _ hchange
    · cases hi2.symm.trans hkind
    · exact hverifies
  have hrefused : ¬handshake.beforeR2.Verifies (theirs.r2Under replying tag).canonical := by
    rintro ⟨held, hheld, hright⟩
    have hkeys : handshake.beforeR2.keys? responder.hit = some keys :=
      keys?_of_find? hfind hawaits.keys
    have hpeer : (theirs.r2Under replying tag).canonical.sender = responder.hit := hhost
    rw [hpeer, hkeys] at hheld
    obtain rfl := Option.some.inj hheld
    cases hright.symm.trans hwrong
  obtain ⟨-, huntouched⟩ :=
    verification_gates hconforms.reachable_beforeR2 hforged (.inr rfl) (.ofHost 2) 0
  exact ⟨handshake.beforeR2, handshake.r2Bytes, forged, _, _,
    hconforms.reachable_beforeR2, hgenuine, hforged, hkind, rfl, hsender.symm, hwaiting,
    hestablished, hverifies, hrefused, huntouched hrefused fun hi2 => by cases hi2⟩

/-- The bytes of `Context.i2` before its tag is computed, as anyone can write them. -/
theorem exists_forged_i2 (ctx : Context) (hkey : ctx.identity.HasCurveKey) (conn : Connection)
    (puzzle : Puzzle) (answer : Block) : ∃ datagram,
    Packet.parse datagram = .ok (ctx.i2 conn puzzle answer).canonical := by
  have hfits : List.Forall₂ Parameter.FitsIn (ctx.i2 conn puzzle answer).parameters
      [36, 16, 0, 141, 16] :=
    .cons (Parameter.fitsIn_solution _) <| .cons (Parameter.fitsIn_hipCipher _) <|
      .cons ⟨_, rfl, Nat.le_refl 0⟩ <| .cons (Parameter.fitsIn_hostId hkey) <|
      .cons (Parameter.fitsIn_hipMac3 Block.zero) .nil
  obtain ⟨datagram, hencode⟩ := Packet.exists_encode_eq_ok _ hfits (by decide) (by decide)
  refine ⟨datagram, Packet.parse_of_encode hencode fun id hmem => ?_⟩
  simp only [Context.i2, Context.hostId, Context.emptyTag, Packet.ofParameters, List.mem_cons,
    reduceCtorEq, false_or, Parameter.hostId.injEq, List.not_mem_nil, or_false] at hmem
  rw [hmem]
  exact Context.isWellFormed_hostId hkey

/-- An I2 that finds its connection in I1_SENT is answered like an I1: nothing about it is checked
    but that it is complete and that its groups, if there are any, include ours. -/
theorem i2_is_answered_as_i1 {engine : Engine} (hreachable : Reachable engine)
    (hopen : engine.closed = false) (hkey : engine.identity.HasCurveKey) {datagram : List UInt8}
    {packet : Packet} (hparse : Packet.parse datagram = .ok packet) (hkind : packet.kind = .i2)
    (hreceiver : packet.receiver = engine.hit) (hmandatory : packet.checkMandatory = .ok ())
    (hoffer : (engine.context engine.lastNow).checkOffer packet.dhGroupList? = .ok ())
    (hstate : engine.state? packet.sender = some .i1Sent) (source : Address) (now : Nat) :
    (engine.handlePacket datagram source now).result = .ok () ∧
      (engine.handlePacket datagram source now).engine.state? packet.sender = some .r2Sent ∧
      (engine.handlePacket datagram source now).engine.keys? packet.sender = none := by
  obtain ⟨conn, hfind, hi1Sent⟩ := Option.map_eq_some_iff.mp hstate
  obtain ⟨hmem, hpeer⟩ := ConnectionTable.find?_eq_some_iff.mp hfind
  have hform := hreachable.wellFormed hmem
  obtain ⟨-, secret, hsecret⟩ := hreachable.issuer
  have hissue : engine.issuer.issue conn.peer conn.host [] =
      .ok (challengeFor secret conn.peer conn.host []) := by
    rw [PuzzleIssuer.issue, hsecret]
  obtain ⟨turn, hreceive⟩ := Turn.exists_receive_i2AsI1 ⟨conn, engine.rng, []⟩
    (engine.context (max engine.lastNow now)) packet hi1Sent hkind hmandatory hoffer hissue hkey
  obtain ⟨hresult, habsorbs⟩ := handlePacket_known hopen hparse hreceiver source now hfind hreceive
  have hmove := Turn.move_of_receive hreceive
  have hafter : (engine.handlePacket datagram source now).engine.table.find? packet.sender =
      some turn.conn.settled := habsorbs.find_moved (hmove.peer_eq.trans hpeer)
  refine ⟨hresult, ?_⟩
  have hkeys := hform.keyless (.inr hi1Sent)
  generalize turn.conn = moved at hmove hafter
  have hother : ∀ kind, packet.kind = kind → kind = .i2 := fun _ heq => heq.symm.trans hkind
  cases hmove with
  | ignore hdeaf => simp [Connection.heeds, hkind, hi1Sent] at hdeaf
  | answerI1 _ hfound | takeUpR1 _ hfound | acceptR2 _ hfound => cases hother _ hfound
  | answerI2 hanswers => simp [Connection.AnswersI2, hi1Sent] at hanswers
  | resendR2 hr2Sent => simp [hi1Sent] at hr2Sent
  | answerI2AsI1 =>
    refine ⟨state?_of_find? hafter (Connection.state_moveTo _ _), keys?_of_find? hafter ?_⟩
    simpa [Connection.settled, Connection.holdTo, Connection.transmit] using hkeys

/-- A new host that connects to a peer can be brought to R2_SENT without keys by anyone. -/
theorem exists_keyless_hold {engine : Engine} (hnew : SampleHost.IsNew 1 engine) :
    ∃ (peer : Hit) (datagram : List UInt8) (packet : Packet),
    Packet.parse datagram = .ok packet ∧ packet.kind = .i2 ∧ packet.sender = peer ∧
    (engine.after (.connect peer (.ofHost 2) 0)).state? peer = some .i1Sent ∧
    ((engine.after (.connect peer (.ofHost 2) 0)).handlePacket datagram (.ofHost 2) 0).engine.state?
      peer = some .r2Sent ∧
    ((engine.after (.connect peer (.ofHost 2) 0)).handlePacket datagram (.ofHost 2) 0).engine.keys?
      peer = none := by
  let peer := (SampleHost.identity 2).hit
  have hpeer : peer ≠ engine.hit := hnew.hit_eq ▸ SampleHost.distinct.symm
  have hroom : engine.connectionCount < engine.config.maxConnections :=
    Nat.lt_of_le_of_lt (Nat.le_add_right _ _) hnew.room
  obtain ⟨-, -, -, conn, -, -, -, -, -, hfind, hawaits, hasking, -⟩ :=
    connect_sends_i1 hnew.isOpen hpeer (hnew.find?_eq_none peer) hroom (.ofHost 2) 0
  have hstate := state?_of_find? hfind hawaits.state
  have hcontinues := engine.continues_after (.connect peer (.ofHost 2) 0)
  have hkey : (engine.after (.connect peer (.ofHost 2) 0)).identity.HasCurveKey := by
    rw [hcontinues.identity, hnew.identity]
    exact SampleHost.hasCurveKey 1
  -- the I2 of the peer, with neither a puzzle solved nor a tag computed
  let theirs : Context := ⟨SampleHost.config, SampleHost.identity 2, engine.issuer, 0⟩
  let asking := Connection.fresh peer (SampleHost.identity 1).hit (.ofHost 2)
  obtain ⟨datagram, hparse⟩ := exists_forged_i2 theirs (SampleHost.hasCurveKey 2) asking
    ⟨0, 0, 0, Block.zero⟩ Block.zero
  obtain ⟨-, hr2Sent, hkeyless⟩ := i2_is_answered_as_i1
    (hnew.reachable.after (.connect peer (.ofHost 2) 0)) hasking hkey hparse rfl
    (hnew.hit_eq.symm.trans hcontinues.hit.symm) ((Packet.checkMandatory_canonical _).mpr rfl)
    (by rw [Packet.dhGroupList?_canonical]; rfl) hstate (.ofHost 2) 0
  exact ⟨peer, datagram, _, hparse, rfl, rfl, hstate, hr2Sent, hkeyless⟩

/-- An I2 can change the state of a connection without any proof. -/
theorem not_forall_verifies : ¬∀ (engine : Engine), Reachable engine →
    ∀ (datagram : List UInt8) (packet : Packet) (source : Address) (now : Nat),
    Packet.parse datagram = .ok packet → (packet.kind = .i2 ∨ packet.kind = .r2) → ∀ peer,
    (engine.handlePacket datagram source now).engine.state? peer ≠ engine.state? peer →
    (∃ keys, (engine.handlePacket datagram source now).engine.keys? peer = some keys ∧
      packet.verifyMac (keys.ofSender packet.kind).integrity = .ok ()) ∧
    (packet.kind = .i2 → ∃ solution, packet.solution? = some solution ∧
      engine.issuer.verify solution.challenge solution.answer packet.sender engine.hit
        engine.issuer.complexity [] = true) := by
  intro hverifies
  obtain ⟨engine, hnew⟩ := SampleHost.exists_isNew 1
  obtain ⟨peer, datagram, packet, hparse, hkind, -, hstate, hr2Sent, hkeyless⟩ :=
    exists_keyless_hold hnew
  have hchanged :
      ((engine.after (.connect peer (.ofHost 2) 0)).handlePacket datagram (.ofHost 2)
        0).engine.state? peer ≠ (engine.after (.connect peer (.ofHost 2) 0)).state? peer := by
    intro hsame
    cases hr2Sent.symm.trans (hsame.trans hstate)
  obtain ⟨⟨keys, hkeys, -⟩, -⟩ :=
    hverifies _ (hnew.reachable.after (.connect peer (.ofHost 2) 0)) datagram packet
    (.ofHost 2) 0 hparse (.inl hkind) peer hchanged
  cases hkeyless.symm.trans hkeys

end Engine

end DietExchange
