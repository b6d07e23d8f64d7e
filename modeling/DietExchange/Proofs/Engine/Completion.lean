import DietExchange.Proofs.Connection.Faults
import DietExchange.Proofs.Engine.Fresh
import DietExchange.Proofs.Engine.Handshake

namespace DietExchange

namespace Handshake

open Engine

variable (handshake : Handshake)

/-- What becomes of a handshake that nothing is in the way of. -/
structure Completes : Prop where
  connectTaken : (handshake.initiator.connect handshake.responder.hit handshake.address
    handshake.start).result = .ok ()
  i1Taken : (handshake.beforeI1.handlePacket handshake.i1Bytes handshake.i1.source
    handshake.i1.now).result = .ok ()
  r1Taken : (handshake.beforeR1.handlePacket handshake.r1Bytes handshake.r1.source
    handshake.r1.now).result = .ok ()
  i2Taken : (handshake.beforeI2.handlePacket handshake.i2Bytes handshake.i2.source
    handshake.i2.now).result = .ok ()
  r2Taken : (handshake.beforeR2.handlePacket handshake.r2Bytes handshake.r2.source
    handshake.r2.now).result = .ok ()
  initiatorAwaits : handshake.beforeR2.state? handshake.responder.hit = some .i2Sent
  initiatorDone : handshake.afterR2.state? handshake.responder.hit = some .established
  initiatorStays : handshake.finalInitiator.state? handshake.responder.hit = some .established
  responderHolds : handshake.beforeEnd.state? handshake.initiator.hit = some .r2Sent
  responderDone : handshake.afterEnd.state? handshake.initiator.hit = some .established
  responderStays : handshake.finalResponder.state? handshake.initiator.hit = some .established
  initiatorTold : (handshake.initiator.toldIn handshake.initiatorCalls).count
    handshake.responder.hit = 1
  responderTold : (handshake.responder.toldIn handshake.responderCalls).count
    handshake.initiator.hit = 1
  keys : ∃ mine theirs : KeySet, handshake.finalInitiator.keys? handshake.responder.hit =
    some mine ∧
    handshake.finalResponder.keys? handshake.initiator.hit = some theirs ∧ mine.SameKeys theirs ∧
    mine.isInitiator = true ∧ theirs.isInitiator = false

namespace Agrees

variable {handshake} (hagrees : handshake.Agrees)
include hagrees

/-- The responder takes the I2, answers it with the R2 and holds the keys from then on. -/
theorem responds {puzzle : Puzzle} {keys : KeySet} (hunderway : handshake.Underway puzzle keys) :
    (handshake.beforeI2.handlePacket handshake.i2Bytes handshake.i2.source
      handshake.i2.now).result = .ok () ∧
    (∃ (theirs : Context) (replying : Connection) (sealed : Packet),
      theirs.party = handshake.responder.party ∧
      (theirs.r2 replying).recalculateMac keys.responder.integrity = .ok sealed ∧
      sealed.encode = .ok handshake.r2Bytes ∧ replying.host = handshake.responder.hit ∧
      replying.peer = handshake.initiator.hit) ∧
    handshake.beforeEnd.closed = false ∧
    (handshake.responder.toldIn ((handshake.idle ++ handshake.i1Call :: handshake.issued) ++
      handshake.i2Call :: handshake.holding)).count handshake.initiator.hit = 0 ∧
    ∃ conn, handshake.beforeEnd.table.find? handshake.initiator.hit = some conn ∧
      conn.Holds { keys with isInitiator := false } handshake.deadline := by
  have hissued := handshake.continues_beforeI2
  have hreachable := hagrees.reachable_beforeI2
  let mine := handshake.initiator.context handshake.initiator.lastNow
  have hcompatible : mine.party.Compatible handshake.beforeI2.party := by
    rw [hissued.party]
    exact hagrees.compatible
  obtain ⟨-, -, hopenI2, hunknown, htoldI2⟩ := hagrees.challenges
  obtain ⟨secret, hmem, hchallenge⟩ := hunderway.challenge
  have hcomplexity : puzzle.k = handshake.beforeI2.config.puzzleComplexity := by
    rw [hissued.config]
    exact hunderway.complexity
  have hresponds : (handshake.beforeI2.context handshake.beforeI2.lastNow).party =
      (handshake.responder.context handshake.responder.lastNow).party := hissued.party
  have hkeys : (handshake.beforeI2.context handshake.beforeI2.lastNow).sessionKeys
      mine.identity.publicKey mine.identity.hit handshake.beforeI2.hit puzzle.challenge false =
        .ok { keys with isInitiator := false } := by
    rw [Context.sessionKeys_congr hresponds, hissued.hit]
    exact hunderway.responderKeys
  have hwelcomes : handshake.beforeI2.Welcomes handshake.initiator.hit :=
    .inl ⟨hunknown, hissued.config ▸ hagrees.roomForI2⟩
  obtain ⟨hresult, moved, replying, sealed, address, r2, hfind, hholds, hseal, hencode, hfrom, hto,
    hopen, hqueued, htold⟩ := i2_is_answered hreachable hopenI2 hcompatible.fits
      (fun _ => hcompatible.unsolicited) (hissued.hit ▸ hunderway.answer) hmem
        (hissued.hit ▸ hchallenge)
      hcomplexity hkeys hunderway.responderLength hwelcomes handshake.i2.source handshake.i2.now
  have hbytes : handshake.r2Bytes = r2 := by
    rw [r2Bytes, i2Call, hqueued]
    obtain ⟨hkind, -, hreceiver⟩ := Context.header_r2 hseal
    exact packetTo_singleton (Context.parse_r2 hseal hencode) hkind (hreceiver.trans hto)
  let theirs := handshake.beforeI2.context (max handshake.beforeI2.lastNow handshake.i2.now)
  have hparty : theirs.party = handshake.responder.party := hissued.party
  have hafterI2 := handshake.continues_afterI2
  have hspares := hagrees.spares_responder handshake.holding hafterI2
    fun call hmem => by simp [hmem]
  rw [hissued.config] at hholds
  have hreachableI2 : handshake.afterI2.Reachable := hreachable.after handshake.i2Call
  obtain ⟨later, hlater, hstill, hcount⟩ := holds_run hreachableI2
    (hagrees.hasCurveKey_responder hafterI2) hopen hspares hfind hholds hagrees.holdingEarly
  refine ⟨hresult, ⟨theirs, replying, sealed, hparty, hseal, hbytes ▸ hencode,
    hfrom.trans hissued.hit, hto⟩, closed_run_of_spares hopen hspares, ?_, later, hlater, hstill⟩
  exact count_toldIn handshake.run_beforeI2 htoldI2
    (congrArg (List.count handshake.initiator.hit) htold) hcount

/-- The initiator takes the R2 and is done. -/
theorem concludes {puzzle : Puzzle} {keys : KeySet} (hunderway : handshake.Underway puzzle keys) :
    (handshake.beforeR2.handlePacket handshake.r2Bytes handshake.r2.source
      handshake.r2.now).result = .ok () ∧
    (handshake.initiator.toldIn handshake.initiatorCalls).count handshake.responder.hit = 1 ∧
    (∃ conn, handshake.afterR2.table.find? handshake.responder.hit = some conn ∧ conn.IsDone keys) ∧
    ∃ conn, handshake.finalInitiator.table.find? handshake.responder.hit = some conn ∧
      conn.IsDone keys := by
  obtain ⟨-, ⟨theirs, replying, sealed, hparty, hseal, hencode, hfrom, hto⟩, -⟩ :=
    hagrees.responds hunderway
  have hsolving := handshake.continues_beforeR2
  have hcompatible : handshake.beforeR2.party.Compatible theirs.party := by
    rw [hparty, hsolving.party]
    exact hagrees.compatible
  have hhit : theirs.identity.hit = handshake.responder.hit :=
    congrArg (·.identity.hit) hparty
  obtain ⟨conn, hfind, hawaits⟩ := hunderway.awaits
  obtain ⟨hresult, moved, hafter, hdone, hopen, htold⟩ := r2_completes
    hagrees.reachable_beforeR2 hunderway.initiatorOpen hcompatible.fits hseal hencode
    (hfrom.trans hhit.symm) (hto.trans hsolving.hit.symm) (hhit ▸ hfind) hawaits
    handshake.r2.source handshake.r2.now
  rw [hhit] at hafter htold
  have hafterR2 := handshake.continues_afterR2
  have hreachable : handshake.afterR2.Reachable := hagrees.reachable_beforeR2.after handshake.r2Call
  have hspares := hagrees.spares_initiator handshake.finished hafterR2 (by simp)
  obtain ⟨later, hlater, hstill, hcount⟩ := isDone_run hreachable
    (hagrees.hasCurveKey_initiator hafterR2) hopen hspares hafter hdone
  refine ⟨hresult, ?_, ⟨moved, hafter, hdone⟩, later, hlater, hstill⟩
  have honce : (handshake.beforeR2.toldBy handshake.r2Call).count handshake.responder.hit = 1 := by
    rw [r2Call, htold, List.count_singleton_self]
  exact count_toldIn handshake.run_beforeR2 hunderway.told honce hcount

end Agrees

namespace Conforms

variable {handshake} (hconforms : handshake.Conforms)
include hconforms

/-- The responder is done when it sees the time at which its hold is over. -/
theorem settles {puzzle : Puzzle} {keys : KeySet} (hunderway : handshake.Underway puzzle keys) :
    (handshake.responder.toldIn handshake.responderCalls).count handshake.initiator.hit = 1 ∧
    (∃ conn, handshake.afterEnd.table.find? handshake.initiator.hit = some conn ∧
      conn.IsDone { keys with isInitiator := false }) ∧
    ∃ conn, handshake.finalResponder.table.find? handshake.initiator.hit = some conn ∧
      conn.IsDone { keys with isInitiator := false } := by
  obtain ⟨-, -, hopen, htold, conn, hfind, hholds⟩ := hconforms.responds hunderway
  have hreachable := hconforms.reachable_beforeEnd
  have hkey := hconforms.hasCurveKey_responder handshake.continues_beforeEnd
  obtain ⟨honce, ended, hafter, hdone⟩ :=
    holds_until hreachable hkey hopen hfind hholds handshake.visits hconforms.holdEnds
  have hafterEnd := handshake.continues_afterEnd
  have hreachableEnd : handshake.afterEnd.Reachable := hreachable.after handshake.endCall
  have hend : handshake.endCall.Spares handshake.beforeEnd.hit handshake.initiator.hit := trivial
  have hspares := hconforms.spares_responder handshake.settled hafterEnd
    (List.subset_append_right _ _)
  obtain ⟨later, hlater, hstill, hcount⟩ := isDone_run hreachableEnd
    (hconforms.hasCurveKey_responder hafterEnd) (closed_of_spares hopen hend) hspares hafter hdone
  exact ⟨count_toldIn handshake.run_beforeEnd htold honce hcount, ⟨ended, hafter, hdone⟩,
    later, hlater, hstill⟩

/-- If the hosts fit together and each of the four packets is delivered once, every delivery is
    taken, both sides end ESTABLISHED under the same keys, and each tells so once. -/
theorem completes : handshake.Completes := by
  obtain ⟨hconnect, -⟩ := hconforms.asks
  obtain ⟨hi1, -⟩ := hconforms.challenges
  obtain ⟨hr1, -⟩ := hconforms.takesUp
  obtain ⟨puzzle, keys, hunderway⟩ := hconforms.underway
  obtain ⟨hi2, -, -, -, holding, hholding, hholds⟩ := hconforms.responds hunderway
  obtain ⟨hr2, htoldInitiator, ⟨concluded, hconcluded, hdoneR2⟩, mine, hmine, hdone⟩ :=
    hconforms.concludes hunderway
  obtain ⟨htoldResponder, ⟨ended, hended, hdoneEnd⟩, theirs, htheirs, hsettled⟩ :=
    hconforms.settles hunderway
  obtain ⟨waiting, hwaiting, hawaits⟩ := hunderway.awaits
  exact {
    connectTaken := hconnect
    i1Taken := hi1
    r1Taken := hr1
    i2Taken := hi2
    r2Taken := hr2
    initiatorAwaits := state?_of_find? hwaiting hawaits.state
    initiatorDone := state?_of_find? hconcluded hdoneR2.state
    initiatorStays := state?_of_find? hmine hdone.state
    responderHolds := state?_of_find? hholding hholds.state
    responderDone := state?_of_find? hended hdoneEnd.state
    responderStays := state?_of_find? htheirs hsettled.state
    initiatorTold := htoldInitiator
    responderTold := htoldResponder
    keys := ⟨keys, { keys with isInitiator := false }, keys?_of_find? hmine hdone.keys,
      keys?_of_find? htheirs hsettled.keys, ⟨rfl, rfl⟩, hunderway.isInitiator, rfl⟩ }

end Conforms

/-- The handshake of two engines that do nothing else meanwhile, as fast as can be. -/
def prompt (initiator responder : Engine) (now : Nat) : Handshake where
  initiator := initiator
  responder := responder
  address := .ofHost 2
  start := now
  i1 := ⟨.ofHost 1, now⟩
  r1 := ⟨.ofHost 2, now⟩
  i2 := ⟨.ofHost 1, now⟩
  r2 := ⟨.ofHost 2, now⟩
  holdEnd := now + responder.config.r2SentHold
  visits := []
  waiting := []
  solving := [.handleTimeout [] now]
  finished := []
  idle := []
  issued := []
  holding := []
  settled := []

section Prompt

variable {initiator responder : Engine} {now : Nat}

/-- What two engines need for that, but for a cipher suite: puzzles that are no work, and nothing to
    do with each other before. -/
structure Prepared (initiator responder : Engine) : Prop where
  initiatorReachable : initiator.Reachable
  responderReachable : responder.Reachable
  initiatorOpen : initiator.closed = false
  responderOpen : responder.closed = false
  nearlyCompatible : initiator.party.NearlyCompatible responder.party
  complexity : responder.config.puzzleComplexity = 0
  initiatorFresh : initiator.table.find? responder.hit = none
  responderFresh : responder.table.find? initiator.hit = none
  initiatorRoom : initiator.connectionCount < initiator.config.maxConnections
  responderRoom : responder.connectionCount + 1 < responder.config.maxConnections

namespace Prepared

variable (hprepared : Prepared initiator responder)
include hprepared

theorem proceeds (now : Nat) : (prompt initiator responder now).Proceeds where
  initiatorReachable := hprepared.initiatorReachable
  responderReachable := hprepared.responderReachable
  initiatorOpen := hprepared.initiatorOpen
  responderOpen := hprepared.responderOpen
  nearlyCompatible := hprepared.nearlyCompatible
  initiatorFresh := hprepared.initiatorFresh
  responderFresh := hprepared.responderFresh
  initiatorRoom := hprepared.initiatorRoom
  roomForI1 := Nat.lt_of_succ_lt hprepared.responderRoom
  roomForI2 := Nat.lt_of_le_of_lt
    (responder.connectionCount_after_le (prompt initiator responder now).i1Call)
    hprepared.responderRoom
  initiatorSpares := by simp [prompt, Call.Spares]
  responderSpares := by simp [prompt]
  rotations := Nat.le_add_right _ _

theorem isSolved (now : Nat) : (prompt initiator responder now).IsSolved :=
  (hprepared.proceeds now).solved_of_complexity_zero hprepared.complexity rfl

/-- When the hold of the responder is over: it counts from the latest time that the responder was
    told. -/
theorem deadline_prompt (now : Nat) : (prompt initiator responder now).deadline =
    max responder.lastNow now + responder.config.r2SentHold := by
  have hlast : (prompt initiator responder now).beforeI2.lastNow = max responder.lastNow now :=
    lastNow_handlePacket hprepared.responderOpen _ _ now
  rw [deadline, hlast]
  exact congrArg (· + _) (Nat.max_eq_left (Nat.le_max_right _ now))

/-- If they also have a suite in common, they agree. -/
theorem agrees (hcompatible : initiator.party.Compatible responder.party) (now : Nat) :
    (prompt initiator responder now).Agrees where
  toProceeds := hprepared.proceeds now
  solved := hprepared.isSolved now
  cipher := hcompatible.cipher
  holdingEarly := by simp [prompt]

/-- The hold is seen to end if the handshake begins no earlier than the responder was told. -/
theorem conforms (hcompatible : initiator.party.Compatible responder.party)
    (hnow : responder.lastNow ≤ now) : (prompt initiator responder now).Conforms where
  toAgrees := hprepared.agrees hcompatible now
  holdEnds := by
    rw [hprepared.deadline_prompt, Nat.max_eq_right hnow]
    exact Nat.le_refl _

end Prepared

theorem prepared_of_isIdle {ours theirs : List CipherSuite} {start told : Nat}
    (hinitiator : SampleHost.IsIdle ours 1 start initiator)
    (hresponder : SampleHost.IsIdle theirs 2 told responder) : Prepared initiator responder where
  initiatorReachable := hinitiator.reachable
  responderReachable := hresponder.reachable
  initiatorOpen := hinitiator.isOpen
  responderOpen := hresponder.isOpen
  nearlyCompatible := by
    rw [Engine.party, Engine.party, hinitiator.config, hinitiator.identity, hresponder.config,
      hresponder.identity]
    exact SampleHost.nearlyCompatible ours theirs
  complexity := by
    rw [hresponder.config]
    rfl
  initiatorFresh := hinitiator.table ▸ rfl
  responderFresh := hresponder.table ▸ rfl
  initiatorRoom := by
    rw [Engine.connectionCount, hinitiator.table, hinitiator.config]
    exact Nat.zero_lt_succ _
  responderRoom := by
    rw [Engine.connectionCount, hresponder.table, hresponder.config]
    exact Nat.succ_lt_succ (Nat.zero_lt_succ _)

theorem compatible_of_isIdle {start told : Nat}
    (hinitiator : SampleHost.IsIdle [.aes128Cbc] 1 start initiator)
    (hresponder : SampleHost.IsIdle [.aes128Cbc] 2 told responder) :
    initiator.party.Compatible responder.party := by
  rw [Engine.party, Engine.party, hinitiator.config, hinitiator.identity, hresponder.config,
    hresponder.identity]
  exact SampleHost.compatible

end Prompt

theorem conforms_sample {initiator responder : Engine} (hinitiator : SampleHost.IsNew 1 initiator)
    (hresponder : SampleHost.IsNew 2 responder) : (prompt initiator responder 0).Conforms :=
  (prepared_of_isIdle hinitiator.isIdle hresponder.isIdle).conforms
    (compatible_of_isIdle hinitiator.isIdle hresponder.isIdle) (Nat.le_of_eq hresponder.lastNow)

/-- The handshake of the two sample hosts completes. -/
theorem exists_completes : ∃ handshake : Handshake, handshake.Conforms ∧ handshake.Completes := by
  obtain ⟨initiator, hinitiator⟩ := SampleHost.exists_isNew 1
  obtain ⟨responder, hresponder⟩ := SampleHost.exists_isNew 2
  have hconforms := conforms_sample hinitiator hresponder
  exact ⟨_, hconforms, hconforms.completes⟩

/-! What does not do instead of these conditions -/

/-- What would be asked of a handshake if suites were compared by their names, and if the hold
    counted from when the I2 arrives. -/
structure Expects : Prop extends Proceeds handshake where
  solved : handshake.IsSolved
  shared : ∃ suite ∈ handshake.responder.config.cipherSuites,
    suite ∈ handshake.initiator.config.cipherSuites.take maxCipherSuites
  inOrder : [handshake.start, handshake.i1.now, handshake.r1.now, handshake.i2.now,
    handshake.r2.now, handshake.holdEnd].Pairwise (· ≤ ·)
  initiatorTimely : (handshake.initiatorCalls.filterMap Call.now?).Pairwise (· ≤ ·)
  responderTimely : (handshake.responderCalls.filterMap Call.now?).Pairwise (· ≤ ·)
  holdingEarly : ∀ order now, .handleTimeout order now ∈ handshake.holding →
    now < handshake.i2.now + handshake.responder.config.r2SentHold
  holdEnds : handshake.i2.now + handshake.responder.config.r2SentHold ≤ handshake.holdEnd

theorem Prepared.expects {initiator responder : Engine} (hprepared : Prepared initiator responder)
    (hshared : ∃ suite ∈ responder.config.cipherSuites,
      suite ∈ initiator.config.cipherSuites.take maxCipherSuites) (now : Nat) :
    (prompt initiator responder now).Expects where
  toProceeds := hprepared.proceeds now
  solved := hprepared.isSolved now
  shared := hshared
  inOrder := by simp [prompt]
  initiatorTimely := by
    simp [prompt, initiatorCalls, connectCall, r1Call, r2Call, Call.now?]
  responderTimely := by
    simp [prompt, responderCalls, i1Call, i2Call, endCall, Call.now?]
  holdingEarly := by simp [prompt]
  holdEnds := Nat.le_refl _

/-- A responder that answers an I2 has picked a suite of its own whose name is that of its code. -/
theorem exists_canonical_of_move {ctx : Context} {conn moved : Connection} {datagram : List UInt8}
    {packet : Packet} (hparse : Packet.parse datagram = .ok packet)
    (hstate : conn.state = .unassociated) (hmove : conn.Move ctx (.packet packet) moved)
    (hholds : moved.state = .r2Sent) : ∃ suite ∈ ctx.config.cipherSuites, suite.IsCanonical := by
  cases hmove with
  | ignore | answerI1 => cases hstate.symm.trans hholds
  | answerI2AsI1 hasked | takeUpR1 hasked => cases hstate.symm.trans hasked
  | resendR2 hheld => cases hstate.symm.trans hheld
  | acceptR2 hawaits => cases hstate.symm.trans hawaits
  | @answerI2 _ _ _ _ suite _ _ _ hvalid =>
    obtain ⟨solution, id, haccepts⟩ := Context.validateI2_eq_ok_iff.mp hvalid
    obtain ⟨offer, hoffer, hselect⟩ := haccepts.selected
    obtain ⟨hours, hoffered⟩ := CipherOffer.mem_of_select? hselect
    exact ⟨suite, hours, Packet.isCanonical_of_parse hparse hoffer suite hoffered⟩

variable {handshake}

/-- A responder that holds its R2 has a suite whose name is that of its code. -/
theorem Proceeds.exists_canonical (hproceeds : handshake.Proceeds)
    (hholds : handshake.afterI2.state? handshake.initiator.hit = some .r2Sent) :
    ∃ suite ∈ handshake.responder.config.cipherSuites, suite.IsCanonical := by
  obtain ⟨-, -, -, hunknown, -⟩ := hproceeds.challenges
  obtain ⟨conn, hfind, hstate⟩ := Option.map_eq_some_iff.mp hholds
  obtain ⟨hmem, hpeer⟩ := ConnectionTable.find?_eq_some_iff.mp hfind
  rcases (handshake.beforeI2.after_spec handshake.i2Call).connections conn hmem with
    hold | ⟨before, moved, hmoves, rfl⟩
  · have hknown := ConnectionTable.find?_eq_some_iff.mpr ⟨hold, hpeer⟩
    cases hunknown.symm.trans hknown
  · rw [← handshake.continues_beforeI2.config]
    cases hmoves with
    | handlePacket hparse _ _ hoffers hmove =>
      rcases hoffers with hfound | ⟨-, -, rfl⟩
      · rw [Connection.peer_settled, hmove.peer_eq] at hpeer
        obtain ⟨-, hsender⟩ := ConnectionTable.find?_eq_some_iff.mp hfound
        rw [← hsender, hpeer] at hfound
        cases hunknown.symm.trans hfound
      · exact exists_canonical_of_move hparse rfl hmove hstate

/-- A responder that sees an earlier time than the end of its hold goes on holding. -/
theorem Agrees.holds_of_early (hagrees : handshake.Agrees)
    (hearly : handshake.holdEnd < handshake.deadline) :
    handshake.afterEnd.state? handshake.initiator.hit = some .r2Sent := by
  obtain ⟨puzzle, keys, hunderway⟩ := hagrees.underway
  obtain ⟨-, -, hopen, -, conn, hfind, hholds⟩ := hagrees.responds hunderway
  have hspares : ∀ call ∈ [handshake.endCall],
      call.Spares handshake.beforeEnd.hit handshake.initiator.hit := by
    simp [endCall, Call.Spares]
  have htime : ∀ order now, .handleTimeout order now ∈ [handshake.endCall] →
      now < handshake.deadline := by
    intro order now hmem
    obtain ⟨-, rfl⟩ := Call.handleTimeout.inj (List.mem_singleton.mp hmem)
    exact hearly
  obtain ⟨later, hlater, hstill, -⟩ := holds_run hagrees.reachable_beforeEnd
    (hagrees.hasCurveKey_responder handshake.continues_beforeEnd) hopen hspares hfind hholds htime
  exact state?_of_find? hlater hstill.state

/-- It does not do for the two hosts to list the same suite: if it goes by a name that is not that
    of its code, the responder does not find it in the offer. Nor does it do to count the hold from
    when the I2 arrives: it counts from the latest time that the responder was told. -/
theorem not_forall_completes :
    (¬ ∀ handshake : Handshake, handshake.Expects →
      handshake.responder.lastNow ≤ handshake.start → handshake.Completes) ∧
    ¬ ∀ handshake : Handshake, handshake.Expects →
      handshake.initiator.party.Compatible handshake.responder.party → handshake.Completes := by
  constructor
  · intro hcompletes
    obtain ⟨initiator, hinitiator⟩ := SampleHost.exists_isIdle [.unknown 2] 1 0
    obtain ⟨responder, hresponder⟩ := SampleHost.exists_isIdle [.unknown 2] 2 0
    have hprepared := prepared_of_isIdle hinitiator hresponder
    have hshared : ∃ suite ∈ responder.config.cipherSuites,
        suite ∈ initiator.config.cipherSuites.take maxCipherSuites := by
      rw [hinitiator.config, hresponder.config]
      exact ⟨.unknown 2, List.mem_singleton_self _, List.mem_singleton_self _⟩
    have hcompleted := hcompletes _ (hprepared.expects hshared 0) (Nat.le_of_eq hresponder.lastNow)
    obtain ⟨suite, hmem, hcanonical⟩ :=
      (hprepared.proceeds 0).exists_canonical hcompleted.responderHolds
    rw [show (prompt initiator responder 0).responder = responder from rfl,
      hresponder.config] at hmem
    obtain rfl := List.mem_singleton.mp hmem
    revert hcanonical
    decide
  · intro hcompletes
    obtain ⟨initiator, hinitiator⟩ := SampleHost.exists_isIdle [.aes128Cbc] 1 0
    obtain ⟨responder, hresponder⟩ := SampleHost.exists_isIdle [.aes128Cbc] 2 1
    have hprepared := prepared_of_isIdle hinitiator hresponder
    have hcompatible := compatible_of_isIdle hinitiator hresponder
    have hshared : ∃ suite ∈ responder.config.cipherSuites,
        suite ∈ initiator.config.cipherSuites.take maxCipherSuites := by
      rw [hinitiator.config, hresponder.config]
      exact ⟨.aes128Cbc, List.mem_singleton_self _, List.mem_singleton_self _⟩
    have hcompleted := hcompletes _ (hprepared.expects hshared 0) hcompatible
    have hearly : (prompt initiator responder 0).holdEnd <
        (prompt initiator responder 0).deadline := by
      rw [hprepared.deadline_prompt, hresponder.lastNow]
      exact Nat.add_lt_add_right Nat.zero_lt_one _
    have hstate := (hprepared.agrees hcompatible 0).holds_of_early hearly
    cases hstate.symm.trans hcompleted.responderDone

end Handshake

end DietExchange
