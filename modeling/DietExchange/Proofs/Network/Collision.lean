import DietExchange.Proofs.Engine.Accounting
import DietExchange.Proofs.Network.Crossing

namespace DietExchange

namespace Engine

/-- Whether an engine waits for an R2 of another on a genuine R1 of that one, which still has the
    secret of its challenge. -/
structure Crosses (engine other : Engine) (conn : Connection) (keys : KeySet) (i2 : List UInt8) :
    Prop where
  reachable : Reachable engine
  isOpen : engine.closed = false
  find : engine.table.find? other.hit = some conn
  rests : ∃ secret ∈ other.issuer.window.secrets, ∃ cookie datagram r1,
    other.Challenges engine secret cookie datagram ∧ Packet.parse datagram = .ok r1 ∧
    conn.RestsOn engine.party r1 keys i2

section Crosses

variable {engine other : Engine} {conn : Connection} {keys : KeySet} {i2 : List UInt8}

theorem Crosses.awaits (hcrosses : engine.Crosses other conn keys i2) : conn.AwaitsR2 keys i2 := by
  obtain ⟨secret, -, cookie, datagram, r1, -, -, hrests⟩ := hcrosses.rests
  exact hrests.awaits

theorem Crosses.host_eq (hcrosses : engine.Crosses other conn keys i2) : conn.host = engine.hit :=
  hcrosses.reachable.host_eq (ConnectionTable.find?_eq_some_iff.mp hcrosses.find).1

theorem Crosses.peer_eq (hcrosses : engine.Crosses other conn keys i2) : conn.peer = other.hit :=
  ConnectionTable.peer_of_find? hcrosses.find

/-- What was sent is an I2 for the other. -/
theorem Crosses.exists_parse (hcrosses : engine.Crosses other conn keys i2)
    (hkey : engine.identity.HasCurveKey) : ∃ packet, Packet.parse i2 = .ok packet ∧
    packet.kind = .i2 ∧ packet.sender = engine.hit ∧ packet.receiver = other.hit := by
  obtain ⟨secret, -, cookie, datagram, r1, -, -, hrests⟩ := hcrosses.rests
  obtain ⟨puzzle, -, ctx, asking, answer, sealed, hparty, hhost, hpeer, hseal, hencode, -⟩ :=
    hrests.reply
  have hidentity : ctx.identity = engine.identity := congrArg Party.identity hparty
  obtain ⟨hkind, hsender, hreceiver⟩ := Context.header_i2 r1.echoRequest? hseal
  exact ⟨_, Context.parse_i2 _ (hidentity ▸ hkey) hseal hencode, hkind,
    hsender.trans (hhost.trans hcrosses.host_eq), hreceiver.trans (hpeer.trans hcrosses.peer_eq)⟩

/-- It answers a challenge under a secret that the other one still has. -/
theorem Crosses.exists_answers (hcrosses : engine.Crosses other conn keys i2)
    (hfits : engine.party.Fits other.party) :
    ∃ secret ∈ other.issuer.window.secrets, engine.Answers other secret keys i2 := by
  obtain ⟨secret, hmem, cookie, datagram, r1, hchallenges, hparse, hrests⟩ := hcrosses.rests
  obtain ⟨packet, puzzle, keys, hfound, hreads⟩ := hchallenges.exists_reads hfits
  obtain rfl := Except.ok.inj (hparse.symm.trans hfound)
  exact ⟨secret, hmem, hreads.answers hcrosses.host_eq hcrosses.peer_eq hrests⟩

variable {theirs : Connection} {theirKeys : KeySet} {theirI2 : List UInt8}
  (hcrosses : engine.Crosses other conn keys i2)
  (hother : other.Crosses engine theirs theirKeys theirI2) (hfits : engine.party.Fits other.party)
  (hsmaller : engine.hit < other.hit) (source : Address) (now : Nat)
include hcrosses hother hfits hsmaller

/-- The engine with the smaller HIT takes no notice of the I2 of the other. -/
theorem Crosses.ignores : (engine.handlePacket theirI2 source now).result = .ok () ∧
    engine.after (.handlePacket theirI2 source now) = engine.advance now := by
  obtain ⟨packet, hparse, hkind, hsender, hreceiver⟩ := hother.exists_parse hfits.responderKey
  have hless : conn.host < conn.peer := by
    rw [hcrosses.host_eq, hcrosses.peer_eq]
    exact hsmaller
  have hdeaf : conn.heeds packet.kind = false := by
    simp [Connection.heeds, hkind, hcrosses.awaits.state, hless]
  have hmem := (ConnectionTable.find?_eq_some_iff.mp hcrosses.find).1
  exact handlePacket_of_deaf hcrosses.isOpen hparse hreceiver (hsender ▸ hcrosses.find)
    (hcrosses.reachable.outbox_eq_nil hmem) hdeaf source now

/-- The engine with the larger HIT answers the I2 of the other and no longer waits for an R2 of its
    own. -/
theorem Crosses.responds : (other.handlePacket i2 source now).result = .ok () ∧
    ∃ r2 answered deadline, other.Confirms engine keys r2 ∧
      (∃ address, other.queuedBy (.handlePacket i2 source now) = [⟨address, r2⟩]) ∧
      (other.after (.handlePacket i2 source now)).table.find? engine.hit = some answered ∧
      answered.Holds { keys with isInitiator := false } deadline ∧
      (other.after (.handlePacket i2 source now)).retransmitting + 1 = other.retransmitting := by
  obtain ⟨secret, hmem, hanswers⟩ := hcrosses.exists_answers hfits
  obtain ⟨packet, hparse, -, hsender, -⟩ := hcrosses.exists_parse hfits.initiatorKey
  have hlarger : ¬theirs.host < theirs.peer := by
    rw [hother.host_eq, hother.peer_eq]
    exact Nat.lt_asymm hsmaller
  have hknown : other.table.find? engine.hit ≠ none := by
    rw [hother.find]
    exact Option.some_ne_none theirs
  have hwelcomes : other.Welcomes engine.hit :=
    .inr ⟨theirs, hother.find, .inl ⟨hother.awaits.state, hlarger⟩⟩
  obtain ⟨hresult, r2, answered, hconfirms, hqueued, -, hfind, hholds⟩ :=
    hanswers.confirmed (.refl _)
    hother.reachable hother.isOpen source now hfits hmem (absurd · hknown) hwelcomes
  have hcount := hother.reachable.accounts.retransmitting_handlePacket hother.isOpen hparse
    (hsender ▸ hother.find) (hsender ▸ hfind)
  rw [hother.awaits.state, hholds.state] at hcount
  exact ⟨hresult, r2, answered, _, hconfirms, hqueued, hfind, hholds, hcount⟩

end Crosses

section Meets

variable {engine other : Engine}

/-- An engine that waits for an R1 gets to where it waits for an R2 on the R1 that comes. -/
theorem Meets.crosses (hmeets : engine.Meets other) {calls theirs : List Call} {conn : Connection}
    (hopen : (engine.run calls).closed = false)
    (hfind : (engine.run calls).table.find? other.hit = some conn) (hawaits : conn.AwaitsR1)
    (heasy : other.config.puzzleComplexity = 0) {secret : Block} {cookie : UInt16} {r1 : List UInt8}
    (hchallenges : other.Challenges engine secret cookie r1)
    (hkept : secret ∈ (other.run theirs).issuer.window.secrets) (side : Side) : ∃ later keys i2,
      (engine.run (calls ++ [arrival side r1, .handleTimeout [] 0])).Crosses (other.run theirs)
        later keys i2 := by
  obtain ⟨packet, keys, i2, later, hparse, -, -, hstill, hlater, hrests⟩ := hmeets.takes_and_solves
    (engine.continues_run calls) (hmeets.reachable.run calls) hopen hfind hawaits heasy hchallenges
    side []
  let all := calls ++ [arrival side r1, .handleTimeout [] 0]
  have hsolved : (engine.run calls).run [arrival side r1, .handleTimeout [] 0] = engine.run all :=
    (run_append engine calls _).symm
  have hcontinues := engine.continues_run all
  have htheirs := other.continues_run theirs
  rw [hsolved] at hstill hlater
  refine ⟨later, keys, i2, (hmeets.reachable.run all), hstill, htheirs.hit ▸ hlater, secret, hkept,
    cookie, r1, packet, hchallenges.of_continues htheirs hcontinues, hparse, ?_⟩
  rw [hcontinues.party]
  exact hrests

/-- Two engines that meet can get to where the I2s of both cross. -/
theorem Meets.exists_crosses (hmeets : engine.Meets other) (hback : other.Meets engine) :
    ∃ calls theirs : List Call,
      (∃ conn keys i2, (engine.run calls).Crosses (other.run theirs) conn keys i2) ∧
      ∃ conn keys i2, (other.run theirs).Crosses (engine.run calls) conn keys i2 := by
  obtain ⟨theirI1, htheirI1⟩ := other.exists_asks engine
  obtain ⟨ownI1, hownI1⟩ := engine.exists_asks other
  obtain ⟨secret, cookie, r1, -, conn, hnewest, hchallenges, -, -, -, hopen, hfind, hawaits⟩ :=
    hmeets.answers_and_asks hback.compatible htheirI1 .left
  obtain ⟨theirSecret, theirCookie, theirR1, -, theirConn, htheirNewest, htheirChallenges, -, -, -,
    htheirOpen, htheirFind, htheirAwaits⟩ := hback.answers_and_asks hmeets.compatible hownI1 .right
  let calls :=
    [arrival .left theirI1, greeting .left other.hit, arrival .left theirR1, .handleTimeout [] 0]
  let theirs :=
    [arrival .right ownI1, greeting .right engine.hit, arrival .right r1, .handleTimeout [] 0]
  exact ⟨calls, theirs,
    hmeets.crosses hopen hfind hawaits hback.easy htheirChallenges
      (newest_mem_run_of_countP htheirNewest theirs (by simp [theirs, arrival, greeting])) .left,
    hback.crosses htheirOpen htheirFind htheirAwaits hmeets.easy hchallenges
      (newest_mem_run_of_countP hnewest calls (by simp [calls, arrival, greeting])) .right⟩

end Meets

end Engine

namespace Network

/-- Whether by some events the host at the other side, and it alone, has become the responder: this
    one has only seen the time, and the other one has sent an R2, holds its keys as the responder,
    and counts one connection fewer that waits for an answer. -/
structure Elects (network after : Network) (side : Side) (now : Nat) (keys : KeySet)
    (r2 : List UInt8) : Prop where
  unchanged : after.engine side = (network.engine side).advance now
  silent : after.sent side = network.sent side
  confirms : (network.engine side.other).Confirms (network.engine side) keys r2
  sent : after.sent side.other = network.sent side.other ++ [r2]
  held : ∃ conn deadline, (after.engine side.other).table.find? (after.peer side.other) =
    some conn ∧ conn.Holds { keys with isInitiator := false } deadline
  stopped : (after.engine side.other).retransmitting + 1 =
    (network.engine side.other).retransmitting

/-- Whether the host at this side is done as the initiator, with the keys that the other one holds
    as the responder. -/
structure Concludes (network : Network) (side : Side) : Prop where
  established : network.state? side = some .established
  held : network.state? side.other = some .r2Sent
  keys : ∃ mine theirs, network.keys? side = some mine ∧ network.keys? side.other = some theirs ∧
    mine.SameKeys theirs ∧ mine.isInitiator = true ∧ theirs.isInitiator = false

/-- If of several events each is at another side, each side has its own. -/
theorem callsTo_of_perm {side : Side} {call other : Call} {events : List Event}
    (horder : events.Perm [⟨side, call⟩, ⟨side.other, other⟩]) :
    Event.callsTo side events = [call] ∧ Event.callsTo side.other events = [other] := by
  have hcalls : ∀ reading, (Event.callsTo reading events).Perm
      (Event.callsTo reading [⟨side, call⟩, ⟨side.other, other⟩]) := fun reading =>
    (horder.filter _).map _
  constructor
  · exact List.perm_singleton.mp ((hcalls side).trans (by simp [Event.callsTo]))
  · exact List.perm_singleton.mp ((hcalls side.other).trans
      (by simp [Event.callsTo, (Side.other_ne side).symm]))

section Collision

variable {network : Network} {side : Side}
  (hsmaller : (network.engine side).hit < (network.engine side.other).hit)
  (hfits : (network.engine side).party.Fits (network.engine side.other).party)
  {conn theirs : Connection} {keys theirKeys : KeySet} {i2 theirI2 : List UInt8}
  (hcrosses : (network.engine side).Crosses (network.engine side.other) conn keys i2)
  (hother : (network.engine side.other).Crosses (network.engine side) theirs theirKeys theirI2)
include hsmaller hfits hcrosses hother

/-- Two I2s that cross make the host with the larger HIT the responder, whichever arrives first. -/
theorem elects_of_crosses {source theirSource : Address} {now later : Nat} {events : List Event}
    (horder : events.Perm [⟨side, .handlePacket theirI2 source now⟩,
      ⟨side.other, .handlePacket i2 theirSource later⟩]) :
    ∃ r2, network.Elects (network.run events) side now keys r2 := by
  obtain ⟨hown, htheirs⟩ := callsTo_of_perm horder
  obtain ⟨-, hignores⟩ := hcrosses.ignores hother hfits hsmaller source now
  obtain ⟨-, r2, answered, deadline, hconfirms, ⟨address, hqueued⟩, hfind, hholds, hstopped⟩ :=
    hcrosses.responds hother hfits hsmaller theirSource later
  have hengine : (network.run events).engine side = (network.engine side).advance now := by
    rw [engine_run, hown]
    exact hignores
  have hresponder : (network.run events).engine side.other =
      (network.engine side.other).after (.handlePacket i2 theirSource later) := by
    rw [engine_run, htheirs]
    rfl
  have hsilent : (network.engine side).queuedBy (.handlePacket theirI2 source now) = [] :=
    Engine.queuedBy_of_append (by rw [hignores]; exact (List.append_nil _).symm)
  refine ⟨r2, hengine, ?_, hconfirms, ?_, ⟨answered, deadline, ?_, hholds⟩, ?_⟩
  · rw [sent_run, hown, Engine.queuedIn, Engine.queuedIn, hsilent]
    exact List.append_nil _
  · rw [sent_run, htheirs, Engine.queuedIn, Engine.queuedIn, hqueued]
    rfl
  · rw [hresponder, peer_run, peer, Side.other_other]
    exact hfind
  · rw [hresponder]
    exact hstopped

omit hsmaller hother in
/-- Its R2 ends the handshake for the other host. -/
theorem Elects.concludes {after : Network} {now : Nat} {r2 : List UInt8}
    (helects : network.Elects after side now keys r2)
    (hextends : ∀ reading, (network.engine reading).Continues (after.engine reading))
    (source : Address) (later : Nat) :
      ((after.engine side).handlePacket r2 source later).result = .ok () ∧
      (after.step ⟨side, .handlePacket r2 source later⟩).Concludes side := by
  obtain ⟨theirs, deadline, hheld, hholds⟩ := helects.held
  obtain ⟨secret, -, hanswers⟩ := hcrosses.exists_answers hfits
  have hreachable : Engine.Reachable (after.engine side) := by
    rw [helects.unchanged]
    exact hcrosses.reachable.advance hcrosses.isOpen now
  have hopen : (after.engine side).closed = false := by
    rw [helects.unchanged]
    exact hcrosses.isOpen
  have hfind : (after.engine side).table.find? (network.engine side.other).hit = some conn := by
    rw [helects.unchanged]
    exact hcrosses.find
  obtain ⟨hresult, -, done, hdone, hestablished⟩ := helects.confirms.concludes hfits (hextends side)
    hreachable hopen hfind hcrosses.awaits source later
  let event : Event := ⟨side, .handlePacket r2 source later⟩
  have hpeer : after.peer side = (network.engine side.other).hit := (hextends side.other).hit
  have hmine : ((after.step event).engine side).table.find? ((after.step event).peer side) =
      some done := by
    rw [show side = event.side from rfl, engine_step_self, peer_step, hpeer]
    exact hdone
  have htheirs : ((after.step event).engine side.other).table.find?
      ((after.step event).peer side.other) =
      some theirs := by
    rw [show side = event.side from rfl, engine_step_other, peer_step]
    exact hheld
  exact ⟨hresult, Engine.state?_of_find? hmine hestablished.state,
    Engine.state?_of_find? htheirs hholds.state, keys, _,
    Engine.keys?_of_find? hmine hestablished.keys,
    Engine.keys?_of_find? htheirs hholds.keys, ⟨rfl, rfl⟩, hanswers.1.isInitiator, rfl⟩

/-- If two hosts that fit together each wait for an R2 on a genuine R1 of the other, whose secret is
    still there, then the I2s of both are taken in either order: the host with the smaller HIT is
    left as it was, the other one answers with an R2 and waits for nothing any more, and the R2 ends
    the handshake for the first as the initiator, with the keys of the other. -/
theorem larger_hit_responds {source theirSource : Address} {now later : Nat} {events : List Event}
    (horder : events.Perm [⟨side, .handlePacket theirI2 source now⟩,
      ⟨side.other, .handlePacket i2 theirSource later⟩]) :
    ((network.engine side).handlePacket theirI2 source now).result = .ok () ∧
    ((network.engine side.other).handlePacket i2 theirSource later).result = .ok () ∧
    ∃ r2, network.Elects (network.run events) side now keys r2 ∧ ∀ origin time,
      (((network.run events).engine side).handlePacket r2 origin time).result = .ok () ∧
      ((network.run events).step ⟨side, .handlePacket r2 origin time⟩).Concludes side := by
  obtain ⟨r2, helects⟩ := elects_of_crosses hsmaller hfits hcrosses hother horder
  exact ⟨(hcrosses.ignores hother hfits hsmaller source now).1,
    (hcrosses.responds hother hfits hsmaller theirSource later).1, r2, helects,
    helects.concludes hfits hcrosses (network.continues_run events)⟩

end Collision

/-- Two sample hosts whose I2s cross, each on the R1 with which the other answered an I1. -/
theorem exists_larger_hit_responds : ∃ (network : Network) (side : Side) (keys : KeySet)
    (i2 theirI2 : List UInt8), (network.engine side).hit < (network.engine side.other).hit ∧
    (network.engine side).party.Fits (network.engine side.other).party ∧
    (∃ conn, (network.engine side).Crosses (network.engine side.other) conn keys i2) ∧
    (∃ theirs theirKeys,
      (network.engine side.other).Crosses (network.engine side) theirs theirKeys theirI2) ∧
    ∃ r2, network.Elects (network.run [⟨side.other, .handlePacket i2 side.other.remote 0⟩,
      ⟨side, .handlePacket theirI2 side.remote 0⟩]) side 0 keys r2 ∧
      ((network.run [⟨side.other, .handlePacket i2 side.other.remote 0⟩,
        ⟨side, .handlePacket theirI2 side.remote 0⟩]).step
        ⟨side, .handlePacket r2 side.remote 0⟩).Concludes side := by
  obtain ⟨left, right, -, -, hleft, hright, hless⟩ := SampleHost.exists_meets
  obtain ⟨leftCalls, rightCalls, ⟨conn, keys, i2, hcrosses⟩, theirs, theirKeys, theirI2, hother⟩ :=
    hleft.exists_crosses hright
  have hsmaller : (left.run leftCalls).hit < (right.run rightCalls).hit := by
    rw [(left.continues_run leftCalls).hit, (right.continues_run rightCalls).hit]
    exact hless
  have hfits : (left.run leftCalls).party.Fits (right.run rightCalls).party := by
    rw [(left.continues_run leftCalls).party, (right.continues_run rightCalls).party]
    exact hleft.compatible.fits
  let network := start (left.run leftCalls) (right.run rightCalls)
  obtain ⟨-, -, r2, helects, hconcludes⟩ := larger_hit_responds
    (show (network.engine .left).hit < (network.engine (Side.other .left)).hit from hsmaller) hfits
    hcrosses hother (List.Perm.swap (Event.mk .left (.handlePacket theirI2 Side.left.remote 0))
      ⟨.right, .handlePacket i2 Side.right.remote 0⟩ [])
  exact ⟨network, .left, keys, i2, theirI2, hsmaller, hfits, ⟨conn, hcrosses⟩,
    ⟨theirs, theirKeys, hother⟩, r2, helects, (hconcludes Side.left.remote 0).2⟩

end Network

end DietExchange
