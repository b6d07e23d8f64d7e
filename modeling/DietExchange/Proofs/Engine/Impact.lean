import DietExchange.Proofs.Connection.Draws
import DietExchange.Proofs.Engine.Bystander
import DietExchange.Proofs.Engine.Fresh

namespace DietExchange

/-- The timer after so many of those that wait have ended. -/
def Timer.calm (timer : Timer) (waiting ended : Nat) : Timer :=
  if 0 < ended ∧ waiting ≤ ended then timer.disarm else timer

theorem Timer.calm_calm (timer : Timer) (waiting first second : Nat) :
    (timer.calm waiting first).calm (waiting - first) second =
      timer.calm waiting (first + second) := by
  unfold calm
  split_ifs <;> first | rfl | omega

namespace Connection

variable {conn moved : Connection}

theorem start_not_mem_moveTo {next : State} (hnext : next.needsRetransmission = false)
    (hnone : .startRetransmission ∉ conn.outbox) :
      .startRetransmission ∉ (conn.moveTo next).outbox := by
  unfold moveTo sweepSignals
  rw [hnext]
  split
  · exact hnone
  · cases conn.state.needsRetransmission <;> simpa using hnone

/-- No packet makes a connection begin to send something again and again. -/
theorem Move.start_not_mem {ctx : Context} {packet : Packet}
    (hmove : conn.Move ctx (.packet packet) moved) (hnone : .startRetransmission ∉ conn.outbox) :
      .startRetransmission ∉ moved.outbox := by
  cases hmove with
  | ignore | takeUpR1 => exact hnone
  | answerI1 | resendR2 => simpa [transmit, emit] using hnone
  | answerI2AsI1 => exact start_not_mem_moveTo rfl (by simpa [transmit] using hnone)
  | answerI2 => exact start_not_mem_moveTo rfl (by simpa [transmit] using hnone)
  | acceptR2 =>
    have hquiet : .startRetransmission ∉ (conn.moveTo .established).outbox :=
      start_not_mem_moveTo rfl hnone
    simpa [emit] using hquiet

end Connection

/-- What a datagram makes of an engine. -/
structure Impact where
  /-- What is left of the random stream. -/
  rng : RandomStream
  /-- The connection that is kept. -/
  kept : Option Connection
  queued : List Outgoing
  told : List Hit
  /-- How often something is no longer sent again and again. -/
  ended : Nat

/-- Whether a datagram is read as an R1. -/
def Outgoing.IsR1 (out : Outgoing) : Prop :=
  ∃ packet, Packet.parse out.datagram = .ok packet ∧ packet.kind = .r1

/-- Whether there is anything in it that has to do with this peer. -/
def Impact.Touches (impact : Impact) (peer : Hit) : Prop :=
  (∃ conn, impact.kept = some conn ∧ conn.peer = peer) ∨ ∃ out ∈ impact.queued, out.IsFor peer

theorem Impact.filter_kept_of_spared {impact : Impact} {peer : Hit}
    (hspared : ¬impact.Touches peer) :
    (impact.kept.filter fun conn => conn.peer = peer) = none := by
  rw [Option.filter_eq_none_iff]
  intro conn hkept hpeer
  exact hspared (.inl ⟨conn, hkept, of_decide_eq_true hpeer⟩)

namespace Engine

section Definitions

variable (engine : Engine)

/-- The engine with another random stream. -/
def withRng (rng : RandomStream) : Engine := { engine with rng := rng }

/-- The connection that a packet of this peer works on. -/
def offered? (peer : Hit) (address : Address) : Option Connection :=
  match engine.table.find? peer with
  | some conn => some conn
  | none =>
    if engine.config.acceptUnsolicited = true ∧
      engine.connectionCount < engine.config.maxConnections then
      some (Connection.fresh engine.hit peer address)
    else none

/-- The turn that a datagram leads to, if it is not refused and there is a connection for it. -/
def turnFor (datagram : List UInt8) (source : Address) : Except Error (Option Turn) := do
  let packet ← Packet.parse datagram
  if packet.receiver ≠ engine.hit then throw .receiverMismatch
  match engine.offered? packet.sender source with
  | some conn => some <$> Turn.receive ⟨conn, engine.rng, []⟩ (engine.context engine.lastNow) packet
  | none => return none

/-- What a turn makes of the engine. A new connection of which nothing was made is not kept. -/
def impactOf : Except Error (Option Turn) → Impact
  | .ok (some turn) => {
      rng := turn.rng
      kept :=
        if engine.table.find? turn.conn.peer = none ∧ turn.conn.state = .unassociated then none
        else some turn.conn.settled
      queued := turn.conn.outgoing
      told := turn.conn.completions
      ended := turn.conn.outbox.count .stopRetransmission }
  | .ok none | .error _ => ⟨engine.rng, none, [], [], 0⟩

def impact (datagram : List UInt8) (source : Address) : Impact :=
  engine.impactOf (engine.turnFor datagram source)

/-- The engine with an impact on it. -/
def absorb (impact : Impact) : Engine := { engine with
  rng := impact.rng
  table := impact.kept.elim engine.table engine.table.put
  datagrams := engine.datagrams ++ impact.queued
  established := engine.established ++ impact.told
  retransmitting := engine.retransmitting - impact.ended
  retransmissionTimer := engine.retransmissionTimer.calm engine.retransmitting impact.ended }

end Definitions

variable {engine : Engine}

theorem absorb_nothing (engine : Engine) : engine.absorb ⟨engine.rng, none, [], [], 0⟩ =
    engine := by
  simp [absorb, Timer.calm]

theorem obeyAll_of_not_start (engine : Engine) (peer : Hit) (address : Address)
    {signals : List Signal} (hnone : .startRetransmission ∉ signals) :
      (engine.obeyAll peer address signals).1 = { engine with
      datagrams := engine.datagrams ++ signals.filterMap (Signal.outgoing? address)
      established := engine.established ++ signals.filterMap (Signal.completion? peer)
      retransmitting := engine.retransmitting - signals.count .stopRetransmission
      retransmissionTimer := engine.retransmissionTimer.calm engine.retransmitting
        (signals.count .stopRetransmission) } := by
  induction signals generalizing engine with
  | nil => simp [obeyAll, Timer.calm]
  | cons signal rest ih =>
    obtain ⟨hsignal, hrest⟩ := not_or.mp (List.mem_cons.not.mp hnone)
    change ((engine.obey peer address signal).1.obeyAll peer address rest).1 = _
    rw [ih _ hrest]
    cases signal with
    | startRetransmission => exact absurd rfl hsignal
    | transmit | connected => simp [obey, Signal.outgoing?, Signal.completion?, List.filterMap_cons]
    | stopRetransmission =>
      have hend : engine.endRetransmission.1 = { engine with
          retransmitting := engine.retransmitting - 1
          retransmissionTimer := engine.retransmissionTimer.calm engine.retransmitting 1 } := by
        unfold endRetransmission Timer.calm
        dsimp only
        split <;> split <;> first | rfl | omega
      simp only [obey, hend, Timer.calm_calm, Nat.sub_sub, List.count_cons_self, Nat.add_comm 1,
        Signal.outgoing?, Signal.completion?, List.filterMap_cons]

/-- What a packet that finds nothing left to ask for makes of an engine. -/
theorem deliver_eq_absorb (engine : Engine) (isNew : Bool) {conn : Connection} {packet : Packet}
    (hpeer : conn.peer = packet.sender) (houtbox : conn.outbox = [])
    (hnew : isNew = true ↔ engine.table.find? packet.sender = none) :
    let outcome :=
      some <$> Turn.receive ⟨conn, engine.rng, []⟩ (engine.context engine.lastNow) packet
    (engine.deliver conn isNew packet).result = outcome.map (fun _ => ()) ∧
      (engine.deliver conn isNew packet).engine = engine.absorb (engine.impactOf outcome) := by
  dsimp only
  cases hreceive : Turn.receive ⟨conn, engine.rng, []⟩ (engine.context engine.lastNow) packet with
  | error error =>
    unfold deliver
    rw [hreceive]
    exact ⟨rfl, (absorb_nothing engine).symm⟩
  | ok turn =>
    obtain ⟨hresult, hengine⟩ := engine.deliver_of_ok isNew hreceive
    have hmove := Turn.move_of_receive hreceive
    have hnone := hmove.start_not_mem (by simp [houtbox])
    have hobey :=
      obeyAll_of_not_start { engine with rng := turn.rng } turn.conn.peer turn.conn.address hnone
    have hmoved : turn.conn.peer = packet.sender := hmove.peer_eq.trans hpeer
    refine ⟨hresult, hengine.trans ?_⟩
    change _ = engine.absorb (engine.impactOf (.ok (some turn)))
    simp only [impactOf, hnew, hmoved]
    split
    · exact hobey
    · change { ({ engine with rng := turn.rng }.obeyAll turn.conn.peer turn.conn.address
        turn.conn.outbox).1 with table := ({ engine with rng := turn.rng }.obeyAll turn.conn.peer
        turn.conn.address turn.conn.outbox).1.table.put turn.conn.settled } = _
      rw [hobey]
      rfl

/-- What a packet for us makes of an engine whose connections have nothing left to ask for. -/
theorem accept_eq_absorb (engine : Engine)
    (hsettled : ∀ conn ∈ engine.table.connections, conn.outbox = []) (packet : Packet)
    (source : Address) :
    let outcome := match engine.offered? packet.sender source with
      | some conn =>
          some <$> Turn.receive ⟨conn, engine.rng, []⟩ (engine.context engine.lastNow) packet
      | none => .ok none
    (engine.accept packet source).result = outcome.map (fun _ => ()) ∧
      (engine.accept packet source).engine = engine.absorb (engine.impactOf outcome) := by
  unfold accept offered?
  cases hfind : engine.table.find? packet.sender with
  | some conn =>
    obtain ⟨hmem, hpeer⟩ := ConnectionTable.find?_eq_some_iff.mp hfind
    have hknown : false = true ↔ engine.table.find? packet.sender = none := by simp [hfind]
    exact engine.deliver_eq_absorb false hpeer (hsettled conn hmem) hknown
  | none =>
    have hnew : true = true ↔ engine.table.find? packet.sender = none := by simp [hfind]
    have hnothing := (absorb_nothing engine).symm
    dsimp only
    by_cases haccepts : engine.config.acceptUnsolicited = true
    · by_cases hroom : engine.connectionCount < engine.config.maxConnections
      · rw [if_neg (by simp [haccepts]), if_neg (Nat.not_le.mpr hroom), if_pos ⟨haccepts, hroom⟩]
        exact engine.deliver_eq_absorb true rfl rfl hnew
      · rw [if_neg (by simp [haccepts]), if_pos (Nat.not_lt.mp hroom), if_neg fun h => hroom h.2]
        exact ⟨rfl, hnothing⟩
    · rw [if_pos (by simpa using haccepts), if_neg fun h => haccepts h.1]
      exact ⟨rfl, hnothing⟩

theorem offers_of_offered? {peer : Hit} {address : Address} {conn : Connection}
    (hoffered : engine.offered? peer address = some conn) : engine.Offers peer address conn := by
  unfold offered? at hoffered
  split at hoffered
  · rename_i hfind
    exact .inl (hfind.trans hoffered)
  · rename_i hnone
    split at hoffered
    · rename_i hroom
      exact .inr ⟨hnone, hroom.2, (Option.some.inj hoffered).symm⟩
    · cases hoffered

variable {datagram : List UInt8} {source : Address}

theorem turnFor_of_error {error : Error} (hparse : Packet.parse datagram = .error error) :
    engine.turnFor datagram source = .error error := by
  unfold turnFor
  rw [hparse]
  rfl

theorem turnFor_of_ne {packet : Packet} (hparse : Packet.parse datagram = .ok packet)
    (hreceiver : packet.receiver ≠ engine.hit) :
    engine.turnFor datagram source = .error .receiverMismatch := by
  unfold turnFor
  rw [hparse]
  change (if packet.receiver ≠ engine.hit then _ else _) = _
  rw [if_pos hreceiver]
  rfl

theorem turnFor_of_eq {packet : Packet} (hparse : Packet.parse datagram = .ok packet)
    (hreceiver : packet.receiver = engine.hit) : engine.turnFor datagram source =
      match engine.offered? packet.sender source with
      | some conn =>
          some <$> Turn.receive ⟨conn, engine.rng, []⟩ (engine.context engine.lastNow) packet
      | none => .ok none := by
  unfold turnFor
  rw [hparse]
  change (if packet.receiver ≠ engine.hit then _ else _) = _
  rw [if_neg (not_not_intro hreceiver)]
  cases engine.offered? packet.sender source <;> rfl

/-- A turn comes of a packet for us, on a connection with its sender. -/
theorem exists_receive_of_turnFor {turn : Turn}
    (hturn : engine.turnFor datagram source = .ok (some turn)) :
    ∃ packet conn, Packet.parse datagram = .ok packet ∧ engine.Offers packet.sender source conn ∧
      Turn.receive ⟨conn, engine.rng, []⟩ (engine.context engine.lastNow) packet = .ok turn := by
  cases hparse : Packet.parse datagram with
  | error error => cases (turnFor_of_error hparse).symm.trans hturn
  | ok packet =>
    by_cases hreceiver : packet.receiver = engine.hit
    · rw [turnFor_of_eq hparse hreceiver] at hturn
      cases hoffered : engine.offered? packet.sender source with
      | none =>
        rw [hoffered] at hturn
        cases hturn
      | some conn =>
        rw [hoffered] at hturn
        dsimp only at hturn
        cases hreceive : Turn.receive ⟨conn, engine.rng, []⟩ (engine.context engine.lastNow)
          packet with
        | error error =>
          rw [hreceive] at hturn
          cases hturn
        | ok received =>
          rw [hreceive] at hturn
          cases hturn
          exact ⟨packet, conn, rfl, offers_of_offered? hoffered, hreceive⟩
    · cases (turnFor_of_ne hparse hreceiver).symm.trans hturn

/-- A datagram that is handled has its impact on the engine, and nothing else does. -/
theorem handlePacket_eq_absorb (hreachable : Reachable engine) (hopen : engine.closed = false)
    (datagram : List UInt8) (source : Address) (now : Nat) :
    (engine.handlePacket datagram source now).result =
        ((engine.advance now).turnFor datagram source).map (fun _ => ()) ∧
      (engine.handlePacket datagram source now).engine =
        (engine.advance now).absorb ((engine.advance now).impact datagram source) := by
  unfold impact
  cases hparse : Packet.parse datagram with
  | error error =>
    rw [turnFor_of_error hparse]
    unfold handlePacket
    rw [hopen, if_neg Bool.false_ne_true, hparse]
    exact ⟨rfl, (absorb_nothing _).symm⟩
  | ok packet =>
    by_cases hreceiver : packet.receiver = engine.hit
    · have hours : packet.receiver = (engine.advance now).hit := hreceiver
      rw [handlePacket_eq_accept hopen hparse hreceiver, turnFor_of_eq hparse hours]
      exact (engine.advance now).accept_eq_absorb (fun _ hmem => hreachable.outbox_eq_nil hmem)
        packet source
    · have hother : packet.receiver ≠ (engine.advance now).hit := hreceiver
      rw [turnFor_of_ne hparse hother]
      unfold handlePacket
      rw [hopen, if_neg Bool.false_ne_true, hparse]
      dsimp only
      rw [if_pos hother]
      exact ⟨rfl, (absorb_nothing _).symm⟩

/-- A datagram is refused by every engine of a host alike, or it is a packet for the host. -/
theorem turnFor_cases (engine : Engine) (datagram : List UInt8) (source : Address) :
    (∃ error, ∀ other : Engine, other.hit = engine.hit → other.turnFor datagram source =
      .error error) ∨
    ∃ packet, Packet.parse datagram = .ok packet ∧ ∀ other : Engine, other.hit = engine.hit →
      other.turnFor datagram source = match other.offered? packet.sender source with
        | some conn =>
            some <$> Turn.receive ⟨conn, other.rng, []⟩ (other.context other.lastNow) packet
        | none => .ok none := by
  cases hparse : Packet.parse datagram with
  | error error => exact .inl ⟨error, fun _ _ => turnFor_of_error hparse⟩
  | ok packet =>
    by_cases hreceiver : packet.receiver = engine.hit
    · exact .inr ⟨packet, rfl, fun _ hhit => turnFor_of_eq hparse (hreceiver.trans hhit.symm)⟩
    · exact .inl ⟨_, fun _ hhit => turnFor_of_ne hparse fun heq => hreceiver (heq.trans hhit)⟩

/-- The turn depends on no connection but the sender's, and on the others only in that there is
    room. -/
theorem turnFor_congr {other : Engine} (hsame : SameHost engine other)
    (hfind : ∀ packet, Packet.parse datagram = .ok packet →
      other.table.find? packet.sender = engine.table.find? packet.sender)
    (hroom : other.connectionCount < engine.config.maxConnections ↔
      engine.connectionCount < engine.config.maxConnections) :
    other.turnFor datagram source = (engine.withRng other.rng).turnFor datagram source := by
  have hhit : other.hit = engine.hit := congrArg HostIdentity.hit hsame.identity
  rcases engine.turnFor_cases datagram source with ⟨error, hrefused⟩ | ⟨packet, hparse, hturn⟩
  · rw [hrefused other hhit, hrefused (engine.withRng other.rng) rfl]
  · have hoffered : other.offered? packet.sender source =
        (engine.withRng other.rng).offered? packet.sender source := by
      unfold offered?
      rw [hfind packet hparse, hsame.config, hhit]
      simp only [hroom]
      rfl
    rw [hturn other hhit, hturn (engine.withRng other.rng) rfl, hoffered, hsame.lastNow,
      hsame.context_eq]
    rfl

/-- Whether a datagram draws nothing of the random stream: it leads to the same whatever the stream
    is. -/
def DrawsNothing (engine : Engine) (datagram : List UInt8) (source : Address) : Prop :=
  ∀ rng, (engine.withRng rng).turnFor datagram source =
    (engine.turnFor datagram source).map (Option.map (Turn.withRng rng))

/-- The turn is the same whatever the random stream is, unless the datagram is answered with an
    R1. -/
theorem turnFor_withRng (engine : Engine) (hkey : engine.identity.HasCurveKey)
    (datagram : List UInt8) (source : Address) : engine.DrawsNothing datagram source ∨
    ∃ turn, engine.turnFor datagram source = .ok (some turn) ∧ ∃ out ∈ turn.conn.outgoing,
      out.IsR1 := by
  rcases engine.turnFor_cases datagram source with ⟨error, hrefused⟩ | ⟨packet, -, hturn⟩
  · left
    intro rng
    rw [hrefused (engine.withRng rng) rfl, hrefused engine rfl]
    rfl
  cases hoffered : engine.offered? packet.sender source with
  | none =>
    left
    intro rng
    rw [hturn (engine.withRng rng) rfl, hturn engine rfl, hoffered,
      show (engine.withRng rng).offered? packet.sender source = none from hoffered]
    rfl
  | some conn =>
    let receives := fun rng => Turn.receive ⟨conn, rng, []⟩ (engine.context engine.lastNow) packet
    have hturns : ∀ rng, (engine.withRng rng).turnFor datagram source = some <$> receives rng := by
      intro rng
      rw [hturn (engine.withRng rng) rfl,
        show (engine.withRng rng).offered? packet.sender source = some conn from hoffered]
      rfl
    have hplain : engine.turnFor datagram source = some <$> receives engine.rng := hturns engine.rng
    by_cases hsteady : ∀ rng, receives rng = (receives engine.rng).map (Turn.withRng rng)
    · left
      intro rng
      rw [hturns rng, hplain, hsteady rng]
      cases receives engine.rng <;> rfl
    · obtain ⟨rng, hdraws⟩ := not_forall.mp hsteady
      obtain ⟨after, challenge, cookie, r1, hreceive, hencode, hsent⟩ :=
        (Turn.receive_withRng ⟨conn, engine.rng, []⟩ rng (engine.context engine.lastNow) packet
          hkey).resolve_left hdraws
      have hout : ⟨after.conn.address, r1⟩ ∈ after.conn.outgoing :=
        Connection.mem_outgoing_iff.mpr ⟨rfl, hsent⟩
      refine .inr ⟨after, ?_, _, hout, _, Context.parse_r1 hkey hencode, rfl⟩
      rw [hplain, show receives engine.rng = .ok after from hreceive]
      rfl

theorem find?_absorb (engine : Engine) (impact : Impact) (peer : Hit) :
    (engine.absorb impact).table.find? peer =
      (impact.kept.filter fun conn => conn.peer = peer).or (engine.table.find? peer) := by
  unfold absorb
  cases impact.kept with
  | none => rfl
  | some conn =>
    refine (ConnectionTable.find?_put _ _ _).trans ?_
    by_cases hpeer : conn.peer = peer <;> simp [hpeer, Option.filter_some]

/-- An impact leaves the connections with those whom it does not touch. -/
theorem find?_absorb_of_spared (engine : Engine) {impact : Impact} {peer : Hit}
    (hspared : ¬impact.Touches peer) :
    (engine.absorb impact).table.find? peer = engine.table.find? peer := by
  rw [find?_absorb, Impact.filter_kept_of_spared hspared, Option.none_or]

theorem connectionCount_absorb_le (engine : Engine) (impact : Impact) :
    (engine.absorb impact).connectionCount ≤ engine.connectionCount + 1 := by
  unfold absorb connectionCount
  cases impact.kept with
  | none => exact Nat.le_succ _
  | some conn => exact ConnectionTable.size_put_le _ _

theorem impactOf_congr {other : Engine} {outcome : Except Error (Option Turn)}
    (hfind : ∀ turn, outcome = .ok (some turn) →
      other.table.find? turn.conn.peer = engine.table.find? turn.conn.peer) :
    other.impactOf outcome = (engine.withRng other.rng).impactOf outcome := by
  rcases outcome with error | _ | turn
  · rfl
  · rfl
  · unfold impactOf
    dsimp only
    simp only [hfind turn rfl]
    rfl

/-- What has an impact on others only does not change what a datagram leads to, but for the random
    stream. -/
theorem turnFor_absorb {impact : Impact}
    (hroom : engine.connectionCount + 2 ≤ engine.config.maxConnections)
    (hspared : ∀ packet, Packet.parse datagram = .ok packet → ¬impact.Touches packet.sender) :
    (engine.absorb impact).turnFor datagram source =
      (engine.withRng impact.rng).turnFor datagram source := by
  have hsame : SameHost engine (engine.absorb impact) := ⟨rfl, rfl, rfl, rfl, rfl, rfl⟩
  have hcount := engine.connectionCount_absorb_le impact
  refine turnFor_congr hsame (fun packet hparse =>
    engine.find?_absorb_of_spared (hspared packet hparse)) ?_
  constructor <;> intro _ <;> omega

theorem impact_absorb {impact : Impact}
    (hroom : engine.connectionCount + 2 ≤ engine.config.maxConnections)
    (hspared : ∀ packet, Packet.parse datagram = .ok packet → ¬impact.Touches packet.sender) :
    (engine.absorb impact).impact datagram source =
      (engine.withRng impact.rng).impact datagram source := by
  unfold Engine.impact
  rw [turnFor_absorb hroom hspared]
  refine impactOf_congr fun turn hturn => engine.find?_absorb_of_spared ?_
  obtain ⟨packet, conn, hparse, hoffers, hreceive⟩ := exists_receive_of_turnFor hturn
  rw [(Turn.move_of_receive hreceive).peer_eq.trans hoffers.peer_eq]
  exact hspared packet hparse

theorem DrawsNothing.impact_withRng (hnothing : engine.DrawsNothing datagram source)
    (rng : RandomStream) :
    (engine.withRng rng).impact datagram source =
      { engine.impact datagram source with rng := rng } := by
  unfold impact
  rw [hnothing rng]
  rcases engine.turnFor datagram source with _ | _ | _ <;> rfl

theorem DrawsNothing.rng_impact (hnothing : engine.DrawsNothing datagram source) :
    (engine.impact datagram source).rng = engine.rng :=
  congrArg Impact.rng (hnothing.impact_withRng engine.rng)

/-- A datagram has an impact on its sender only. -/
theorem sender_of_touches (hreachable : Reachable engine) (hkey : engine.identity.HasCurveKey)
    {peer : Hit} (htouches : (engine.impact datagram source).Touches peer) :
    ∃ packet, Packet.parse datagram = .ok packet ∧ packet.sender = peer := by
  unfold impact at htouches
  cases hturn : engine.turnFor datagram source with
  | error error =>
    rw [hturn] at htouches
    simp [impactOf, Impact.Touches] at htouches
  | ok found =>
    cases found with
    | none =>
      rw [hturn] at htouches
      simp [impactOf, Impact.Touches] at htouches
    | some turn =>
      obtain ⟨packet, conn, hparse, hoffers, hreceive⟩ := exists_receive_of_turnFor hturn
      have hmove := Turn.move_of_receive hreceive
      have hkept : engine.Kept conn := hoffers.preserves (fun _ hmem => hreachable.kept hkey hmem)
        (fun _ _ => engine.kept_fresh _ _)
      refine ⟨packet, hparse, ?_⟩
      rw [hturn] at htouches
      rcases htouches with ⟨kept, hkeeps, rfl⟩ | ⟨out, hout, hfor⟩
      · simp only [impactOf, ite_eq_iff, reduceCtorEq, and_false, false_or,
          Option.some.injEq] at hkeeps
        rw [← hkeeps.2]
        exact (hmove.peer_eq.trans hoffers.peer_eq).symm
      · exact hoffers.peer_eq.symm.trans (hkept.peer_of_move rfl hkey hmove hout hfor).symm

end Engine

end DietExchange
