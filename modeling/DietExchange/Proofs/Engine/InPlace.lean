import DietExchange.Proofs.Connection.InPlace
import DietExchange.Proofs.Engine.Fresh

/-!
Calls on an engine in place. `Engine.handlePacket` and `Engine.connect` make a new engine of an
old one and could forget what a refused turn had done. Here the same calls change the table, the
random stream and the queues as they go: a connection with a new peer is in the table before its
packet is looked at, its steps are not taken back when one of them fails, and what it asks for is
done in either case.
-/

namespace DietExchange

namespace ConnectionTable

/-- The table without the connection with a peer. -/
def remove (table : ConnectionTable) (peer : Hit) : ConnectionTable where
  connections := table.connections.filter fun conn => conn.peer ≠ peer
  nodup := table.nodup.sublist (List.filter_sublist.map _)

variable {table : ConnectionTable} {conn : Connection}

/-- A connection that was put in for a new peer can be taken out again. -/
theorem remove_put (hnone : table.find? conn.peer = none) : (table.put conn).remove conn.peer =
    table := by
  have hmem : conn.peer ∉ table.connections.map Connection.peer := by
    intro hmem
    have hsome : (table.find? conn.peer).isSome := find?_isSome_iff.mpr hmem
    rw [hnone] at hsome
    cases hsome
  have hothers : table.connections.filter (fun old => old.peer ≠ conn.peer) =
      table.connections := by
    refine List.filter_eq_self.mpr fun old hold => ?_
    simp only [decide_eq_true_eq]
    exact fun hsame => hmem (hsame ▸ List.mem_map_of_mem hold)
  apply eq_of_connections
  simp only [remove]
  rw [connections_put_of_not_mem hmem, List.filter_append, hothers]
  simp

end ConnectionTable

namespace Engine

/-- Do what the connection with a peer asks for, if there is one. -/
def drainSignals (engine : Engine) (peer : Hit) : Engine × List Log.Event :=
  match engine.table.find? peer with
  | some conn => engine.settle conn
  | none => (engine, [])

/-- Take steps on the connection with a peer, which stays in the table meanwhile, and do what it
    asks for then. Both happen whatever the steps end in. -/
def stepInPlace (engine : Engine) (peer : Hit) (steps : Context → Steps Unit) : Reply :=
  match engine.table.find? peer with
  | some conn =>
    let (result, turn) := (steps (engine.context engine.lastNow)).runOn ⟨conn, engine.rng, []⟩
    let (engine, log) :=
      { engine with table := engine.table.put turn.conn, rng := turn.rng }.drainSignals peer
    ⟨result, engine, turn.log ++ log⟩
  | none => ⟨.ok (), engine, []⟩

/-- Hand a packet to the connection with its sender. One that is new and still UNASSOCIATED is taken
    out of the table again. -/
def dispatchInPlace (engine : Engine) (isNew : Bool) (packet : Packet) : Reply :=
  let reply := engine.stepInPlace packet.sender fun ctx => Steps.receive ctx packet
  let kept :=
    if isNew && reply.engine.state? packet.sender == some .unassociated then
      { reply.engine with table := reply.engine.table.remove packet.sender }
    else reply.engine
  let dropped := match reply.result with
    | .error error => [.dropped packet.kind packet.sender error]
    | .ok () => []
  ⟨reply.result, kept, reply.log ++ dropped⟩

/-- Take a packet that is addressed to us, in place. A connection with a new peer is put into the
    table before its packet is looked at. -/
def acceptInPlace (engine : Engine) (packet : Packet) (source : Address) : Reply :=
  if (engine.table.find? packet.sender).isSome then
    engine.dispatchInPlace false packet
  else if !engine.config.acceptUnsolicited then
    ⟨.ok (), engine, [.unsolicited packet.kind packet.sender]⟩
  else if engine.config.maxConnections ≤ engine.connectionCount then
    ⟨.ok (), engine, [.tableFull packet.kind packet.sender]⟩
  else
    let conn := Connection.fresh engine.hit packet.sender source
    { engine with table := engine.table.put conn }.dispatchInPlace true packet

/-- Take a datagram, in place. -/
def handlePacketInPlace (engine : Engine) (datagram : List UInt8) (source : Address) (now : Nat) :
    Reply :=
  if engine.closed then
    ⟨.error (.usage .closed), engine, []⟩
  else
    let engine := engine.advance now
    match Packet.parse datagram with
    | .error error => ⟨.error error, engine, [.malformed source error]⟩
    | .ok packet =>
      if packet.receiver ≠ engine.hit then
        ⟨.error .receiverMismatch, engine, [.misdirected packet.kind source packet.receiver]⟩
      else
        engine.acceptInPlace packet source

/-- Begin a handshake, in place. A connection that is put into the table for it is not taken out
    again. -/
def connectInPlace (engine : Engine) (peer : Hit) (address : Address) (now : Nat) : Reply :=
  if engine.closed then
    ⟨.error (.usage .closed), engine, []⟩
  else
    let engine := engine.advance now
    if peer = engine.hit then
      ⟨.error (.usage .ownHit), engine, []⟩
    else if (engine.table.find? peer).isSome then
      engine.stepInPlace peer Steps.initiate
    else if engine.config.maxConnections ≤ engine.connectionCount then
      ⟨.error (.usage .tableFull), engine, []⟩
    else
      let conn := Connection.fresh engine.hit peer address
      { engine with table := engine.table.put conn }.stepInPlace peer Steps.initiate

section Settle

variable {engine : Engine} {conn : Connection}

/-- What a connection asks for has nothing to do with the table. -/
theorem obeyAll_table (engine : Engine) (table : ConnectionTable) (peer : Hit) (address : Address)
    (signals : List Signal) : { engine with table := table }.obeyAll peer address signals =
      ({ (engine.obeyAll peer address signals).1 with table := table },
        (engine.obeyAll peer address signals).2) := by
  induction signals generalizing engine with
  | nil => rfl
  | cons signal rest ih =>
    have hone : { engine with table := table }.obey peer address signal =
        ({ (engine.obey peer address signal).1 with table := table },
          (engine.obey peer address signal).2) := by
      cases signal with
      | transmit | connected => rfl
      | startRetransmission =>
        simp only [obey, beginRetransmission]
        split <;> rfl
      | stopRetransmission =>
        simp only [obey, endRetransmission]
        split <;> rfl
    simp only [obeyAll, hone, ih]

/-- Whether an older form of a connection is in the table when it is settled makes no difference. -/
theorem settle_put (engine : Engine) {old : Connection} (hpeer : conn.peer = old.peer) :
    { engine with table := engine.table.put old }.settle conn = engine.settle conn := by
  simp only [settle, obeyAll_table, table_obeyAll]
  rw [ConnectionTable.put_put _ (show { conn with outbox := [] }.peer = old.peer from hpeer)]

/-- A connection in the table that asks for nothing is settled already. -/
theorem settle_of_find? (hfind : engine.table.find? conn.peer = some conn)
    (houtbox : conn.outbox = []) : engine.settle conn = (engine, []) := by
  have hsettled : ({ conn with outbox := [] } : Connection) = conn := by rw [← houtbox]
  simp only [settle, hsettled, houtbox, obeyAll, ConnectionTable.put_of_find? hfind]

theorem state?_settle (engine : Engine) (conn : Connection) :
    (engine.settle conn).1.state? conn.peer = some conn.state := by
  rw [state?, table_settle, ConnectionTable.find?_put, if_pos conn.peer_settled]
  rfl

/-- To settle a connection with a new peer and take it out of the table again is to forget it. -/
theorem remove_settle (hnone : engine.table.find? conn.peer = none) :
    { (engine.settle conn).1 with table := (engine.settle conn).1.table.remove conn.peer } =
      (engine.forget conn).1 := by
  have hremove : (engine.settle conn).1.table.remove conn.peer = (engine.forget conn).1.table := by
    rw [table_settle, forget, table_obeyAll]
    exact @ConnectionTable.remove_put _ conn.settled hnone
  rw [hremove]
  rfl

end Settle

section Step

variable {engine : Engine} {conn : Connection} {peer : Hit} {steps : Context → Steps Unit}
  (hfind : engine.table.find? peer = some conn)
include hfind

theorem drainSignals_of_find? : engine.drainSignals peer = engine.settle conn := by
  rw [drainSignals, hfind]

/-- Steps that fail and leave the turn as it was leave the engine as it was. -/
theorem stepInPlace_of_error (houtbox : conn.outbox = []) {error : Error}
    (hrealize : (steps (engine.context engine.lastNow)).Realize ⟨conn, engine.rng,
      []⟩ (.error error)) : engine.stepInPlace peer steps = ⟨.error error, engine, []⟩ := by
  have hpeer := ConnectionTable.peer_of_find? hfind
  rw [stepInPlace, hfind]
  dsimp only
  rw [hrealize]
  dsimp only
  rw [ConnectionTable.put_of_find? (hpeer ▸ hfind), drainSignals_of_find? hfind,
    settle_of_find? (hpeer ▸ hfind) houtbox]
  rfl

theorem stepInPlace_of_ok {turn : Turn}
    (hrealize : (steps (engine.context engine.lastNow)).Realize ⟨conn, engine.rng, []⟩ (.ok turn))
    (hpeer : turn.conn.peer = peer) :
    engine.stepInPlace peer steps = ⟨.ok (), ({ engine with rng := turn.rng }.settle turn.conn).1,
      turn.log ++ ({ engine with rng := turn.rng }.settle turn.conn).2⟩ := by
  let stepped : Engine := { engine with rng := turn.rng, table := engine.table.put turn.conn }
  have hput : stepped.table.find? peer = some turn.conn := by
    rw [ConnectionTable.find?_put, if_pos hpeer]
  have hdrain : stepped.drainSignals peer = { engine with rng := turn.rng }.settle turn.conn :=
    (drainSignals_of_find? hput).trans (settle_put { engine with rng := turn.rng } rfl)
  rw [stepInPlace, hfind, ← hdrain]
  dsimp only
  rw [hrealize]

theorem stepInPlace_initiate (houtbox : conn.outbox = []) :
    engine.stepInPlace peer Steps.initiate = engine.initiate conn := by
  have hrealize := Steps.realize_initiate ⟨conn, engine.rng, []⟩ (engine.context engine.lastNow)
  unfold initiate
  cases hinitiate : Turn.initiate ⟨conn, engine.rng, []⟩ (engine.context engine.lastNow) with
  | error error =>
    rw [hinitiate] at hrealize
    exact stepInPlace_of_error hfind houtbox hrealize
  | ok turn =>
    rw [hinitiate] at hrealize
    have hpeer : turn.conn.peer = peer :=
      (Turn.move_of_initiate hinitiate).peer_eq.trans (ConnectionTable.peer_of_find? hfind)
    exact stepInPlace_of_ok hfind hrealize hpeer

end Step

section Dispatch

variable {engine : Engine} {conn : Connection} {packet : Packet}

theorem dispatchInPlace_known (hkey : engine.identity.HasCurveKey)
    (hfind : engine.table.find? packet.sender = some conn) (houtbox : conn.outbox = []) :
    engine.dispatchInPlace false packet = engine.deliver conn false packet := by
  have hrealize := Steps.realize_receive ⟨conn, engine.rng, []⟩ (engine.context engine.lastNow) hkey
    packet
  unfold dispatchInPlace deliver
  cases hreceive : Turn.receive ⟨conn, engine.rng, []⟩ (engine.context engine.lastNow) packet with
  | error error =>
    rw [hreceive] at hrealize
    rw [stepInPlace_of_error hfind houtbox hrealize]
    rfl
  | ok turn =>
    rw [hreceive] at hrealize
    have hpeer : turn.conn.peer = packet.sender :=
      (Turn.move_of_receive hreceive).peer_eq.trans (ConnectionTable.peer_of_find? hfind)
    rw [stepInPlace_of_ok hfind hrealize hpeer]
    simp

/-- A connection that was put into the table for a packet is taken out again if the packet was
    refused or made nothing of it. -/
theorem dispatchInPlace_new (hkey : engine.identity.HasCurveKey)
    (hsender : conn.peer = packet.sender) (hnone : engine.table.find? conn.peer = none)
    (hstate : conn.state = .unassociated) (houtbox : conn.outbox = []) :
    { engine with table := engine.table.put conn }.dispatchInPlace true packet =
      engine.deliver conn true packet := by
  let held : Engine := { engine with table := engine.table.put conn }
  have hfind : held.table.find? packet.sender = some conn := by
    rw [ConnectionTable.find?_put, if_pos hsender]
  have hrealize :=
    Steps.realize_receive ⟨conn, held.rng, []⟩ (held.context held.lastNow) hkey packet
  change held.dispatchInPlace true packet = _
  unfold dispatchInPlace deliver
  cases hreceive : Turn.receive ⟨conn, engine.rng, []⟩ (engine.context engine.lastNow) packet with
  | error error =>
    rw [show Turn.receive ⟨conn, held.rng, []⟩ (held.context held.lastNow) packet = .error error
      from hreceive] at hrealize
    have hkept : held.state? packet.sender = some .unassociated := by
      rw [state?, hfind, ← hstate]
      rfl
    have hremove : { held with table := held.table.remove packet.sender } = engine := by
      rw [← hsender, show held.table.remove conn.peer =
        engine.table from ConnectionTable.remove_put hnone]
    rw [stepInPlace_of_error hfind houtbox hrealize]
    simp [hkept, hremove]
  | ok turn =>
    rw [show Turn.receive ⟨conn, held.rng, []⟩ (held.context held.lastNow) packet = .ok turn
      from hreceive] at hrealize
    have hpeer : turn.conn.peer = conn.peer := (Turn.move_of_receive hreceive).peer_eq
    rw [stepInPlace_of_ok hfind hrealize (hpeer.trans hsender)]
    have hput : { held with rng := turn.rng }.settle turn.conn =
        { engine with rng := turn.rng }.settle turn.conn :=
          settle_put { engine with rng := turn.rng } hpeer
    rw [hput]
    dsimp only
    rw [← hsender, ← hpeer, state?_settle]
    by_cases hunmoved : turn.conn.state = .unassociated
    · have hforget := @remove_settle { engine with rng := turn.rng } turn.conn (hpeer ▸ hnone)
      simp only [hunmoved, hforget, Bool.true_and, beq_self_eq_true, if_true, List.append_nil]
      rfl
    · simp [hunmoved]

/-- A connection that was put into the table for a handshake is not left behind: to begin one on it
    never fails. -/
theorem stepInPlace_initiate_new (hstate : conn.state = .unassociated)
    (houtbox : conn.outbox = []) :
    { engine with table := engine.table.put conn }.stepInPlace conn.peer Steps.initiate =
      engine.initiate conn := by
  let held : Engine := { engine with table := engine.table.put conn }
  have hfind : held.table.find? conn.peer = some conn := by
    rw [ConnectionTable.find?_put, if_pos rfl]
  obtain ⟨turn, hturn⟩ := Turn.exists_initiate ⟨conn, engine.rng, []⟩
    (engine.context engine.lastNow) hstate
  have hput : { held with rng := turn.rng }.settle turn.conn =
      { engine with rng := turn.rng }.settle turn.conn :=
    settle_put { engine with rng := turn.rng } (Turn.move_of_initiate hturn).peer_eq
  rw [stepInPlace_initiate hfind houtbox]
  unfold initiate
  rw [hturn, show Turn.initiate ⟨conn, held.rng, []⟩ (held.context held.lastNow) =
    .ok turn from hturn]
  dsimp only
  rw [hput]

end Dispatch

section Calls

variable {engine : Engine}

theorem acceptInPlace_eq (engine : Engine)
    (houtbox : ∀ conn ∈ engine.table.connections, conn.outbox = [])
    (hkey : engine.identity.HasCurveKey) (packet : Packet) (source : Address) :
    engine.acceptInPlace packet source = engine.accept packet source := by
  unfold acceptInPlace accept
  cases hfind : engine.table.find? packet.sender with
  | some conn =>
    exact dispatchInPlace_known hkey hfind
      (houtbox conn (ConnectionTable.find?_eq_some_iff.mp hfind).1)
  | none =>
    rw [Option.isSome_none, if_neg Bool.false_ne_true]
    dsimp only
    rw [dispatchInPlace_new hkey rfl hfind rfl rfl]

theorem handlePacketInPlace_eq (hreachable : engine.Reachable) (hkey : engine.identity.HasCurveKey)
    (datagram : List UInt8) (source : Address) (now : Nat) :
    engine.handlePacketInPlace datagram source now = engine.handlePacket datagram source now := by
  have haccept : ∀ packet, (engine.advance now).acceptInPlace packet source =
      (engine.advance now).accept packet source := by
    intro packet
    exact acceptInPlace_eq (engine.advance now) (fun _ => hreachable.outbox_eq_nil) hkey
      packet source
  simp only [handlePacketInPlace, haccept]
  rfl

theorem connectInPlace_eq (hreachable : engine.Reachable) (peer : Hit) (address : Address)
    (now : Nat) : engine.connectInPlace peer address now = engine.connect peer address now := by
  unfold connectInPlace connect
  dsimp only
  cases hfind : (engine.advance now).table.find? peer with
  | some conn =>
    have houtbox := hreachable.outbox_eq_nil (ConnectionTable.find?_eq_some_iff.mp hfind).1
    rw [Option.isSome_some, if_pos rfl, stepInPlace_initiate hfind houtbox]
  | none =>
    rw [Option.isSome_none, if_neg Bool.false_ne_true]
    have hinitiate := @stepInPlace_initiate_new (engine.advance now)
      (Connection.fresh (engine.advance now).hit peer address) rfl rfl
    dsimp only
    rw [← hinitiate]
    rfl

/-- A handshake that cannot be begun changes nothing but the time. -/
theorem connect_eq_advance_of_error {peer : Hit} {address : Address} {now : Nat} {error : Error}
    (hopen : engine.closed = false) (hrefused : (engine.connect peer address now).result =
      .error error) : (engine.connect peer address now).engine = engine.advance now := by
  have hinitiate : ∀ conn, ((engine.advance now).initiate conn).result = .error error →
      ((engine.advance now).initiate conn).engine = engine.advance now := by
    intro conn hinitiate
    unfold initiate at hinitiate ⊢
    split at hinitiate
    · rfl
    · cases hinitiate
  unfold connect at hrefused ⊢
  rw [hopen, if_neg Bool.false_ne_true] at hrefused ⊢
  dsimp only at hrefused ⊢
  split
  · rfl
  · rename_i hother
    rw [if_neg hother] at hrefused
    split at hrefused
    · exact hinitiate _ hrefused
    · split at hrefused
      · rename_i hfull
        rw [if_pos hfull]
      · rename_i hroom
        rw [if_neg hroom]
        exact hinitiate _ hrefused

/-- A datagram that is refused, and a handshake that cannot be begun, leave no trace on an open
    engine but the time, even though the calls work on it in place and take nothing back. -/
theorem refusal_leaves_no_trace (hreachable : engine.Reachable) (hopen : engine.closed = false)
    (hkey : engine.identity.HasCurveKey) (now : Nat) :
    (∀ datagram source,
      engine.handlePacketInPlace datagram source now = engine.handlePacket datagram source now ∧
      ∀ error, (engine.handlePacketInPlace datagram source now).result = .error error →
        (engine.handlePacketInPlace datagram source now).engine = engine.advance now) ∧
    (∀ peer address,
      engine.connectInPlace peer address now = engine.connect peer address now ∧
      ∀ error, (engine.connectInPlace peer address now).result = .error error →
        (engine.connectInPlace peer address now).engine = engine.advance now) := by
  constructor
  · intro datagram source
    rw [handlePacketInPlace_eq hreachable hkey]
    exact ⟨rfl, fun error => handlePacket_eq_advance_of_error hopen⟩
  · intro peer address
    rw [connectInPlace_eq hreachable]
    exact ⟨rfl, fun error => connect_eq_advance_of_error hopen⟩

/-- An R1 without a puzzle for a sample host that waits for one, and a second connect to the same
    peer: both are refused, and the engine is as it was. -/
theorem exists_refusals : ∃ (engine : Engine) (peer : Hit) (datagram : List UInt8),
    engine.Reachable ∧ engine.closed = false ∧ (engine.table.find? peer).isSome ∧
    (engine.handlePacketInPlace datagram (.ofHost 2) 7).result =
      .error (.missingParameter .r1 .puzzle) ∧
    (engine.handlePacketInPlace datagram (.ofHost 2) 7).engine = engine.advance 7 ∧
    (engine.connectInPlace peer (.ofHost 2) 7).result =
      .error (.usage (.alreadyConnecting peer "I1_SENT")) ∧
    (engine.connectInPlace peer (.ofHost 2) 7).engine = engine.advance 7 := by
  obtain ⟨engine, hreachable, hopen, hidentity, conn, hfind, hawaits⟩ := SampleHost.exists_asking
  let peer := (SampleHost.identity 2).hit
  let r1 := Packet.ofParameters .r1 peer engine.hit []
  obtain ⟨datagram, hencode⟩ := r1.exists_encode_eq_ok .nil (by decide) (by decide)
  have hparse : Packet.parse datagram = .ok r1 :=
    Packet.parse_of_encode hencode fun id hmem => absurd hmem List.not_mem_nil
  have hkey : engine.identity.HasCurveKey := hidentity ▸ SampleHost.hasCurveKey 1
  obtain ⟨hpacket, hconnect⟩ := refusal_leaves_no_trace hreachable hopen hkey 7
  obtain ⟨hpacketSame, hpacketRefused⟩ := hpacket datagram (.ofHost 2)
  obtain ⟨hconnectSame, hconnectRefused⟩ := hconnect peer (.ofHost 2)
  have hreceive : (engine.handlePacketInPlace datagram (.ofHost 2) 7).result =
      .error (.missingParameter .r1 .puzzle) := by
    have hmissing : ∀ ctx, Turn.receive ⟨conn, engine.rng, []⟩ ctx r1 =
        .error (.missingParameter .r1 .puzzle) := by
      intro ctx
      simp only [Turn.receive, hawaits.state, show r1.kind = .r1 from rfl, Turn.acceptR1,
        Connection.isSolving, hawaits.pending]
      rfl
    have hadvanced : (engine.advance 7).table.find? r1.sender = some conn := hfind
    rw [hpacketSame, handlePacket_eq_accept hopen hparse rfl, accept, hadvanced]
    dsimp only
    rw [deliver, show (engine.advance 7).rng = engine.rng from rfl, hmissing]
  have hinitiate : (engine.connectInPlace peer (.ofHost 2) 7).result =
      .error (.usage (.alreadyConnecting peer "I1_SENT")) := by
    have hother : peer ≠ (engine.advance 7).hit := by
      rw [show (engine.advance 7).hit = engine.identity.hit from rfl, hidentity]
      exact SampleHost.distinct.symm
    have hadvanced : (engine.advance 7).table.find? peer = some conn := hfind
    have hbegun : ∀ ctx, Turn.initiate ⟨conn, (engine.advance 7).rng, []⟩ ctx =
        .error (.usage (.alreadyConnecting peer "I1_SENT")) := by
      intro ctx
      rw [Turn.initiate, if_pos (by simp [hawaits.state]), hawaits.state,
        ConnectionTable.peer_of_find? hfind]
      rfl
    rw [hconnectSame, connect, hopen, if_neg Bool.false_ne_true]
    dsimp only
    rw [if_neg hother, hadvanced]
    dsimp only
    rw [initiate, hbegun]
  exact ⟨engine, peer, datagram, hreachable, hopen,
    by rw [hfind]; rfl, hreceive, hpacketRefused _ hreceive, hinitiate, hconnectRefused _ hinitiate⟩

end Calls

end Engine

end DietExchange
