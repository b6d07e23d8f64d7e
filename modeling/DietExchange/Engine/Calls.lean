import DietExchange.Engine.Basic

namespace DietExchange

/-- What an engine hands out when it is polled. -/
inductive Output where
  /-- The handshake with this peer is complete. -/
  | connected (peer : Hit)
  /-- This datagram is to be sent to this address. -/
  | datagram (address : Address) (bytes : List UInt8)
  /-- There is nothing to do before this time. -/
  | timeout (instant : Nat)
  /-- A datagram of `length` bytes was due, and there is room for `room` only. It is lost. -/
  | noRoom (length room : Nat)
  deriving DecidableEq

/-- The words in which a lack of room is told. -/
def Output.noRoomMessage (length room : Nat) : String :=
  s!"Output buffer too small for packet {length} > {room}"

namespace Engine

/-- Hand a packet to a connection. One that is new is kept only if the packet made something of it;
    an R1 is answered without keeping anything. -/
def deliver (engine : Engine) (conn : Connection) (isNew : Bool) (packet : Packet) : Reply :=
  match Turn.receive ⟨conn, engine.rng, []⟩ (engine.context engine.lastNow) packet with
  | .error error => ⟨.error error, engine, [.dropped packet.kind packet.sender error]⟩
  | .ok turn =>
    let engine := { engine with rng := turn.rng }
    let (engine, log) :=
      if isNew && turn.conn.state == .unassociated then engine.forget turn.conn
      else engine.settle turn.conn
    ⟨.ok (), engine, turn.log ++ log⟩

/-- Take a packet that is addressed to us. A peer without a connection gets one, if peers may come
    unsolicited and there is room in the table; otherwise the packet is ignored. -/
def accept (engine : Engine) (packet : Packet) (source : Address) : Reply :=
  match engine.table.find? packet.sender with
  | some conn => engine.deliver conn false packet
  | none =>
    if !engine.config.acceptUnsolicited then
      ⟨.ok (), engine, [.unsolicited packet.kind packet.sender]⟩
    else if engine.config.maxConnections ≤ engine.connectionCount then
      ⟨.ok (), engine, [.tableFull packet.kind packet.sender]⟩
    else
      engine.deliver (Connection.fresh engine.hit packet.sender source) true packet

/-- Take a datagram that came from `source` at `now`. An error says that it was dropped, and that
    nothing changed but the time. -/
def handlePacket (engine : Engine) (datagram : List UInt8) (source : Address) (now : Nat) : Reply :=
  if engine.closed then
    ⟨.error (.usage .closed), engine, []⟩
  else
    let engine := engine.advance now
    match Packet.parse datagram with
    | .error error => ⟨.error error, engine, [.malformed source error]⟩
    | .ok packet =>
      if packet.receiver ≠ engine.hit then
        ⟨.error .receiverMismatch, engine, [.misdirected packet.kind source packet.receiver]⟩
      else
        engine.accept packet source

/-- Begin a handshake on a connection. -/
def initiate (engine : Engine) (conn : Connection) : Reply :=
  match Turn.initiate ⟨conn, engine.rng, []⟩ (engine.context engine.lastNow) with
  | .error error => ⟨.error error, engine, []⟩
  | .ok turn =>
    let (engine, log) := { engine with rng := turn.rng }.settle turn.conn
    ⟨.ok (), engine, turn.log ++ log⟩

/-- Begin a handshake with a peer at an address. A connection that is there already keeps its
    address. -/
def connect (engine : Engine) (peer : Hit) (address : Address) (now : Nat) : Reply :=
  if engine.closed then
    ⟨.error (.usage .closed), engine, []⟩
  else
    let engine := engine.advance now
    if peer = engine.hit then
      ⟨.error (.usage .ownHit), engine, []⟩
    else
      match engine.table.find? peer with
      | some conn => engine.initiate conn
      | none =>
        if engine.config.maxConnections ≤ engine.connectionCount then
          ⟨.error (.usage .tableFull), engine, []⟩
        else
          engine.initiate (Connection.fresh engine.hit peer address)

/-- Replace the puzzle secret if that is due. If there is no fresh one, the old ones stay. -/
def rotateSecret (engine : Engine) (now : Nat) : Engine × List Log.Event :=
  let (due, timer) := engine.rotationTimer.fire now
  let engine := { engine with rotationTimer := timer }
  if due then
    match engine.issuer.rotate engine.entropy with
    | (.ok issuer, entropy) =>
      ({ engine with issuer := issuer, entropy := entropy }, [.rotated issuer.generation])
    | (.error error, entropy) => ({ engine with entropy := entropy }, [.rotationFailed error])
  else
    (engine, [])

/-- Have every connection, in the order of `peers`, send its last packet again if its state asks for
    it. -/
def resendAll (engine : Engine) : (peers : List Hit) → Engine × List Log.Event
  | [] => (engine, [])
  | peer :: rest =>
    match (engine.table.find? peer).bind Connection.retransmit? with
    | some (conn, event) =>
      let (engine, log) := { engine with table := engine.table.put conn }.resendAll rest
      (engine, event :: log)
    | none => engine.resendAll rest

/-- Run the retransmission sweep if it is due. -/
def sweep (engine : Engine) (peers : List Hit) (now : Nat) : Engine × List Log.Event :=
  let (due, timer) := engine.retransmissionTimer.fire now
  let engine := { engine with retransmissionTimer := timer }
  if due then
    let (engine, log) := engine.resendAll peers
    (engine, log ++ [.swept log.length])
  else
    (engine, [])

/-- Let the connection with a peer see the time. -/
def visit (engine : Engine) (now : Nat) (peer : Hit) : Engine × List Log.Event :=
  match engine.table.find? peer with
  | none => (engine, [])
  | some conn =>
    let (turn, failure) := Turn.timeout ⟨conn, engine.rng, []⟩ (engine.context now)
    let failed := match failure with
      | some error => [Log.Event.stepFailed peer error]
      | none => []
    let (engine, log) := { engine with rng := turn.rng }.settle turn.conn
    (engine, turn.log ++ failed ++ log)

/-- Let the connections with these peers see the time, in order. -/
def visitAll (engine : Engine) (now : Nat) : (peers : List Hit) → Engine × List Log.Event
  | [] => (engine, [])
  | peer :: rest =>
    let (engine, log) := engine.visit now peer
    let (engine, more) := engine.visitAll now rest
    (engine, log ++ more)

/-- Let time pass up to `now`, with the connections visited in the order of `peers`: replace the
    puzzle secret, run the sweep, end holds and work on puzzles. -/
def handleTimeoutIn (engine : Engine) (peers : List Hit) (now : Nat) : Reply :=
  if engine.closed then
    ⟨.error (.usage .closed), engine, []⟩
  else
    let engine := engine.advance now
    let (engine, rotation) := engine.rotateSecret now
    let (engine, sweep) := engine.sweep peers now
    let (engine, visits) := engine.visitAll now peers
    ⟨.ok (), engine, rotation ++ sweep ++ visits⟩

/-- Let time pass up to `now`. The connections are visited in the order in which they were
    opened. -/
def handleTimeout (engine : Engine) (now : Nat) : Reply :=
  engine.handleTimeoutIn engine.table.peers now

/-- The times for which something is planned. -/
def deadlines (engine : Engine) : List Nat :=
  engine.rotationTimer.deadline.toList ++ engine.retransmissionTimer.deadline.toList ++
    engine.table.connections.filterMap (·.holdUntil)

/-- When the engine wants to see the time again: at once while a puzzle is being solved, otherwise
    at the first of the times for which something is planned. -/
def pollTimeout (engine : Engine) : Nat :=
  if engine.table.connections.any (·.isSolving) then engine.lastNow
  else engine.deadlines.min?.getD (engine.lastNow + distantFuture)

/-- Hand out what is to be done: first the peers with whom the handshake is complete, then datagrams
    of up to `room` bytes, then the time. -/
def pollOutput (engine : Engine) (room : Nat) : Output × Engine :=
  match engine.established with
  | peer :: rest => (.connected peer, { engine with established := rest })
  | [] =>
    match engine.datagrams with
    | ⟨address, datagram⟩ :: rest =>
      let output : Output :=
        if room < datagram.length then .noRoom datagram.length room else .datagram address datagram
      (output, { engine with datagrams := rest })
    | [] => (.timeout engine.pollTimeout, engine)

/-- What an engine hands out until it names a time. -/
structure Drained where
  connected : List Hit
  datagrams : List Outgoing
  timeout : Nat

/-- Poll until the engine names a time, with room for every datagram. -/
def drain (engine : Engine) : Drained × Engine :=
  (⟨engine.established, engine.datagrams, engine.pollTimeout⟩,
    { engine with established := [], datagrams := [] })

/-- Stop: both timers are disarmed, and connections and queues are gone. Closing twice does no more
    than closing once. -/
def close (engine : Engine) : Engine × List Log.Event :=
  if engine.closed then (engine, [])
  else
    ({ engine with
      rotationTimer := engine.rotationTimer.disarm
      retransmissionTimer := engine.retransmissionTimer.disarm
      table := ConnectionTable.empty
      datagrams := []
      established := []
      retransmitting := 0
      closed := true },
    engine.table.connections.flatMap (·.moveLog .closed) ++ [.closed engine.hit])

end Engine

end DietExchange
