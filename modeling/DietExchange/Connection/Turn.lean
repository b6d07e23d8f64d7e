import DietExchange.Connection.Context

/-!
A connection's turn: what it does when a packet or a timeout comes to it. The base exchange runs
like this.

1. The initiator sends an I1 with its groups and is in I1_SENT.
2. The responder answers with an R1, which holds a puzzle, its host identity and its groups, and
   keeps nothing.
3. The initiator agrees on keys with the responder's host identity, solves the puzzle, and sends an
   I2 with a tag under its integrity key. It is in I2_SENT.
4. The responder checks the answer, agrees on the same keys, checks the tag, and answers with an R2
   with a tag under its own integrity key. It is in R2_SENT.
5. The initiator checks the tag of the R2 and is in ESTABLISHED. The responder is there when it was
   in R2_SENT for a while without another I2.

A packet that is refused leaves no trace: a turn ends in an error or in what it comes to, never in
both. Only the step that sends an I2 may fail after the puzzle was solved, and then the puzzle is
gone.
-/

namespace DietExchange

/-- A turn under way: the connection, the engine's random stream, and the log of the turn so far. -/
structure Turn where
  conn : Connection
  rng : RandomStream
  log : List Log.Event
  deriving DecidableEq

namespace Turn

def note (turn : Turn) (event : Log.Event) : Turn := { turn with log := turn.log ++ [event] }

/-- The turn with its connection in another state. -/
def moveTo (turn : Turn) (next : State) : Turn :=
  { turn with
    conn := turn.conn.moveTo next
    log := turn.log ++ turn.conn.moveLog next }

/-- The turn with a packet to be transmitted, which is the last one sent from now on. -/
def send (turn : Turn) (packet : Packet) : Except Error Turn := do
  let datagram ← packet.encode
  let conn := { turn.conn with lastSent := some ⟨packet.kind, datagram⟩ }
  return { turn with
    conn := conn.emit (.transmit datagram)
    log := turn.log ++ [.sent packet.kind turn.conn.peer] }

/-- The turn with the handshake complete. -/
def establish (turn : Turn) : Turn :=
  let turn := turn.moveTo .established
  { turn with
    conn := turn.conn.emit .connected
    log := turn.log ++ [.established turn.conn.peer] }

/-- The turn with its connection in R2_SENT and the hold starting now. -/
def holdR2 (turn : Turn) (ctx : Context) : Turn :=
  let turn := turn.moveTo .r2Sent
  { turn with conn := { turn.conn with holdUntil := some (ctx.now + ctx.config.r2SentHold) } }

/-- Begin a handshake. -/
def initiate (turn : Turn) (ctx : Context) : Except Error Turn :=
  if turn.conn.state ≠ .unassociated then
    .error (.usage (.alreadyConnecting turn.conn.peer turn.conn.state.name))
  else do
    let turn ← turn.send (ctx.i1 turn.conn)
    return turn.moveTo .i1Sent

/-- Answer an I1, or what is answered like one, with an R1. -/
def answerI1 (turn : Turn) (ctx : Context) (packet : Packet) : Except Error Turn := do
  packet.checkMandatory
  ctx.checkOffer packet.dhGroupList?
  let challenge ← ctx.issuer.issue turn.conn.peer turn.conn.host []
  let (cookie, rng) := turn.rng.word16
  { turn with rng := rng }.send (ctx.r1 turn.conn challenge cookie)

/-- Take up the puzzle of an R1, unless there is one being solved. -/
def acceptR1 (turn : Turn) (ctx : Context) (packet : Packet) : Except Error Turn :=
  if turn.conn.isSolving then
    .ok (turn.note (.ignoredWhileSolving turn.conn.peer))
  else do
    let (puzzle, keys) ← ctx.validateR1 turn.conn.host turn.conn.peer packet
    let search ← PuzzleSearch.start puzzle.challenge turn.conn.host turn.conn.peer puzzle.k
    let pending : PendingAnswer := ⟨search, puzzle, keys, packet.echoRequest?⟩
    return { turn with
      conn := { turn.conn with pending := some pending }
      log := turn.log ++ [.solving puzzle.k turn.conn.peer packet.r1Counter?] }

/-- Answer an I2 that was accepted with an R2, and hold on to its keys. -/
def sendR2 (turn : Turn) (ctx : Context) (keys : KeySet) (cipher : CipherSuite) :
    Except Error Turn := do
  let r2 ← (ctx.r2 turn.conn).recalculateMac keys.responder.integrity
  let turn ← turn.send r2
  let conn := { turn.conn with keys := some keys, cipher := some cipher }
  return { turn with conn := conn }.holdR2 ctx

/-- Check an I2 and answer it. -/
def answerI2 (turn : Turn) (ctx : Context) (packet : Packet) : Except Error Turn := do
  let (keys, cipher) ← ctx.validateI2 turn.conn.host turn.conn.peer packet
  turn.sendR2 ctx keys cipher

/-- The R2 sent last, if that is what was sent last and these are the keys that it was sent for. -/
def sameR2? (conn : Connection) (keys : KeySet) : Option (List UInt8) :=
  match conn.keys, conn.lastSent with
  | some held, some ⟨.r2, datagram⟩ => if held.SameKeys keys then some datagram else none
  | _, _ => none

/-- Check an I2 that comes after one was answered. If it leads to the keys that we hold, our R2 was
    most likely lost and goes out once more; otherwise it is answered anew. -/
def answerI2Again (turn : Turn) (ctx : Context) (packet : Packet) : Except Error Turn := do
  let (keys, cipher) ← ctx.validateI2 turn.conn.host turn.conn.peer packet
  match sameR2? turn.conn keys with
  | some datagram =>
    let conn := turn.conn.emit (.transmit datagram)
    return { turn with
      conn := { conn with holdUntil := some (ctx.now + ctx.config.r2SentHold) }
      log := turn.log ++ [.resentR2 turn.conn.peer] }
  | none => turn.sendR2 ctx keys cipher

/-- Check an R2, which completes the handshake. -/
def acceptR2 (turn : Turn) (ctx : Context) (packet : Packet) : Except Error Turn := do
  ctx.validateR2 turn.conn.keys packet
  return turn.establish

/-- What a packet from the peer leads to. -/
def receive (turn : Turn) (ctx : Context) (packet : Packet) : Except Error Turn :=
  match turn.conn.state, packet.kind with
  | .unassociated, .i1 => turn.answerI1 ctx packet
  | .unassociated, .i2 => turn.answerI2 ctx packet
  | .i1Sent, .r1 => turn.acceptR1 ctx packet
  | .i1Sent, .i2 => do
    -- The peer has a puzzle of ours from elsewhere, so that its I2 counts as an I1.
    let turn ← turn.answerI1 ctx packet
    return turn.holdR2 ctx
  | .i2Sent, .i2 =>
    if turn.conn.host < turn.conn.peer then .ok (turn.note (.collision turn.conn.peer))
    else turn.answerI2 ctx packet
  | .i2Sent, .r2 => turn.acceptR2 ctx packet
  | .r2Sent, .i2 => turn.answerI2Again ctx packet
  | .established, .i2 => turn.answerI2 ctx packet
  | state, kind => .ok (turn.note (.ignored kind turn.conn.peer state))

/-- End the hold of R2_SENT when its time has come: with keys the handshake is complete, without any
    it has failed. -/
def endHold (turn : Turn) (ctx : Context) : Turn :=
  match turn.conn.holdUntil with
  | some deadline =>
    if ctx.now < deadline then turn
    else
      let turn := { turn with conn := { turn.conn with holdUntil := none } }
      if turn.conn.keys.isSome then turn.establish
      else (turn.note (.holdWithoutKeys turn.conn.peer)).moveTo .unassociated
  | none => turn

/-- Send the I2 that answers a puzzle. What was asked to be sent back goes behind the tag, which
    does not cover it. -/
def sendI2 (turn : Turn) (ctx : Context) (pending : PendingAnswer) (answer : Block) :
    Except Error Turn := do
  let i2 ← (ctx.i2 turn.conn pending.puzzle answer).recalculateMac pending.keys.initiator.integrity
  let i2 := match pending.echo with
    | some echo => i2.push (.echoResponseUnsigned echo)
    | none => i2
  let turn ← turn.send i2
  let conn := { turn.conn with keys := some pending.keys }
  return { turn with conn := conn }.moveTo .i2Sent

/-- Work on the puzzle being solved, and answer it when it is. What goes wrong then is told, and the
    puzzle is gone all the same. -/
def solveStep (turn : Turn) (ctx : Context) : Turn × Option Error :=
  match turn.conn.pending with
  | none => (turn, none)
  | some pending =>
    let outcome := pending.search.step ctx.config.solveBatch turn.rng
    match outcome.answer with
    | none =>
      let pending := { pending with search := outcome.search }
      ({ turn with conn := { turn.conn with pending := some pending }, rng := outcome.rng }, none)
    | some answer =>
      let turn : Turn := {
        conn := { turn.conn with pending := none }
        rng := outcome.rng
        log := turn.log ++ [.solved outcome.search.attempts] }
      match turn.sendI2 ctx pending answer with
      | .ok turn => (turn, none)
      | .error error => (turn, some error)

/-- What the passing of time leads to. -/
def timeout (turn : Turn) (ctx : Context) : Turn × Option Error :=
  (turn.endHold ctx).solveStep ctx

end Turn

end DietExchange
