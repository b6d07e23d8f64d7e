import DietExchange.Proofs.Connection.Packets

/-!
Turns taken in place. A handler of `Turn` ends in an error or in a turn, so that whatever it had
changed before it was refused cannot be seen. Here the handlers are sequences of steps on one turn
that is changed as they go: every change stands where it is made between the checks, and a check
that fails takes nothing back.

This rests on one thing outside the handlers. The cookie of an R1 is drawn before the R1 is
written, so that an R1 that could not be written would cost a word of the random stream. With a
public key of its curve's length an R1 can always be written.
-/

namespace DietExchange

/-- Steps on a turn. What they changed before one of them failed stays changed. -/
abbrev Steps := ExceptT Error (StateM Turn)

namespace Steps

variable {α β : Type}

/-- How steps on a turn end, and the turn that they leave behind. -/
def runOn (steps : Steps α) (turn : Turn) : Except Error α × Turn :=
  StateT.run (ExceptT.run steps) turn

/-- Something that may fail and changes nothing. -/
def check (outcome : Except Error α) : Steps α := ExceptT.mk (pure outcome)

@[simp]
theorem runOn_bind (steps : Steps α) (next : α → Steps β) (turn : Turn) :
    (steps >>= next).runOn turn = match steps.runOn turn with
      | (.ok value, after) => (next value).runOn after
      | (.error error, after) => (.error error, after) := by
  simp only [runOn, ExceptT.run_bind, StateT.run_bind]
  rcases steps.run.run turn with ⟨_ | _, after⟩ <;> rfl

@[simp]
theorem runOn_throw (error : Error) (turn : Turn) :
    (throw error : Steps α).runOn turn = (.error error, turn) := rfl

@[simp]
theorem runOn_check (outcome : Except Error α) (turn : Turn) :
    (check outcome).runOn turn = (outcome, turn) := rfl

@[simp]
theorem runOn_get (turn : Turn) : (get : Steps Turn).runOn turn = (.ok turn, turn) := rfl

@[simp]
theorem runOn_modify (edit : Turn → Turn) (turn : Turn) :
    (modify edit : Steps Unit).runOn turn = (.ok (), edit turn) := rfl

/-- Draw a cookie from the engine's random stream. -/
def drawCookie : Steps UInt16 :=
  modifyGet fun turn => (turn.rng.word16.1, { turn with rng := turn.rng.word16.2 })

@[simp]
theorem runOn_drawCookie (turn : Turn) :
    drawCookie.runOn turn = (.ok turn.rng.word16.1, { turn with rng := turn.rng.word16.2 }) := rfl

def note (event : Log.Event) : Steps Unit := modify (·.note event)

/-- Change the connection. -/
def change (edit : Connection → Connection) : Steps Unit :=
  modify fun turn => { turn with conn := edit turn.conn }

/-- Send a packet, once it is written. -/
def send (packet : Packet) : Steps Unit := do
  let turn ← get
  let datagram ← check packet.encode
  note (.sent packet.kind turn.conn.peer)
  change fun conn => { conn with lastSent := some ⟨packet.kind, datagram⟩ }
  change (·.emit (.transmit datagram))

/-- Go to R2_SENT, and then begin the hold. -/
def holdR2 (ctx : Context) : Steps Unit := do
  modify (·.moveTo .r2Sent)
  change fun conn => { conn with holdUntil := some (ctx.now + ctx.config.r2SentHold) }

def establish : Steps Unit := do
  modify (·.moveTo .established)
  let turn ← get
  note (.established turn.conn.peer)
  change (·.emit .connected)

def initiate (ctx : Context) : Steps Unit := do
  let turn ← get
  if turn.conn.state ≠ .unassociated then
    throw (.usage (.alreadyConnecting turn.conn.peer turn.conn.state.name))
  else
    send (ctx.i1 turn.conn)
    modify (·.moveTo .i1Sent)

def answerI1 (ctx : Context) (packet : Packet) : Steps Unit := do
  let turn ← get
  check packet.checkMandatory
  check (ctx.checkOffer packet.dhGroupList?)
  let challenge ← check (ctx.issuer.issue turn.conn.peer turn.conn.host [])
  let cookie ← drawCookie
  send (ctx.r1 turn.conn challenge cookie)

def acceptR1 (ctx : Context) (packet : Packet) : Steps Unit := do
  let turn ← get
  if turn.conn.isSolving then
    note (.ignoredWhileSolving turn.conn.peer)
  else
    let (puzzle, keys) ← check (ctx.validateR1 turn.conn.host turn.conn.peer packet)
    let search ← check (PuzzleSearch.start puzzle.challenge turn.conn.host turn.conn.peer puzzle.k)
    note (.solving puzzle.k turn.conn.peer packet.r1Counter?)
    change fun conn => { conn with pending := some ⟨search, puzzle, keys, packet.echoRequest?⟩ }

def sendR2 (ctx : Context) (keys : KeySet) (cipher : CipherSuite) : Steps Unit := do
  let turn ← get
  let r2 ← check ((ctx.r2 turn.conn).recalculateMac keys.responder.integrity)
  send r2
  change fun conn => { conn with keys := some keys }
  change fun conn => { conn with cipher := some cipher }
  holdR2 ctx

def answerI2 (ctx : Context) (packet : Packet) : Steps Unit := do
  let turn ← get
  let (keys, cipher) ← check (ctx.validateI2 turn.conn.host turn.conn.peer packet)
  sendR2 ctx keys cipher

def answerI2Again (ctx : Context) (packet : Packet) : Steps Unit := do
  let turn ← get
  let (keys, cipher) ← check (ctx.validateI2 turn.conn.host turn.conn.peer packet)
  match Turn.sameR2? turn.conn keys with
  | some datagram =>
    note (.resentR2 turn.conn.peer)
    change (·.emit (.transmit datagram))
    change fun conn => { conn with holdUntil := some (ctx.now + ctx.config.r2SentHold) }
  | none => sendR2 ctx keys cipher

def acceptR2 (ctx : Context) (packet : Packet) : Steps Unit := do
  let turn ← get
  check (ctx.validateR2 turn.conn.keys packet)
  establish

def receive (ctx : Context) (packet : Packet) : Steps Unit := do
  let turn ← get
  match turn.conn.state, packet.kind with
  | .unassociated, .i1 => answerI1 ctx packet
  | .unassociated, .i2 => answerI2 ctx packet
  | .i1Sent, .r1 => acceptR1 ctx packet
  | .i1Sent, .i2 =>
    answerI1 ctx packet
    holdR2 ctx
  | .i2Sent, .i2 =>
    if turn.conn.host < turn.conn.peer then note (.collision turn.conn.peer)
    else answerI2 ctx packet
  | .i2Sent, .r2 => acceptR2 ctx packet
  | .r2Sent, .i2 => answerI2Again ctx packet
  | .established, .i2 => answerI2 ctx packet
  | state, kind => note (.ignored kind turn.conn.peer state)

/-- Whether steps on a turn end with this outcome of a handler: in its turn, or with its error and
    the turn as it was before the first of them. -/
def Realize (steps : Steps Unit) (turn : Turn) (outcome : Except Error Turn) : Prop :=
  steps.runOn turn = match outcome with
    | .ok after => (.ok (), after)
    | .error error => (.error error, turn)

section Realize

variable {turn : Turn}

theorem Realize.get_bind {next : Turn → Steps Unit} {outcome : Except Error Turn}
    (hnext : (next turn).Realize turn outcome) : (get >>= next).Realize turn outcome := by
  unfold Realize
  rw [runOn_bind, runOn_get]
  exact hnext

theorem Realize.check_bind {outcome : Except Error α} {next : α → Steps Unit}
    {rest : α → Except Error Turn}
    (hnext : ∀ value, outcome = .ok value → (next value).Realize turn (rest value)) :
    (check outcome >>= next).Realize turn (outcome >>= rest) := by
  unfold Realize
  rw [runOn_bind, runOn_check]
  cases outcome with
  | error => rfl
  | ok value => exact hnext value rfl

/-- What cannot fail may follow what can. -/
theorem Realize.bind_ok {steps last : Steps Unit} {outcome : Except Error Turn} {edit : Turn → Turn}
    (hsteps : steps.Realize turn outcome) (hlast : ∀ after, last.Realize after (.ok (edit after))) :
    (steps >>= fun _ => last).Realize turn (outcome >>= fun after => .ok (edit after)) := by
  unfold Realize
  rw [runOn_bind, hsteps]
  cases outcome with
  | error => rfl
  | ok after => exact hlast after

theorem realize_note (turn : Turn) (event : Log.Event) :
    (note event).Realize turn (.ok (turn.note event)) := by
  simp [Realize, note]

theorem realize_send (turn : Turn) (packet : Packet) :
    (send packet).Realize turn (turn.send packet) :=
  .get_bind <| .check_bind fun datagram _ => by
    simp [Realize, note, change, pure, Except.pure, Turn.note]

theorem realize_holdR2 (turn : Turn) (ctx : Context) :
    (holdR2 ctx).Realize turn (.ok (turn.holdR2 ctx)) := by
  simp [Realize, holdR2, change, Turn.holdR2]

theorem realize_establish (turn : Turn) : establish.Realize turn (.ok turn.establish) := by
  simp [Realize, establish, note, change, Turn.note, Turn.establish]

/-- To begin a handshake in place ends as `Turn.initiate` does. -/
theorem realize_initiate (turn : Turn) (ctx : Context) :
    (initiate ctx).Realize turn (turn.initiate ctx) := by
  refine .get_bind ?_
  unfold Turn.initiate
  split
  · simp [Realize]
  · exact (realize_send turn _).bind_ok fun after => by simp [Realize]

theorem realize_answerI1 (turn : Turn) (ctx : Context) (hkey : ctx.identity.HasCurveKey)
    (packet : Packet) : (answerI1 ctx packet).Realize turn (turn.answerI1 ctx packet) := by
  refine .get_bind <| .check_bind fun _ _ => .check_bind fun _ _ =>
    .check_bind fun challenge _ => ?_
  -- the cookie is drawn by now, so that the R1 must not fail
  let drawn : Turn := { turn with rng := turn.rng.word16.2 }
  obtain ⟨datagram, hencode⟩ :=
    Context.exists_encode_r1 hkey turn.conn challenge turn.rng.word16.1
  obtain ⟨after, hsend⟩ := drawn.exists_send_eq_ok hencode
  have hsteps := realize_send drawn (ctx.r1 turn.conn challenge turn.rng.word16.1)
  rw [hsend] at hsteps
  change Realize _ turn (drawn.send (ctx.r1 turn.conn challenge turn.rng.word16.1))
  unfold Realize
  rw [hsend, runOn_bind, runOn_drawCookie]
  exact hsteps

theorem realize_acceptR1 (turn : Turn) (ctx : Context) (packet : Packet) :
    (acceptR1 ctx packet).Realize turn (turn.acceptR1 ctx packet) := by
  refine .get_bind ?_
  unfold Turn.acceptR1
  split
  · exact realize_note turn _
  · exact .check_bind fun ⟨puzzle, keys⟩ _ => .check_bind fun search _ => by
      simp [Realize, note, change, pure, Except.pure, Turn.note]

theorem realize_sendR2 (turn : Turn) (ctx : Context) (keys : KeySet) (cipher : CipherSuite) :
    (sendR2 ctx keys cipher).Realize turn (turn.sendR2 ctx keys cipher) :=
  .get_bind <| .check_bind fun r2 _ => (realize_send turn r2).bind_ok fun after => by
    simp [Realize, change, holdR2, Turn.holdR2, Turn.moveTo]

theorem realize_answerI2 (turn : Turn) (ctx : Context) (packet : Packet) :
    (answerI2 ctx packet).Realize turn (turn.answerI2 ctx packet) :=
  .get_bind <| .check_bind fun ⟨keys, cipher⟩ _ => realize_sendR2 turn ctx keys cipher

theorem realize_answerI2Again (turn : Turn) (ctx : Context) (packet : Packet) :
    (answerI2Again ctx packet).Realize turn (turn.answerI2Again ctx packet) := by
  refine .get_bind <| .check_bind fun ⟨keys, cipher⟩ _ => ?_
  dsimp only
  cases Turn.sameR2? turn.conn keys with
  | some datagram => simp [Realize, note, change, pure, Except.pure, Turn.note]
  | none => exact realize_sendR2 turn ctx keys cipher

theorem realize_acceptR2 (turn : Turn) (ctx : Context) (packet : Packet) :
    (acceptR2 ctx packet).Realize turn (turn.acceptR2 ctx packet) :=
  .get_bind <| .check_bind fun _ _ => realize_establish turn

/-- To take a packet in place ends as `Turn.receive` does. -/
theorem realize_receive (turn : Turn) (ctx : Context) (hkey : ctx.identity.HasCurveKey)
    (packet : Packet) : (receive ctx packet).Realize turn (turn.receive ctx packet) := by
  refine .get_bind ?_
  unfold Turn.receive
  cases turn.conn.state <;> cases packet.kind
  case unassociated.i1 => exact realize_answerI1 turn ctx hkey packet
  case unassociated.i2 => exact realize_answerI2 turn ctx packet
  case i1Sent.r1 => exact realize_acceptR1 turn ctx packet
  case i1Sent.i2 =>
    exact (realize_answerI1 turn ctx hkey packet).bind_ok fun after => realize_holdR2 after ctx
  case i2Sent.i2 =>
    dsimp only
    split
    · exact realize_note turn _
    · exact realize_answerI2 turn ctx packet
  case i2Sent.r2 => exact realize_acceptR2 turn ctx packet
  case r2Sent.i2 => exact realize_answerI2Again turn ctx packet
  case established.i2 => exact realize_answerI2 turn ctx packet
  all_goals exact realize_note turn _

end Realize

end Steps

end DietExchange
