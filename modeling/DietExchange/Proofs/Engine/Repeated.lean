import DietExchange.Proofs.Engine.Calm
import DietExchange.Proofs.Engine.Completion
import DietExchange.Proofs.Engine.Gate
import DietExchange.Proofs.Engine.Mail

namespace DietExchange

namespace Connection

variable {conn : Connection} {keys : KeySet} {r2 : List UInt8}

/-- The connection with its hold up to another time. -/
def withHold (conn : Connection) (deadline : Option Nat) : Connection :=
  { conn with holdUntil := deadline }

theorem withHold_holdUntil (conn : Connection) : conn.withHold conn.holdUntil = conn := rfl

theorem sameR2?_of_held {held : KeySet} (hheld : conn.keys = some held)
    (hsent : conn.lastSent = some ⟨.r2, r2⟩) (keys : KeySet) :
    Turn.sameR2? conn keys = if held.SameKeys keys then some r2 else none := by
  unfold Turn.sameR2?
  rw [hheld, hsent]

theorem respond_of_r2Sent (hstate : conn.state = .r2Sent) (keys : KeySet) (cipher : CipherSuite)
    (r2 : List UInt8) (deadline : Nat) : conn.respond keys cipher r2 deadline = { conn with
      keys := some keys
      cipher := some cipher
      lastSent := some ⟨.r2, r2⟩
      holdUntil := some deadline }.emit (.transmit r2) := by
  unfold respond holdTo moveTo
  rw [if_pos (show (conn.transmit .r2 r2).state = .r2Sent from hstate)]
  rfl

/-- An I2 with which a host comes to be in R2_SENT with keys, or stays there, is valid, and would be
    answered with the same R2 again. -/
theorem Move.sameR2?_of_i2 {ctx : Context} {packet : Packet} {moved : Connection} {held : KeySet}
    (hmove : conn.Move ctx (.packet packet) moved) (hform : conn.WellFormed)
    (hkind : packet.kind = .i2) (hstate : moved.state = .r2Sent) (hheld : moved.keys = some held) :
      ∃ keys cipher r2, ctx.validateI2 conn.host conn.peer packet = .ok (keys, cipher) ∧
      Turn.sameR2? moved keys = some r2 := by
  have hother : ∀ kind, packet.kind = kind → kind = .i2 := fun _ heq => heq.symm.trans hkind
  cases hmove with
  | ignore hdeaf => simp [heeds, hstate, hkind] at hdeaf
  | answerI1 _ hfound | takeUpR1 _ hfound | acceptR2 _ hfound => cases hother _ hfound
  | answerI2AsI1 hi1Sent =>
    have hkeyless := hform.keyless (.inr hi1Sent)
    simp [holdTo, transmit, hkeyless] at hheld
  | @answerI2 _ _ _ keys cipher datagram _ _ hvalid =>
    have hkeys : (conn.respond keys cipher datagram ctx.holdEnd).keys = some keys := keys_moveTo _ _
    have hsent : (conn.respond keys cipher datagram ctx.holdEnd).lastSent = some ⟨.r2, datagram⟩ :=
      lastSent_moveTo _ _
    exact ⟨keys, cipher, datagram, hvalid,
      (sameR2?_of_held hkeys hsent keys).trans (if_pos ⟨rfl, rfl⟩)⟩
  | resendR2 _ _ hvalid hsame => exact ⟨_, _, _, hvalid, hsame⟩

end Connection

namespace Turn

variable {turn : Turn} {ctx : Context} {packet : Packet} {keys : KeySet} {cipher : CipherSuite}

theorem receive_of_r2Sent (hstate : turn.conn.state = .r2Sent) (hkind : packet.kind = .i2) :
    turn.receive ctx packet = turn.answerI2Again ctx packet := by
  unfold receive
  rw [hstate, hkind]

theorem rng_sendR2 {after : Turn} (hsend : turn.sendR2 ctx keys cipher = .ok after) :
    after.rng = turn.rng := by
  obtain ⟨r2, -, hrest⟩ := bind_eq_ok_iff.mp hsend
  obtain ⟨sent, hsent, hpure⟩ := bind_eq_ok_iff.mp hrest
  obtain rfl := pure_eq_ok_iff.mp hpure
  obtain ⟨datagram, -, hrng, -⟩ := send_eq_ok hsent
  exact hrng

theorem exists_answerI2Again_of_same {r2 : List UInt8}
    (hvalid : ctx.validateI2 turn.conn.host turn.conn.peer packet = .ok (keys, cipher))
    (hsame : sameR2? turn.conn keys = some r2) : ∃ after, turn.answerI2Again ctx packet =
      .ok after ∧ after.rng = turn.rng ∧
      after.conn = (turn.conn.withHold ctx.holdEnd).emit (.transmit r2) := by
  refine ⟨{ turn with
    conn := { turn.conn.emit (.transmit r2) with holdUntil := some ctx.holdEnd }
    log := turn.log ++ [.resentR2 turn.conn.peer] }, ?_, rfl, rfl⟩
  refine bind_eq_ok_iff.mpr ⟨(keys, cipher), hvalid, ?_⟩
  dsimp only
  rw [hsame]
  rfl

/-- An R2 can be sealed with the keys of every I2 that is valid. -/
theorem exists_answerI2Again_of_other
    (hvalid : ctx.validateI2 turn.conn.host turn.conn.peer packet = .ok (keys, cipher))
    (hother : sameR2? turn.conn keys = none) : ∃ after sealed r2,
      turn.answerI2Again ctx packet = .ok after ∧ after.rng = turn.rng ∧
      (ctx.r2 turn.conn).recalculateMac keys.responder.integrity = .ok sealed ∧
      sealed.encode = .ok r2 ∧ after.conn = turn.conn.respond keys cipher r2 ctx.holdEnd := by
  obtain ⟨after, hsend⟩ := turn.exists_sendR2 ctx cipher (Context.isKeyLength_of_validateI2 hvalid)
  obtain ⟨sealed, r2, hseal, hencode, hconn⟩ := sendR2_eq_ok hsend
  refine ⟨after, sealed, r2, bind_eq_ok_iff.mpr ⟨(keys, cipher), hvalid, ?_⟩,
    rng_sendR2 hsend, hseal, hencode, hconn⟩
  dsimp only
  rw [hother]
  exact hsend

end Turn

/-- Whether a call hands this datagram to an engine. -/
def Call.hands (datagram : List UInt8) : Call → Bool
  | .handlePacket other _ _ => other = datagram
  | .connect .. | .handleTimeout .. | .pollOutput _ | .close => false

/-- The calls among which an I2 of a peer may come again: with it come packets of the peer that are
    no I2s, and what is no packet for us, and the queues may be polled. -/
inductive Call.Repeats (host peer : Hit) (i2 : List UInt8) : Call → Prop where
  | again (source : Address) (now : Nat) : Repeats host peer i2 (.handlePacket i2 source now)
  | ignored {datagram : List UInt8} (hother : ∀ packet, Packet.parse datagram = .ok packet →
      packet.receiver = host → packet.sender = peer ∧ packet.kind ≠ .i2) (source : Address)
      (now : Nat) :
    Repeats host peer i2 (.handlePacket datagram source now)
  | polled (room : Nat) : Repeats host peer i2 (.pollOutput room)

namespace Engine

section Definitions

variable (engine : Engine)

/-- The keys and the cipher suite that an I2 leads to. The time does not matter for it. -/
def validateI2 (packet : Packet) : Except Error (KeySet × CipherSuite) :=
  (engine.context engine.lastNow).validateI2 engine.hit packet.sender packet

/-- When a hold that begins at `now` ends. -/
def holdEnd (now : Nat) : Nat := max engine.lastNow now + engine.config.r2SentHold

/-- Whether a datagram is an R2 of ours for a peer, with a tag under the integrity key of the
    responder. -/
def IsR2For (peer : Hit) (keys : KeySet) (r2 : List UInt8) : Prop :=
  ∃ packet, Packet.parse r2 = .ok packet ∧ packet.kind = .r2 ∧ packet.sender = engine.hit ∧
    packet.receiver = peer ∧ packet.verifyMac keys.responder.integrity = .ok ()

/-- What an I2 comes to that finds its connection in R2_SENT with keys, given what was mailed last
    to the peer. -/
structure AnswersAgain (packet : Packet) (conn : Connection) (held : KeySet) (last : Outgoing)
    (now : Nat) (reply : Reply) : Prop where
  refused : ∀ error, engine.validateI2 packet = .error error →
    reply.result = .error error ∧ reply.engine = engine.advance now
  same : ∀ keys cipher, engine.validateI2 packet = .ok (keys, cipher) → held.SameKeys keys →
    reply.result = .ok () ∧ reply.engine = { engine.advance now with
      table := engine.table.put (conn.withHold (engine.holdEnd now))
      datagrams := engine.datagrams ++ [last] }
  other : ∀ keys cipher, engine.validateI2 packet = .ok (keys, cipher) → ¬held.SameKeys keys →
    reply.result = .ok () ∧ ∃ r2, engine.IsR2For packet.sender keys r2 ∧
      reply.engine = { engine.advance now with
        table := engine.table.put { conn with
          keys := some keys
          cipher := some cipher
          lastSent := some ⟨.r2, r2⟩
          holdUntil := some (engine.holdEnd now) }
        datagrams := engine.datagrams ++ [⟨conn.address, r2⟩] }

/-- When a hold ends after calls that may hand over an I2: each time, it begins anew. -/
def holdAfter (i2 : List UInt8) (engine : Engine) (deadline : Option Nat) : List Call → Option Nat
  | [] => deadline
  | call :: rest =>
    let later := engine.after call
    holdAfter i2 later (if call.hands i2 then some (later.lastNow + later.config.r2SentHold)
      else deadline) rest

/-- What calls that may hand over an I2 leave of an engine that answered it with this R2: with each
    copy the same R2 is queued, and but for the queues only the time and the hold change. -/
structure StaysAnswered (i2 r2 : List UInt8) (conn : Connection) (calls : List Call) : Prop where
  eq : ∃ now datagrams established, engine.run calls = { engine with
    lastNow := now
    table := engine.table.put (conn.withHold (engine.holdAfter i2 conn.holdUntil calls))
    datagrams := datagrams
    established := established }
  queued : engine.queuedIn calls = List.replicate (calls.countP (·.hands i2)) ⟨conn.address, r2⟩
  told : engine.toldIn calls = []

/-- Whether an engine has answered this I2 with this R2, which it would send for it once more. -/
structure Answered (packet : Packet) (conn : Connection) (r2 : List UInt8) : Prop where
  isOpen : engine.closed = false
  receiver : packet.receiver = engine.hit
  find : engine.table.find? packet.sender = some conn
  host : conn.host = engine.hit
  state : conn.state = .r2Sent
  outbox : conn.outbox = []
  same : ∃ keys cipher, engine.validateI2 packet = .ok (keys, cipher) ∧
    Turn.sameR2? conn keys = some r2

end Definitions

variable {engine : Engine} {i2 r2 : List UInt8} {packet : Packet} {conn : Connection}

theorem validateI2_of_find? (hfind : engine.table.find? packet.sender = some conn)
    (hhost : conn.host = engine.hit) (now : Nat) :
    (engine.context now).validateI2 conn.host conn.peer packet = engine.validateI2 packet := by
  rw [hhost, ConnectionTable.peer_of_find? hfind]
  rfl

section Again

variable (hopen : engine.closed = false) (hparse : Packet.parse i2 = .ok packet)
  (hkind : packet.kind = .i2) (hreceiver : packet.receiver = engine.hit)
  (hfind : engine.table.find? packet.sender = some conn) (hhost : conn.host = engine.hit)
  (hstate : conn.state = .r2Sent) (houtbox : conn.outbox = []) (source : Address) (now : Nat)

section Answer

include hopen hparse hreceiver hfind

/-- A packet that its connection answers with one datagram, and draws nothing for it. -/
theorem handlePacket_of_answer {turn : Turn} {moved : Connection} {answer : List UInt8}
    (hreceive : Turn.receive ⟨conn, engine.rng,
      []⟩ (engine.context (max engine.lastNow now)) packet =
      .ok turn) (hrng : turn.rng = engine.rng) (hconn : turn.conn = moved.emit (.transmit answer))
    (hmoved : moved.outbox = []) :
    (engine.handlePacket i2 source now).result = .ok () ∧
      (engine.handlePacket i2 source now).engine = { engine.advance now with
        table := engine.table.put moved
        datagrams := engine.datagrams ++ [⟨moved.address, answer⟩] } := by
  have hcalm : turn.conn.IsCalm := by
    rw [hconn]
    exact (Connection.isCalm_of_outbox hmoved).emit (.transmit answer) (by simp)
  obtain ⟨hresult, hengine⟩ :=
    handlePacket_of_calm hopen hparse hreceiver source now hfind hreceive hcalm
  have hsettled : turn.conn.settled = moved := by
    rw [hconn]
    change { moved with outbox := [] } = moved
    rw [← hmoved]
  have hasked : turn.conn.outbox = [.transmit answer] := by
    rw [hconn, Connection.emit, hmoved]
    rfl
  have haddress : turn.conn.address = moved.address := by
    rw [hconn]
    rfl
  rw [hsettled, hrng, Connection.outgoing, Connection.completions, hasked, haddress] at hengine
  refine ⟨hresult, hengine.trans ?_⟩
  simp [Signal.outgoing?, Signal.completion?, advance]

end Answer

include hopen hparse hkind hreceiver hfind hhost hstate

theorem handlePacket_of_invalid {error : Error}
    (hrefused : engine.validateI2 packet = .error error) :
    (engine.handlePacket i2 source now).result = .error error ∧
      (engine.handlePacket i2 source now).engine = engine.advance now := by
  refine handlePacket_of_refused hopen hparse hreceiver source now hfind ?_
  rw [Turn.receive_of_r2Sent hstate hkind]
  refine bind_eq_error_iff.mpr (.inl ?_)
  exact (validateI2_of_find? hfind hhost _).trans hrefused

include houtbox

/-- An I2 that leads to the keys held sends the R2 of these keys once more. -/
theorem handlePacket_of_same {keys : KeySet} {cipher : CipherSuite}
    (hvalid : engine.validateI2 packet = .ok (keys, cipher))
    (hsame : Turn.sameR2? conn keys = some r2) :
    (engine.handlePacket i2 source now).result = .ok () ∧
      (engine.handlePacket i2 source now).engine = { engine.advance now with
        table := engine.table.put (conn.withHold (engine.holdEnd now))
        datagrams := engine.datagrams ++ [⟨conn.address, r2⟩] } := by
  let turn : Turn := ⟨conn, engine.rng, []⟩
  obtain ⟨after, hanswer, hrng, hconn⟩ := turn.exists_answerI2Again_of_same
    ((validateI2_of_find? hfind hhost (max engine.lastNow now)).trans hvalid) hsame
  have hreceive := (Turn.receive_of_r2Sent hstate hkind).trans hanswer
  exact handlePacket_of_answer hopen hparse hreceiver hfind source now hreceive hrng hconn houtbox

/-- An I2 that leads to other keys is answered with a new R2. -/
theorem handlePacket_of_other {keys : KeySet} {cipher : CipherSuite}
    (hvalid : engine.validateI2 packet = .ok (keys, cipher))
    (hother : Turn.sameR2? conn keys = none) :
    (engine.handlePacket i2 source now).result = .ok () ∧
    ∃ r2, engine.IsR2For packet.sender keys r2 ∧
      (engine.handlePacket i2 source now).engine = { engine.advance now with
        table := engine.table.put { conn with
          keys := some keys
          cipher := some cipher
          lastSent := some ⟨.r2, r2⟩
          holdUntil := some (engine.holdEnd now) }
        datagrams := engine.datagrams ++ [⟨conn.address, r2⟩] } := by
  let turn : Turn := ⟨conn, engine.rng, []⟩
  obtain ⟨after, sealed, r2, hanswer, hrng, hseal, hencode, hconn⟩ :=
    turn.exists_answerI2Again_of_other
    ((validateI2_of_find? hfind hhost (max engine.lastNow now)).trans hvalid) hother
  have hreceive := (Turn.receive_of_r2Sent hstate hkind).trans hanswer
  rw [Connection.respond_of_r2Sent hstate] at hconn
  obtain ⟨hresult, hengine⟩ :=
    handlePacket_of_answer hopen hparse hreceiver hfind source now hreceive hrng hconn houtbox
  obtain ⟨hr2, hsender, hto⟩ := Context.header_r2 hseal
  exact ⟨hresult, r2, ⟨_, Context.parse_r2 hseal hencode, hr2, hsender.trans hhost,
    hto.trans (ConnectionTable.peer_of_find? hfind), Context.verifyMac_r2 hseal⟩, hengine⟩

end Again

section Run

variable {call : Call} {rest : List Call}

theorem staysAnswered_nil (hfind : engine.table.find? packet.sender = some conn) :
    engine.StaysAnswered i2 r2 conn [] := by
  have hsame : engine.table.put conn = engine.table :=
    ConnectionTable.put_of_find? (ConnectionTable.peer_of_find? hfind ▸ hfind)
  refine ⟨⟨engine.lastNow, engine.datagrams, engine.established, ?_⟩, rfl, rfl⟩
  change engine = { engine with table := engine.table.put conn }
  rw [hsame]

theorem StaysAnswered.cons (hfirst : engine.StaysAnswered i2 r2 conn [call])
    (hrest : (engine.after call).StaysAnswered i2 r2
      (conn.withHold (engine.holdAfter i2 conn.holdUntil [call])) rest) :
    engine.StaysAnswered i2 r2 conn (call :: rest) := by
  constructor
  case eq =>
    obtain ⟨_, _, _, hafter⟩ := hfirst.eq
    obtain ⟨now, datagrams, established, hlater⟩ := hrest.eq
    let held := conn.withHold (engine.holdAfter i2 conn.holdUntil (call :: rest))
    have htable : (engine.after call).table.put held = engine.table.put held := by
      rw [show engine.after call = _ from hafter]
      exact engine.table.put_put rfl
    change engine.run (call :: rest) = { engine.after call with
      lastNow := now
      table := (engine.after call).table.put held
      datagrams := datagrams
      established := established } at hlater
    rw [htable, show engine.after call = _ from hafter] at hlater
    exact ⟨now, datagrams, established, hlater⟩
  case queued =>
    have hone := hfirst.queued
    rw [queuedIn, queuedIn, List.append_nil] at hone
    rw [queuedIn, hone, hrest.queued]
    refine List.replicate_append_replicate.trans ?_
    rw [← List.countP_append]
    rfl
  case told =>
    have hone := hfirst.told
    rw [toldIn, toldIn, List.append_nil] at hone
    rw [toldIn, hone, hrest.told]
    rfl

/-- A call that does not reach the connection leaves it as it is. -/
theorem staysAnswered_of_spared (hfind : engine.table.find? packet.sender = some conn)
    (hother : call.hands i2 = false) (hafter : ∃ now datagrams established,
      engine.after call = { engine with lastNow := now, datagrams := datagrams, established :=
        established })
    (hqueued : engine.queuedBy call = []) (htold : engine.toldBy call = []) :
    engine.StaysAnswered i2 r2 conn [call] := by
  have hsame : engine.table.put conn = engine.table :=
    ConnectionTable.put_of_find? (ConnectionTable.peer_of_find? hfind ▸ hfind)
  constructor
  case eq =>
    rw [holdAfter, holdAfter, hother, if_neg Bool.false_ne_true,
      Connection.withHold_holdUntil, hsame]
    exact hafter
  case queued =>
    rw [queuedIn, queuedIn, hqueued, List.countP_singleton, hother]
    rfl
  case told =>
    rw [toldIn, toldIn, htold]
    rfl

/-- In R2_SENT, what is no I2 for us leaves no trace but the time. -/
theorem handlePacket_of_ignored (hopen : engine.closed = false) {peer : Hit}
    (hfind : engine.table.find? peer = some conn) (hstate : conn.state = .r2Sent)
    (houtbox : conn.outbox = []) {datagram : List UInt8}
    (hother : ∀ packet, Packet.parse datagram = .ok packet → packet.receiver = engine.hit →
      packet.sender = peer ∧ packet.kind ≠ .i2) (source : Address) (now : Nat) :
    (engine.handlePacket datagram source now).engine = engine.advance now := by
  rcases handlePacket_cases hopen datagram source now with hadvance | ⟨packet, hparse, hreceiver, -⟩
  · exact hadvance
  · obtain ⟨hsender, hkind⟩ := hother packet hparse hreceiver
    have hdeaf : conn.heeds packet.kind = false := by
      unfold Connection.heeds
      rw [hstate]
      cases hpacket : packet.kind <;> first | rfl | exact absurd hpacket hkind
    exact (handlePacket_of_deaf hopen hparse hreceiver (hsender ▸ hfind) houtbox hdeaf source now).2

/-- One more call leaves the I2 answered as it was. -/
theorem Answered.step (hanswered : engine.Answered packet conn r2)
    (hparse : Packet.parse i2 = .ok packet) (hkind : packet.kind = .i2)
    (hrepeats : call.Repeats engine.hit packet.sender i2) :
    engine.StaysAnswered i2 r2 conn [call] := by
  obtain ⟨hopen, hreceiver, hfind, hhost, hstate, houtbox, keys, cipher, hvalid, hsame⟩ := hanswered
  cases hrepeats with
  | again source now =>
    obtain ⟨-, hengine⟩ :=
      handlePacket_of_same hopen hparse hkind hreceiver hfind hhost hstate houtbox
      source now hvalid hsame
    have hafter : engine.after (.handlePacket i2 source now) = _ := hengine
    have hhands : (Call.handlePacket i2 source now).hands i2 = true := decide_eq_true rfl
    have hqueued : engine.queuedBy (.handlePacket i2 source now) = [⟨conn.address, r2⟩] :=
      queuedBy_of_append (by rw [hafter])
    have htold : engine.toldBy (.handlePacket i2 source now) = [] :=
      toldBy_of_append (by rw [hafter]; exact (List.append_nil _).symm)
    constructor
    case eq =>
      refine ⟨max engine.lastNow now, engine.datagrams ++ [⟨conn.address, r2⟩], engine.established,
        hengine.trans ?_⟩
      rw [holdAfter, holdAfter, hhands, if_pos rfl, hafter]
      rfl
    case queued =>
      rw [queuedIn, queuedIn, hqueued, List.countP_singleton, hhands]
      rfl
    case told => rw [toldIn, toldIn, htold]; rfl
  | @ignored datagram hother source now =>
    have hengine : engine.after (.handlePacket datagram source now) = engine.advance now :=
      handlePacket_of_ignored hopen hfind hstate houtbox hother source now
    have hhands : (Call.handlePacket datagram source now).hands i2 = false := by
      refine decide_eq_false fun heq => ?_
      obtain rfl : datagram = i2 := heq
      exact (hother packet hparse hreceiver).2 hkind
    exact staysAnswered_of_spared hfind hhands ⟨_, _, _, hengine⟩
      (queuedBy_of_append (by rw [hengine]; exact (List.append_nil _).symm))
      (toldBy_of_append (by rw [hengine]; exact (List.append_nil _).symm))
  | polled room =>
    obtain ⟨datagrams, established, -, -, heq⟩ := engine.pollOutput_eq room
    obtain ⟨-, hqueue, htold⟩ := engine.pollOutput_spec room
    exact staysAnswered_of_spared hfind rfl ⟨_, _, _, heq⟩ (List.drop_eq_nil_of_le hqueue.length_le)
      (List.drop_eq_nil_of_le htold.length_le)

theorem Answered.after (hanswered : engine.Answered packet conn r2)
    (hstays : engine.StaysAnswered i2 r2 conn [call]) : (engine.after call).Answered packet
      (conn.withHold (engine.holdAfter i2 conn.holdUntil [call])) r2 := by
  obtain ⟨hopen, hreceiver, hfind, hhost, hstate, houtbox, keys, cipher, hvalid, hsame⟩ := hanswered
  obtain ⟨now, datagrams, established, hafter⟩ := hstays.eq
  rw [show engine.after call = _ from hafter]
  exact {
    isOpen := hopen
    receiver := hreceiver
    find := (ConnectionTable.find?_put _ _ _).trans (if_pos (ConnectionTable.peer_of_find? hfind))
    host := hhost
    state := hstate
    outbox := houtbox
    same := ⟨keys, cipher, hvalid, hsame⟩ }

/-- Whatever calls of this kind come, the I2 stays answered. -/
theorem Answered.run {calls : List Call} (hanswered : engine.Answered packet conn r2)
    (hparse : Packet.parse i2 = .ok packet) (hkind : packet.kind = .i2)
    (hrepeats : ∀ call ∈ calls, call.Repeats engine.hit packet.sender i2) :
    engine.StaysAnswered i2 r2 conn calls := by
  induction calls generalizing engine conn with
  | nil => exact staysAnswered_nil hanswered.find
  | cons call rest ih =>
    have hfirst := hanswered.step hparse hkind (hrepeats call List.mem_cons_self)
    refine hfirst.cons (ih (hanswered.after hfirst) fun later hmem => ?_)
    rw [hit_after]
    exact hrepeats later (List.mem_cons_of_mem _ hmem)

end Run

/-- No packet changes what an I2 leads to. -/
theorem validateI2_handlePacket (hopen : engine.closed = false) (datagram : List UInt8)
    (source : Address) (now : Nat) :
    (engine.handlePacket datagram source now).engine.validateI2 packet =
      engine.validateI2 packet := by
  rcases handlePacket_cases hopen datagram source now with hadvance | ⟨_, -, -, hturned⟩
  · rw [hadvance]
    rfl
  · obtain ⟨hsame, -⟩ := hturned.effect
    have hhit : (engine.handlePacket datagram source now).engine.hit = engine.hit :=
      congrArg HostIdentity.hit hsame.identity
    rw [validateI2, hsame.context_eq, hhit]
    rfl

section Accepted

variable (hreachable : Reachable engine) (hopen : engine.closed = false)
  (hparse : Packet.parse i2 = .ok packet) (hreceiver : packet.receiver = engine.hit)
  {source : Address} {now : Nat} (hresult : (engine.handlePacket i2 source now).result = .ok ())
  (hfind : (engine.handlePacket i2 source now).engine.table.find? packet.sender = some conn)
include hreachable hopen hparse hreceiver hresult hfind

/-- A connection that a packet was not refused for was moved by it. -/
theorem exists_move_of_taken : ∃ before moved : Connection, before.WellFormed ∧
    before.host = engine.hit ∧ before.peer = packet.sender ∧
    before.Move (engine.context (max engine.lastNow now)) (.packet packet) moved ∧
    moved.settled = conn := by
  cases hbefore : engine.table.find? packet.sender with
  | some before =>
    obtain ⟨hmem, hpeer⟩ := ConnectionTable.find?_eq_some_iff.mp hbefore
    cases hreceive : Turn.receive ⟨before, engine.rng, []⟩ (engine.context (max engine.lastNow now))
        packet with
    | error error =>
      obtain ⟨hrefused, -⟩ :=
        handlePacket_of_refused hopen hparse hreceiver source now hbefore hreceive
      cases hrefused.symm.trans hresult
    | ok turn =>
      obtain ⟨-, habsorbs⟩ := handlePacket_known hopen hparse hreceiver source now hbefore hreceive
      have hmove := Turn.move_of_receive hreceive
      have hmoved := habsorbs.find_moved (hmove.peer_eq.trans hpeer)
      exact ⟨before, turn.conn, hreachable.wellFormed hmem, hreachable.host_eq hmem, hpeer, hmove,
        Option.some.inj (hmoved.symm.trans hfind)⟩
  | none =>
    rcases handlePacket_cases hopen i2 source now with hadvance | ⟨found, hfound, -, hturned⟩
    · rw [hadvance] at hfind
      cases hbefore.symm.trans hfind
    · obtain rfl := Except.ok.inj (hparse.symm.trans hfound)
      rcases hturned.find?_cases packet.sender with hsame | ⟨-, before, moved, hoffers, hmove,
        hmoved, -⟩
      · cases hbefore.symm.trans (hsame.symm.trans hfind)
      · have hconn := Option.some.inj (hmoved.symm.trans hfind)
        rcases hoffers with hknown | ⟨-, -, rfl⟩
        · cases hbefore.symm.trans hknown
        · exact ⟨_, moved, Connection.wellFormed_fresh _ _ _, rfl, rfl, hmove, hconn⟩

/-- An I2 that was accepted is answered. -/
theorem exists_answered (hkind : packet.kind = .i2) (hstate : conn.state = .r2Sent) {held : KeySet}
    (hheld : conn.keys = some held) : ∃ r2, conn.lastSent = some ⟨.r2, r2⟩ ∧
      (engine.handlePacket i2 source now).engine.Answered packet conn r2 := by
  obtain ⟨before, moved, hform, hhost, hpeer, hmove, rfl⟩ :=
    exists_move_of_taken hreachable hopen hparse hreceiver hresult hfind
  obtain ⟨keys, cipher, r2, hvalid, hsame⟩ := hmove.sameR2?_of_i2 hform hkind hstate hheld
  rw [hhost, hpeer] at hvalid
  have hhit := engine.hit_after (.handlePacket i2 source now)
  have hcall : Call.handlePacket i2 source now ≠ .close := by simp
  exact ⟨r2, Connection.lastSent_of_sameR2? hsame, {
    isOpen := closed_after hopen hcall
    receiver := hreceiver.trans hhit.symm
    find := hfind
    host := hmove.host_eq.trans (hhost.trans hhit.symm)
    state := hstate
    outbox := rfl
    same := ⟨keys, cipher, (validateI2_handlePacket hopen i2 source now).trans hvalid, hsame⟩ }⟩

end Accepted

/-- What an I2 comes to that finds an R2 sent under the keys held. -/
theorem answersAgain_handlePacket (hopen : engine.closed = false)
    (hparse : Packet.parse i2 = .ok packet) (hkind : packet.kind = .i2)
    (hreceiver : packet.receiver = engine.hit) (hfind : engine.table.find? packet.sender =
      some conn) (hhost : conn.host = engine.hit)
    (hstate : conn.state = .r2Sent) (houtbox : conn.outbox = []) {held : KeySet}
    (hheld : conn.keys = some held) (hsent : conn.lastSent = some ⟨.r2, r2⟩) (source : Address)
    (now : Nat) :
    engine.AnswersAgain packet conn held ⟨conn.address,
      r2⟩ now (engine.handlePacket i2 source now) where
  refused _ hrefused :=
    handlePacket_of_invalid hopen hparse hkind hreceiver hfind hhost hstate source now hrefused
  same keys _ hvalid hsame := by
    refine handlePacket_of_same hopen hparse hkind hreceiver hfind hhost hstate houtbox source
      now hvalid ?_
    rw [Connection.sameR2?_of_held hheld hsent, if_pos hsame]
  other keys _ hvalid hother := by
    refine handlePacket_of_other hopen hparse hkind hreceiver hfind hhost hstate houtbox source
      now hvalid ?_
    rw [Connection.sameR2?_of_held hheld hsent, if_neg hother]

/-- An I2 that finds its connection in R2_SENT with keys is refused, and nothing changes but the
    time; or it leads to the keys held, and what was mailed last to its sender, an R2, is mailed
    once more and the hold begins anew; or it leads to other keys, and a new R2 is mailed under them
    and they are held instead. So when an I2 was accepted, any number of copies of it, with other
    packets of its sender and polls in between, leaves what the first one left, up to the end of the
    hold, and each copy mails the same R2. -/
theorem repeated_i2_is_answered_alike {config : Config} {identity : HostIdentity}
    {source rest : EntropySource} {systemSeed : UInt64} {start : Nat} {first : Engine}
    {log : List Log.Event} (hcreate : create config identity source systemSeed start =
      (.ok (first, log), rest))
    {actions : List Action} (hallows : first.AllowsAll actions)
    (hparse : Packet.parse i2 = .ok packet) (hkind : packet.kind = .i2)
    (hreceiver : packet.receiver = first.hit) (address : Address) (now : Nat) :
    let engine := first.actAll actions
    let reply := engine.handlePacket i2 address now
    (∀ conn held, engine.table.find? packet.sender = some conn → conn.state = .r2Sent →
      conn.keys = some held → ∃ last, (mailTo packet.sender (first.mailedIn actions)).getLast? =
        some last ∧
        Packet.IsMarked .r2 packet.sender last.datagram ∧
        conn.lastSent = some ⟨.r2, last.datagram⟩ ∧
        engine.AnswersAgain packet conn held last now reply) ∧
    (∀ conn held, reply.result = .ok () → reply.engine.table.find? packet.sender = some conn →
      conn.state = .r2Sent → conn.keys = some held → ∃ r2, conn.lastSent = some ⟨.r2, r2⟩ ∧
        ∀ calls, (∀ call ∈ calls, call.Repeats first.hit packet.sender i2) →
          reply.engine.StaysAnswered i2 r2 conn calls) := by
  intro engine reply
  obtain ⟨-, -, hempty, -, -, hnewOpen, -⟩ := create_spec hcreate
  have hnew : Reachable first := .create hcreate
  have hreachable := hnew.actAll hallows
  have hopen := closed_actAll hnewOpen hallows
  have hhit : engine.hit = first.hit := (first.continues_actAll actions).hit
  have hours : packet.receiver = engine.hit := hreceiver.trans hhit.symm
  refine ⟨fun conn held hfind hstate hheld => ?_, fun conn held hresult hfind hstate hheld => ?_⟩
  · obtain ⟨hmem, hpeer⟩ := ConnectionTable.find?_eq_some_iff.mp hfind
    obtain ⟨sent, hsent, hmailed⟩ := last_mailed hnew hnewOpen hempty hallows hfind
    obtain ⟨reply, hreply, hr2⟩ := (hreachable.wellFormed hmem).lastReply hstate
    obtain rfl := Option.some.inj (hreply.symm.trans hsent)
    rw [hheld, Option.isSome_some, if_pos rfl] at hr2
    have hlast : conn.lastSent = some ⟨.r2, reply.datagram⟩ := by rw [hsent, ← hr2]
    have hmarked := hreachable.marks hmem reply hsent
    rw [hr2, hpeer] at hmarked
    exact ⟨_, hmailed, hmarked, hlast, answersAgain_handlePacket hopen hparse hkind hours hfind
      (hreachable.host_eq hmem) hstate (hreachable.outbox_eq_nil hmem) hheld hlast address now⟩
  · obtain ⟨r2, hsent, hanswered⟩ :=
      exists_answered hreachable hopen hparse hours hresult hfind hkind hstate hheld
    refine ⟨r2, hsent, fun calls hrepeats => hanswered.run hparse hkind fun call hmem => ?_⟩
    have hlater : reply.engine.hit = first.hit :=
      (engine.continues_handlePacket i2 address now).hit.trans hhit
    rw [show (engine.handlePacket i2 address now).engine.hit = first.hit from hlater]
    exact hrepeats call hmem

/-- A host that answered an I2 sends its R2 once more for each of two copies of it. -/
theorem exists_repeated_i2 : ∃ (first : Engine) (log : List Log.Event) (rest : EntropySource)
    (asked : Action) (i2 r2 : List UInt8) (packet : Packet) (conn : Connection) (held : KeySet)
    (last : Outgoing),
    create SampleHost.config (SampleHost.identity 2) (EntropySource.scripted [] 2) 0 0 =
      (.ok (first, log), rest) ∧
    first.AllowsAll [asked, .handlePacket i2 (.ofHost 1) 0] ∧
    Packet.parse i2 = .ok packet ∧ packet.kind = .i2 ∧ packet.receiver = first.hit ∧
    let engine := first.actAll [asked, .handlePacket i2 (.ofHost 1) 0]
    engine.table.find? packet.sender = some conn ∧ conn.state = .r2Sent ∧ conn.keys = some held ∧
    (mailTo packet.sender (first.mailedIn [asked, .handlePacket i2 (.ofHost 1) 0])).getLast? =
      some last ∧
    engine.AnswersAgain packet conn held last 0 (engine.handlePacket i2 (.ofHost 1) 0) ∧
    engine.queuedIn [.handlePacket i2 (.ofHost 1) 0, .handlePacket i2 (.ofHost 1) 0] =
      [⟨conn.address, r2⟩, ⟨conn.address, r2⟩] := by
  obtain ⟨initiator, hinitiator⟩ := SampleHost.exists_isNew 1
  obtain ⟨responder, hresponder⟩ := SampleHost.exists_isNew 2
  obtain ⟨log, rest, hcreate⟩ := hresponder.created
  let handshake := Handshake.prompt initiator responder 0
  have hconforms : handshake.Conforms := Handshake.conforms_sample hinitiator hresponder
  obtain ⟨puzzle, keys, hunderway⟩ := hconforms.underway
  obtain ⟨hresult, -, -, -, conn, hfind, hholds⟩ := hconforms.responds hunderway
  obtain ⟨ctx, sending, answer, sealed, hparty, hhost, hpeer, hseal, hencode, -⟩ := hunderway.answer
  have hcurve : ctx.identity.HasCurveKey := by
    rw [show ctx.identity = initiator.identity from congrArg Party.identity hparty,
      hinitiator.identity]
    exact SampleHost.hasCurveKey 1
  have hparse := Context.parse_i2 none hcurve hseal hencode
  obtain ⟨hkind, hsender, hreceiver⟩ := Context.header_i2 none hseal
  let packet := (sealed.withEcho none).canonical
  have hfrom : packet.sender = initiator.hit := hsender.trans hhost
  have hto : packet.receiver = responder.hit := hreceiver.trans hpeer
  let asked : Action := .handlePacket handshake.i1Bytes (.ofHost 1) 0
  have hknown :
      ((responder.actAll [asked]).handlePacket handshake.i2Bytes (.ofHost 1) 0).engine.table.find?
      packet.sender = some conn := hfrom ▸ hfind
  have hallowsOne : responder.AllowsAll [asked] := ⟨trivial, trivial⟩
  have hallows : responder.AllowsAll [asked, .handlePacket handshake.i2Bytes (.ofHost 1) 0] :=
    ⟨trivial, trivial, trivial⟩
  obtain ⟨-, hrepeats⟩ :=
    repeated_i2_is_answered_alike hcreate hallowsOne hparse hkind hto (.ofHost 1) 0
  obtain ⟨r2, -, hstays⟩ := hrepeats conn _ hresult hknown hholds.state hholds.keys
  have htwice := hstays [.handlePacket handshake.i2Bytes (.ofHost 1) 0,
    .handlePacket handshake.i2Bytes (.ofHost 1) 0] fun call hmem => by
      obtain rfl : call = .handlePacket handshake.i2Bytes (.ofHost 1) 0 := by simpa using hmem
      exact .again _ _
  have hqueued := htwice.queued
  simp only [List.countP_cons, List.countP_nil, Call.hands, decide_true, if_true] at hqueued
  obtain ⟨hagain, -⟩ := repeated_i2_is_answered_alike hcreate hallows hparse hkind hto (.ofHost 1) 0
  obtain ⟨last, hlast, -, -, hanswers⟩ := hagain conn _ hknown hholds.state hholds.keys
  exact ⟨responder, log, rest, asked, _, r2, packet, conn, _, last, hcreate, hallows, hparse,
    hkind, hto, hknown, hholds.state, hholds.keys, hlast, hanswers, hqueued⟩

end Engine

end DietExchange
