import DietExchange.Connection.Turn

namespace DietExchange

/-- What makes a connection move. A timeout comes to it as a look at its hold and a look at its
    puzzle, behind a sweep if one is due. -/
inductive Stimulus where
  | initiate
  | packet (packet : Packet)
  | hold
  | search
  | sweep

namespace Connection

/-- The connection with a packet sent, which is the last one from now on. -/
def transmit (conn : Connection) (kind : PacketKind) (datagram : List UInt8) : Connection :=
  { conn with lastSent := some ⟨kind, datagram⟩, outbox := conn.outbox ++ [.transmit datagram] }

/-- The connection in R2_SENT, with the hold up to `deadline`. -/
def holdTo (conn : Connection) (deadline : Nat) : Connection :=
  { conn.moveTo .r2Sent with holdUntil := some deadline }

/-- The connection with an I2 answered: the R2 is sent, the keys are there and the hold begins. -/
def respond (conn : Connection) (keys : KeySet) (cipher : CipherSuite) (datagram : List UInt8)
    (deadline : Nat) : Connection :=
  { conn.transmit .r2 datagram with keys := some keys, cipher := some cipher }.holdTo deadline

/-- The connection with its puzzle answered: the I2 is sent and the keys are there. -/
def conclude (conn : Connection) (keys : KeySet) (datagram : List UInt8) : Connection :=
  { { conn with pending := none }.transmit .i2 datagram with keys := some keys }.moveTo .i2Sent

/-- Whether a packet of this kind is taken up; every other is ignored. -/
def heeds (conn : Connection) (kind : PacketKind) : Bool :=
  match conn.state, kind with
  | .unassociated, .i1 | .unassociated, .i2 => true
  | .i1Sent, .r1 => !conn.isSolving
  | .i1Sent, .i2 => true
  | .i2Sent, .i2 => !decide (conn.host < conn.peer)
  | .i2Sent, .r2 => true
  | .r2Sent, .i2 => true
  | .established, .i2 => true
  | _, _ => false

/-- Whether an I2 that leads to these keys is answered with a new R2, once it was checked. -/
def AnswersI2 (conn : Connection) (keys : KeySet) : Prop :=
  conn.state = .unassociated ∨ (conn.state = .i2Sent ∧ ¬conn.host < conn.peer) ∨
    (conn.state = .r2Sent ∧ Turn.sameR2? conn keys = none) ∨ conn.state = .established

end Connection

/-- What our I2 has behind its tag. -/
def Packet.withEcho (packet : Packet) (echo : Option (List UInt8)) : Packet :=
  match echo with
  | some data => packet.push (.echoResponseUnsigned data)
  | none => packet

/-- When a hold that begins now ends. -/
def Context.holdEnd (ctx : Context) : Nat := ctx.now + ctx.config.r2SentHold

/-- What a stimulus can make of a connection. -/
inductive Connection.Move (ctx : Context) : Stimulus → Connection → Connection → Prop where
  | initiate {conn : Connection} {datagram : List UInt8} (hstate : conn.state = .unassociated)
    (hencode : (ctx.i1 conn).encode = .ok datagram) :
    Move ctx .initiate conn ((conn.transmit .i1 datagram).moveTo .i1Sent)
  | ignore {conn : Connection} {packet : Packet} (hdeaf : conn.heeds packet.kind = false) :
    Move ctx (.packet packet) conn conn
  | answerI1 {conn : Connection} {packet : Packet} {challenge : Block} {cookie : UInt16}
    {datagram : List UInt8} (hstate : conn.state = .unassociated) (hkind : packet.kind = .i1)
    (hmandatory : packet.checkMandatory = .ok ())
    (hoffer : ctx.checkOffer packet.dhGroupList? = .ok ())
    (hissue : ctx.issuer.issue conn.peer conn.host [] = .ok challenge)
    (hencode : (ctx.r1 conn challenge cookie).encode = .ok datagram) :
    Move ctx (.packet packet) conn (conn.transmit .r1 datagram)
  | answerI2AsI1 {conn : Connection} {packet : Packet} {challenge : Block} {cookie : UInt16}
    {datagram : List UInt8} (hstate : conn.state = .i1Sent) (hkind : packet.kind = .i2)
    (hmandatory : packet.checkMandatory = .ok ())
    (hoffer : ctx.checkOffer packet.dhGroupList? = .ok ())
    (hissue : ctx.issuer.issue conn.peer conn.host [] = .ok challenge)
    (hencode : (ctx.r1 conn challenge cookie).encode = .ok datagram) :
    Move ctx (.packet packet) conn ((conn.transmit .r1 datagram).holdTo ctx.holdEnd)
  | takeUpR1 {conn : Connection} {packet : Packet} {puzzle : Puzzle} {keys : KeySet}
    {search : PuzzleSearch} (hstate : conn.state = .i1Sent) (hkind : packet.kind = .r1)
    (hidle : conn.pending = none)
    (hvalid : ctx.validateR1 conn.host conn.peer packet = .ok (puzzle, keys))
    (hstart : PuzzleSearch.start puzzle.challenge conn.host conn.peer puzzle.k = .ok search) :
    Move ctx (.packet packet) conn
      { conn with pending := some ⟨search, puzzle, keys, packet.echoRequest?⟩ }
  | answerI2 {conn : Connection} {packet r2 : Packet} {keys : KeySet} {cipher : CipherSuite}
    {datagram : List UInt8} (hanswers : conn.AnswersI2 keys) (hkind : packet.kind = .i2)
    (hvalid : ctx.validateI2 conn.host conn.peer packet = .ok (keys, cipher))
    (htag : (ctx.r2 conn).recalculateMac keys.responder.integrity = .ok r2)
    (hencode : r2.encode = .ok datagram) :
    Move ctx (.packet packet) conn (conn.respond keys cipher datagram ctx.holdEnd)
  | resendR2 {conn : Connection} {packet : Packet} {keys : KeySet} {cipher : CipherSuite}
    {datagram : List UInt8} (hstate : conn.state = .r2Sent) (hkind : packet.kind = .i2)
    (hvalid : ctx.validateI2 conn.host conn.peer packet = .ok (keys, cipher))
    (hsame : Turn.sameR2? conn keys = some datagram) :
    Move ctx (.packet packet) conn
      { conn.emit (.transmit datagram) with holdUntil := some ctx.holdEnd }
  | acceptR2 {conn : Connection} {packet : Packet} (hstate : conn.state = .i2Sent)
    (hkind : packet.kind = .r2) (hvalid : ctx.validateR2 conn.keys packet = .ok ()) :
    Move ctx (.packet packet) conn ((conn.moveTo .established).emit .connected)
  | wait {conn : Connection} (hearly : ∀ deadline, conn.holdUntil = some deadline →
      ctx.now < deadline) : Move ctx .hold conn conn
  | establish {conn : Connection} {deadline : Nat} (hhold : conn.holdUntil = some deadline)
    (hdue : deadline ≤ ctx.now) (hkeys : conn.keys.isSome) :
    Move ctx .hold conn (({ conn with holdUntil := none }.moveTo .established).emit .connected)
  | giveUp {conn : Connection} {deadline : Nat} (hhold : conn.holdUntil = some deadline)
    (hdue : deadline ≤ ctx.now) (hkeys : conn.keys = none) :
    Move ctx .hold conn ({ conn with holdUntil := none }.moveTo .unassociated)
  | rest {conn : Connection} (hidle : conn.pending = none) : Move ctx .search conn conn
  | search {conn : Connection} {pending : PendingAnswer} {rng : RandomStream}
    (hpending : conn.pending = some pending)
    (hnone : (pending.search.step ctx.config.solveBatch rng).answer = none) :
    Move ctx .search conn { conn with pending := some { pending with
      search := (pending.search.step ctx.config.solveBatch rng).search } }
  | solve {conn : Connection} {pending : PendingAnswer} {rng : RandomStream} {answer : Block}
    {i2 : Packet} {datagram : List UInt8} (hpending : conn.pending = some pending)
    (hanswer : (pending.search.step ctx.config.solveBatch rng).answer = some answer)
    (htag : (ctx.i2 conn pending.puzzle answer).recalculateMac pending.keys.initiator.integrity =
      .ok i2)
    (hencode : (i2.withEcho pending.echo).encode = .ok datagram) :
    Move ctx .search conn (conn.conclude pending.keys datagram)
  | lose {conn : Connection} {pending : PendingAnswer} {rng : RandomStream} {answer : Block}
    (hpending : conn.pending = some pending)
    (hanswer : (pending.search.step ctx.config.solveBatch rng).answer = some answer)
    (hfail : ∀ i2 datagram, (ctx.i2 conn pending.puzzle answer).recalculateMac
      pending.keys.initiator.integrity = .ok i2 → (i2.withEcho pending.echo).encode ≠
        .ok datagram) :
    Move ctx .search conn { conn with pending := none }
  | resend {conn : Connection} {sent : SentPacket} (hstate : conn.state.needsRetransmission)
    (hidle : conn.pending = none) (hsent : conn.lastSent = some sent) :
    Move ctx .sweep conn (conn.emit (.transmit sent.datagram))

namespace Packet

theorem kind_of_recalculateMac {packet sealed : Packet} {key : List UInt8}
    (hseal : packet.recalculateMac key = .ok sealed) : sealed.kind = packet.kind := by
  obtain ⟨tag, -, hrest⟩ := bind_eq_ok_iff.mp hseal
  split at hrest
  · obtain rfl := pure_eq_ok_iff.mp hrest
    rfl
  · exact absurd hrest throw_ne_ok

@[simp]
theorem kind_withEcho (packet : Packet) (echo : Option (List UInt8)) :
    (packet.withEcho echo).kind = packet.kind := by
  cases echo <;> rfl

end Packet

namespace Turn

theorem send_eq_ok {turn after : Turn} {packet : Packet} (hsend : turn.send packet = .ok after) :
    ∃ datagram, packet.encode = .ok datagram ∧ after.rng = turn.rng ∧
      after.conn = turn.conn.transmit packet.kind datagram := by
  obtain ⟨datagram, hencode, hpure⟩ := bind_eq_ok_iff.mp hsend
  obtain rfl := pure_eq_ok_iff.mp hpure
  exact ⟨datagram, hencode, rfl, rfl⟩

theorem exists_send_eq_ok (turn : Turn) {packet : Packet} {datagram : List UInt8}
    (hencode : packet.encode = .ok datagram) : ∃ after, turn.send packet = .ok after :=
  ⟨_, bind_eq_ok_iff.mpr ⟨datagram, hencode, rfl⟩⟩

theorem move_of_initiate {turn after : Turn} {ctx : Context}
    (hinitiate : turn.initiate ctx = .ok after) : turn.conn.Move ctx .initiate after.conn := by
  unfold initiate at hinitiate
  split at hinitiate
  · cases hinitiate
  · rename_i hstate
    obtain ⟨sent, hsend, hpure⟩ := bind_eq_ok_iff.mp hinitiate
    obtain rfl := pure_eq_ok_iff.mp hpure
    obtain ⟨datagram, hencode, -, hconn⟩ := send_eq_ok hsend
    have hmove : (sent.moveTo .i1Sent).conn = (turn.conn.transmit .i1 datagram).moveTo .i1Sent :=
      congrArg (·.moveTo .i1Sent) hconn
    rw [hmove]
    exact .initiate (Decidable.not_not.mp hstate) hencode

theorem answerI1_eq_ok {turn after : Turn} {ctx : Context} {packet : Packet}
    (hanswer : turn.answerI1 ctx packet = .ok after) :
    ∃ challenge cookie datagram, packet.checkMandatory = .ok () ∧
      ctx.checkOffer packet.dhGroupList? = .ok () ∧
      ctx.issuer.issue turn.conn.peer turn.conn.host [] = .ok challenge ∧
      (ctx.r1 turn.conn challenge cookie).encode = .ok datagram ∧
      after.conn = turn.conn.transmit .r1 datagram := by
  obtain ⟨⟨⟩, hmandatory, hanswer⟩ := bind_eq_ok_iff.mp hanswer
  obtain ⟨⟨⟩, hoffer, hanswer⟩ := bind_eq_ok_iff.mp hanswer
  obtain ⟨challenge, hissue, hsend⟩ := bind_eq_ok_iff.mp hanswer
  obtain ⟨datagram, hencode, -, hconn⟩ := send_eq_ok hsend
  exact ⟨challenge, _, datagram, hmandatory, hoffer, hissue, hencode, hconn⟩

theorem sendR2_eq_ok {turn after : Turn} {ctx : Context} {keys : KeySet} {cipher : CipherSuite}
    (hsend : turn.sendR2 ctx keys cipher = .ok after) :
    ∃ r2 datagram, (ctx.r2 turn.conn).recalculateMac keys.responder.integrity = .ok r2 ∧
      r2.encode = .ok datagram ∧
      after.conn = turn.conn.respond keys cipher datagram ctx.holdEnd := by
  obtain ⟨r2, htag, hrest⟩ := bind_eq_ok_iff.mp hsend
  obtain ⟨sent, hsent, hpure⟩ := bind_eq_ok_iff.mp hrest
  obtain rfl := pure_eq_ok_iff.mp hpure
  obtain ⟨datagram, hencode, -, hconn⟩ := send_eq_ok hsent
  have hkind : r2.kind = .r2 := Packet.kind_of_recalculateMac htag
  refine ⟨r2, datagram, htag, hencode, ?_⟩
  change { sent.conn with keys := some keys, cipher := some cipher }.holdTo ctx.holdEnd = _
  rw [hconn, hkind]
  rfl

theorem move_of_answerI2 {turn after : Turn} {ctx : Context} {packet : Packet}
    (hkind : packet.kind = .i2) (hanswers : ∀ keys, turn.conn.AnswersI2 keys)
    (hanswer : turn.answerI2 ctx packet = .ok after) :
    turn.conn.Move ctx (.packet packet) after.conn := by
  obtain ⟨⟨keys, cipher⟩, hvalid, hsend⟩ := bind_eq_ok_iff.mp hanswer
  obtain ⟨r2, datagram, htag, hencode, hconn⟩ := sendR2_eq_ok hsend
  rw [hconn]
  exact .answerI2 (hanswers keys) hkind hvalid htag hencode

theorem move_of_answerI2Again {turn after : Turn} {ctx : Context} {packet : Packet}
    (hstate : turn.conn.state = .r2Sent) (hkind : packet.kind = .i2)
    (hanswer : turn.answerI2Again ctx packet = .ok after) :
    turn.conn.Move ctx (.packet packet) after.conn := by
  obtain ⟨⟨keys, cipher⟩, hvalid, hrest⟩ := bind_eq_ok_iff.mp hanswer
  dsimp only at hrest
  split at hrest
  · rename_i datagram hsame
    obtain rfl := pure_eq_ok_iff.mp hrest
    exact .resendR2 hstate hkind hvalid hsame
  · rename_i hsame
    obtain ⟨r2, datagram, htag, hencode, hconn⟩ := sendR2_eq_ok hrest
    rw [hconn]
    exact .answerI2 (.inr (.inr (.inl ⟨hstate, hsame⟩))) hkind hvalid htag hencode

theorem move_of_acceptR1 {turn after : Turn} {ctx : Context} {packet : Packet}
    (hstate : turn.conn.state = .i1Sent) (hkind : packet.kind = .r1)
    (haccept : turn.acceptR1 ctx packet = .ok after) :
    turn.conn.Move ctx (.packet packet) after.conn := by
  unfold acceptR1 at haccept
  split at haccept
  · rename_i hsolving
    obtain rfl := Except.ok.inj haccept
    refine .ignore ?_
    simp [Connection.heeds, hstate, hkind, hsolving]
  · rename_i hidle
    obtain ⟨⟨puzzle, keys⟩, hvalid, hrest⟩ := bind_eq_ok_iff.mp haccept
    obtain ⟨search, hstart, hpure⟩ := bind_eq_ok_iff.mp hrest
    obtain rfl := pure_eq_ok_iff.mp hpure
    have hpending : turn.conn.pending = none := by simpa [Connection.isSolving] using hidle
    exact .takeUpR1 hstate hkind hpending hvalid hstart

theorem move_of_acceptR2 {turn after : Turn} {ctx : Context} {packet : Packet}
    (hstate : turn.conn.state = .i2Sent) (hkind : packet.kind = .r2)
    (haccept : turn.acceptR2 ctx packet = .ok after) :
    turn.conn.Move ctx (.packet packet) after.conn := by
  obtain ⟨⟨⟩, hvalid, hpure⟩ := bind_eq_ok_iff.mp haccept
  obtain rfl := pure_eq_ok_iff.mp hpure
  exact .acceptR2 hstate hkind hvalid

/-- Whatever a packet leads to, if it is not refused, is a move. -/
theorem move_of_receive {turn after : Turn} {ctx : Context} {packet : Packet}
    (hreceive : turn.receive ctx packet = .ok after) :
    turn.conn.Move ctx (.packet packet) after.conn := by
  unfold receive at hreceive
  split at hreceive
  · rename_i hstate hkind
    obtain ⟨challenge, cookie, datagram, hmandatory, hoffer, hissue, hencode, hconn⟩ :=
      answerI1_eq_ok hreceive
    rw [hconn]
    exact .answerI1 hstate hkind hmandatory hoffer hissue hencode
  · rename_i hstate hkind
    exact move_of_answerI2 hkind (fun _ => .inl hstate) hreceive
  · rename_i hstate hkind
    exact move_of_acceptR1 hstate hkind hreceive
  · rename_i hstate hkind
    obtain ⟨answered, hanswer, hpure⟩ := bind_eq_ok_iff.mp hreceive
    obtain rfl := pure_eq_ok_iff.mp hpure
    obtain ⟨challenge, cookie, datagram, hmandatory, hoffer, hissue, hencode, hconn⟩ :=
      answerI1_eq_ok hanswer
    have hhold : (answered.holdR2 ctx).conn =
        (turn.conn.transmit .r1 datagram).holdTo ctx.holdEnd :=
      congrArg (·.holdTo ctx.holdEnd) hconn
    rw [hhold]
    exact .answerI2AsI1 hstate hkind hmandatory hoffer hissue hencode
  · rename_i hstate hkind
    split at hreceive
    · rename_i hsmaller
      obtain rfl := Except.ok.inj hreceive
      refine .ignore ?_
      simp [Connection.heeds, hstate, hkind, hsmaller]
    · rename_i hlarger
      exact move_of_answerI2 hkind (fun _ => .inr (.inl ⟨hstate, hlarger⟩)) hreceive
  · rename_i hstate hkind
    exact move_of_acceptR2 hstate hkind hreceive
  · rename_i hstate hkind
    exact move_of_answerI2Again hstate hkind hreceive
  · rename_i hstate hkind
    exact move_of_answerI2 hkind (fun _ => .inr (.inr (.inr hstate))) hreceive
  · obtain rfl := Except.ok.inj hreceive
    refine .ignore ?_
    unfold Connection.heeds
    split <;> simp_all

theorem move_of_endHold (turn : Turn) (ctx : Context) :
    turn.conn.Move ctx .hold (turn.endHold ctx).conn := by
  unfold endHold
  split
  · rename_i deadline hhold
    split
    · rename_i hearly
      refine .wait ?_
      intro later hlater
      rw [hhold] at hlater
      obtain rfl := Option.some.inj hlater
      exact hearly
    · rename_i hdue
      dsimp only
      split
      · rename_i hkeys
        exact .establish hhold (Nat.not_lt.mp hdue) hkeys
      · rename_i hkeys
        exact .giveUp hhold (Nat.not_lt.mp hdue) (by simpa using hkeys)
  · rename_i hnone
    refine .wait ?_
    intro deadline hhold
    rw [hnone] at hhold
    cases hhold

theorem sendI2_eq_ok {turn after : Turn} {ctx : Context} {pending : PendingAnswer} {answer : Block}
    (hsend : turn.sendI2 ctx pending answer = .ok after) :
    ∃ i2 datagram, (ctx.i2 turn.conn pending.puzzle answer).recalculateMac
        pending.keys.initiator.integrity = .ok i2 ∧
      (i2.withEcho pending.echo).encode = .ok datagram ∧
      after.conn = { turn.conn.transmit .i2 datagram with keys := some pending.keys }.moveTo
        .i2Sent := by
  obtain ⟨i2, htag, hrest⟩ := bind_eq_ok_iff.mp hsend
  obtain ⟨sent, hsent, hpure⟩ := bind_eq_ok_iff.mp hrest
  obtain rfl := pure_eq_ok_iff.mp hpure
  obtain ⟨datagram, hencode, -, hconn⟩ := send_eq_ok hsent
  have hkind : (i2.withEcho pending.echo).kind = .i2 := by
    rw [Packet.kind_withEcho]
    exact Packet.kind_of_recalculateMac htag
  refine ⟨i2, datagram, htag, hencode, ?_⟩
  change { sent.conn with keys := some pending.keys }.moveTo .i2Sent = _
  rw [hconn]
  change { turn.conn.transmit (i2.withEcho pending.echo).kind datagram with
    keys := some pending.keys }.moveTo .i2Sent = _
  rw [hkind]

theorem encode_ne_ok_of_sendI2_eq_error {turn : Turn} {ctx : Context} {pending : PendingAnswer}
    {answer : Block} {error : Error} (hsend : turn.sendI2 ctx pending answer = .error error)
    {i2 : Packet} {datagram : List UInt8}
    (htag : (ctx.i2 turn.conn pending.puzzle answer).recalculateMac
      pending.keys.initiator.integrity =
      .ok i2) : (i2.withEcho pending.echo).encode ≠ .ok datagram := by
  intro hencode
  obtain ⟨sent, hsent⟩ := turn.exists_send_eq_ok hencode
  have hok : ∃ after, turn.sendI2 ctx pending answer = .ok after :=
    ⟨_, bind_eq_ok_iff.mpr ⟨i2, htag, bind_eq_ok_iff.mpr ⟨sent, hsent, rfl⟩⟩⟩
  obtain ⟨after, hafter⟩ := hok
  rw [hsend] at hafter
  cases hafter

theorem move_of_solveStep (turn : Turn) (ctx : Context) :
    turn.conn.Move ctx .search (turn.solveStep ctx).1.conn := by
  unfold solveStep
  split
  · rename_i hidle
    exact .rest hidle
  · rename_i pending hpending
    dsimp only
    split
    · rename_i hnone
      exact .search hpending hnone
    · rename_i answer hanswer
      split
      · rename_i after hsend
        obtain ⟨i2, datagram, htag, hencode, hconn⟩ := sendI2_eq_ok hsend
        rw [hconn]
        exact .solve hpending hanswer htag hencode
      · rename_i error hsend
        refine .lose hpending hanswer ?_
        intro i2 datagram htag
        exact encode_ne_ok_of_sendI2_eq_error hsend htag

end Turn

theorem Connection.move_of_retransmit? {conn resent : Connection} {event : Log.Event}
    (ctx : Context) (hresend : conn.retransmit? = some (resent, event)) :
      conn.Move ctx .sweep resent := by
  unfold retransmit? at hresend
  split at hresend
  · rename_i hwaiting
    simp only [Bool.and_eq_true, Bool.not_eq_true', isSolving, Option.isSome_eq_false_iff,
      Option.isNone_iff_eq_none] at hwaiting
    obtain ⟨sent, hsent, hpair⟩ := Option.map_eq_some_iff.mp hresend
    obtain ⟨rfl, -⟩ := Prod.mk.inj hpair
    exact .resend hwaiting.1 hwaiting.2 hsent
  · cases hresend

end DietExchange
