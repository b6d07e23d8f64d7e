import DietExchange.Proofs.Engine.Impact

namespace DietExchange

namespace Connection

variable {ctx : Context} {stimulus : Stimulus} {conn moved : Connection}

/-- Whether a connection asks neither to begin nor to end sending its last packet again. -/
def IsCalm (conn : Connection) : Prop :=
  ∀ signal ∈ conn.outbox, signal ≠ .startRetransmission ∧ signal ≠ .stopRetransmission

theorem isCalm_of_outbox (houtbox : conn.outbox = []) : conn.IsCalm := by
  intro signal hmem
  rw [houtbox] at hmem
  exact absurd hmem List.not_mem_nil

theorem IsCalm.emit (hcalm : conn.IsCalm) (signal : Signal)
    (hsignal : signal ≠ .startRetransmission ∧ signal ≠ .stopRetransmission) :
    (conn.emit signal).IsCalm := by
  intro found hmem
  rcases List.mem_append.mp hmem with hold | hnew
  · exact hcalm found hold
  · rw [List.mem_singleton.mp hnew]
    exact hsignal

theorem IsCalm.moveTo (hcalm : conn.IsCalm) {next : State}
    (hsame : conn.state.needsRetransmission = next.needsRetransmission) :
      (conn.moveTo next).IsCalm := by
  have hnone : sweepSignals conn.state next = [] := by
    unfold sweepSignals
    rw [hsame]
    cases next.needsRetransmission <;> rfl
  unfold Connection.moveTo
  split
  · exact hcalm
  · intro signal hmem
    dsimp only at hmem
    rw [hnone, List.append_nil] at hmem
    exact hcalm signal hmem

/-- In no stage of a timeout does a connection come to wait for an answer or cease to. -/
theorem IsCalm.move (hcalm : conn.IsCalm) (hform : conn.WellFormed)
    (hstimulus : stimulus = .sweep ∨ stimulus = .hold ∨ stimulus = .search)
    (hmove : conn.Move ctx stimulus moved) : moved.IsCalm := by
  have hheld : ∀ deadline, conn.holdUntil = some deadline → conn.state = .r2Sent :=
    fun deadline hhold =>
    hform.hold.mp (by rw [hhold]; rfl)
  cases hmove with
  | wait | rest | search | lose => exact hcalm
  | resend => exact hcalm.emit _ (by simp)
  | establish hhold =>
    have hstarts : { conn with holdUntil := none }.IsCalm := hcalm
    have hstate := hheld _ hhold
    exact (hstarts.moveTo (by rw [hstate]; rfl)).emit _ (by simp)
  | giveUp hhold =>
    have hstarts : { conn with holdUntil := none }.IsCalm := hcalm
    have hstate := hheld _ hhold
    exact hstarts.moveTo (by rw [hstate]; rfl)
  | @solve _ pending _ _ _ datagram hpending =>
    have hsends : { { conn with pending := none }.transmit .i2 datagram with
        keys := some pending.keys }.IsCalm := hcalm.emit (.transmit datagram) (by simp)
    have hstate := (hform.pending pending hpending).1
    exact hsends.moveTo (by rw [transmit, hstate]; rfl)
  | initiate | ignore | answerI1 | answerI2AsI1 | takeUpR1 | answerI2 | resendR2 | acceptR2 =>
    simp at hstimulus

end Connection

namespace Engine

/-- To settle such a connection adds to the queues what it asks for. -/
theorem settle_of_calm (engine : Engine) {conn : Connection} (hcalm : conn.IsCalm) :
    (engine.settle conn).1 = { engine with
      table := engine.table.put conn.settled
      datagrams := engine.datagrams ++ conn.outgoing
      established := engine.established ++ conn.completions } := by
  have hstart : .startRetransmission ∉ conn.outbox := fun hmem => (hcalm _ hmem).1 rfl
  have hstop : conn.outbox.count .stopRetransmission = 0 :=
    List.count_eq_zero.mpr fun hmem => (hcalm _ hmem).2 rfl
  change { (engine.obeyAll conn.peer conn.address conn.outbox).1 with
    table := (engine.obeyAll conn.peer conn.address conn.outbox).1.table.put conn.settled } = _
  rw [engine.obeyAll_of_not_start conn.peer conn.address hstart, hstop]
  rfl

section Packet

variable {engine : Engine} (hopen : engine.closed = false) {datagram : List UInt8} {packet : Packet}
  (hparse : Packet.parse datagram = .ok packet) (hreceiver : packet.receiver = engine.hit)
  (source : Address) (now : Nat) {conn : Connection}
  (hfind : engine.table.find? packet.sender = some conn)
include hopen hparse hreceiver hfind

/-- A packet that its connection refuses leaves no trace but the time. -/
theorem handlePacket_of_refused {error : Error} (hreceive : Turn.receive ⟨conn, engine.rng, []⟩
      (engine.context (max engine.lastNow now)) packet = .error error) :
    (engine.handlePacket datagram source now).result = .error error ∧
      (engine.handlePacket datagram source now).engine = engine.advance now := by
  rw [handlePacket_eq_deliver hopen hparse hreceiver source now hfind]
  unfold deliver
  rw [show Turn.receive ⟨conn, (engine.advance now).rng, []⟩
    ((engine.advance now).context (engine.advance now).lastNow) packet = .error error from hreceive]
  exact ⟨rfl, rfl⟩

/-- A packet that its connection takes calmly changes this connection and what is queued. -/
theorem handlePacket_of_calm {turn : Turn} (hreceive : Turn.receive ⟨conn, engine.rng, []⟩
      (engine.context (max engine.lastNow now)) packet = .ok turn) (hcalm : turn.conn.IsCalm) :
    (engine.handlePacket datagram source now).result = .ok () ∧
      (engine.handlePacket datagram source now).engine = { engine.advance now with
        rng := turn.rng
        table := engine.table.put turn.conn.settled
        datagrams := engine.datagrams ++ turn.conn.outgoing
        established := engine.established ++ turn.conn.completions } := by
  obtain ⟨hresult, hengine⟩ := (engine.advance now).deliver_of_ok false hreceive
  rw [handlePacket_eq_deliver hopen hparse hreceiver source now hfind, hresult, hengine,
    if_neg (by simp)]
  exact ⟨rfl, settle_of_calm { engine.advance now with rng := turn.rng } hcalm⟩

end Packet

end Engine

end DietExchange
