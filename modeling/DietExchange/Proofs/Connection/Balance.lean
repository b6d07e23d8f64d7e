import DietExchange.Proofs.Connection.Move

namespace DietExchange

/-- Whether signals lead from whether a connection waits to whether it waits after them: it begins
    to wait only if it does not, and it stops only if it does. -/
inductive Signal.Leads : Bool → List Signal → Bool → Prop where
  | nil (waits : Bool) : Leads waits [] waits
  | start {rest : List Signal} {waits : Bool} (hrest : Leads true rest waits) :
    Leads false (.startRetransmission :: rest) waits
  | stop {rest : List Signal} {waits : Bool} (hrest : Leads false rest waits) :
    Leads true (.stopRetransmission :: rest) waits
  | transmit {before waits : Bool} {rest : List Signal} (datagram : List UInt8)
    (hrest : Leads before rest waits) : Leads before (.transmit datagram :: rest) waits
  | connected {before waits : Bool} {rest : List Signal} (hrest : Leads before rest waits) :
    Leads before (.connected :: rest) waits

theorem Signal.Leads.append {before between waits : Bool} {front back : List Signal}
    (hfront : Leads before front between) (hback : Leads between back waits) :
    Leads before (front ++ back) waits := by
  induction hfront with
  | nil => exact hback
  | start _ ih => exact .start (ih hback)
  | stop _ ih => exact .stop (ih hback)
  | transmit datagram _ ih => exact .transmit datagram (ih hback)
  | connected _ ih => exact .connected (ih hback)

/-- A connection stops to wait when it was waiting. -/
theorem Signal.Leads.of_append_stop {before waits : Bool} {front rest : List Signal}
    (hleads : Leads before (front ++ .stopRetransmission :: rest) waits) :
      Leads before front true := by
  induction front generalizing before with
  | nil =>
    cases hleads
    exact .nil true
  | cons signal front ih =>
    cases hleads with
    | start hrest => exact .start (ih hrest)
    | stop hrest => exact .stop (ih hrest)
    | transmit datagram hrest => exact .transmit datagram (ih hrest)
    | connected hrest => exact .connected (ih hrest)

namespace Connection

theorem leads_sweepSignals (before after : State) :
    Signal.Leads before.needsRetransmission (sweepSignals before after)
      after.needsRetransmission := by
  unfold sweepSignals
  cases before.needsRetransmission <;> cases after.needsRetransmission
  · exact .nil _
  · exact .start (.nil _)
  · exact .stop (.nil _)
  · exact .nil _

/-- Whether what a connection asks of its engine leads from whether it waited to whether it
    waits. -/
def Reports (waited : Bool) (conn : Connection) : Prop :=
  Signal.Leads waited conn.outbox conn.state.needsRetransmission

variable {waited : Bool} {conn : Connection} (hreports : conn.Reports waited)
include hreports

theorem Reports.moveTo (next : State) : (conn.moveTo next).Reports waited := by
  unfold Connection.moveTo
  split
  · exact hreports
  · exact hreports.append (leads_sweepSignals _ _)

theorem Reports.transmit (kind : PacketKind) (datagram : List UInt8) :
    (conn.transmit kind datagram).Reports waited :=
  Signal.Leads.append hreports (.transmit datagram (.nil _))

theorem Reports.emit_transmit (datagram : List UInt8) :
    (conn.emit (.transmit datagram)).Reports waited :=
  Signal.Leads.append hreports (.transmit datagram (.nil _))

theorem Reports.emit_connected : (conn.emit .connected).Reports waited :=
  Signal.Leads.append hreports (.connected (.nil _))

theorem Reports.holdTo (deadline : Nat) : (conn.holdTo deadline).Reports waited :=
  hreports.moveTo .r2Sent

/-- Whatever moves a connection, it tells when it begins to wait and when it stops. -/
theorem Reports.move {ctx : Context} {stimulus : Stimulus} {after : Connection}
    (hmove : conn.Move ctx stimulus after) : after.Reports waited := by
  cases hmove with
  | ignore | takeUpR1 | wait | rest | search | lose => exact hreports
  | initiate => exact (hreports.transmit _ _).moveTo _
  | answerI1 => exact hreports.transmit _ _
  | answerI2AsI1 => exact (hreports.transmit _ _).holdTo _
  | resendR2 | resend => exact hreports.emit_transmit _
  | acceptR2 => exact (hreports.moveTo _).emit_connected
  -- what else these change of the connection does not matter
  | answerI2 =>
    refine Reports.holdTo ?_ _
    exact hreports.transmit .r2 _
  | establish =>
    refine Reports.emit_connected (Reports.moveTo ?_ _)
    exact hreports
  | giveUp =>
    refine Reports.moveTo ?_ _
    exact hreports
  | solve =>
    refine Reports.moveTo ?_ _
    exact Reports.transmit hreports .i2 _

/-- So it does when it sees the time. -/
theorem Reports.timeout (rng : RandomStream) (log : List Log.Event) (ctx : Context) :
    (Turn.timeout ⟨conn, rng, log⟩ ctx).1.conn.Reports waited :=
  (hreports.move (Turn.move_of_endHold ⟨conn, rng, log⟩ ctx)).move (Turn.move_of_solveStep _ ctx)

end Connection

end DietExchange
