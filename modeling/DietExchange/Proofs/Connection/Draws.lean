import DietExchange.Proofs.Connection.Sent

namespace DietExchange.Turn

/-- The turn with another random stream. -/
def withRng (rng : RandomStream) (turn : Turn) : Turn := { turn with rng := rng }

@[simp]
theorem conn_withRng (rng : RandomStream) (turn : Turn) : (turn.withRng rng).conn = turn.conn := rfl

section Steady

variable (turn : Turn) (rng : RandomStream) (ctx : Context) (packet : Packet)

/-- A check takes no notice of the stream. -/
theorem bind_withRng {α : Type} {rng : RandomStream} (outcome : Except Error α)
    {changed plain : α → Except Error Turn}
    (hnext : ∀ value, changed value = (plain value).map (withRng rng)) :
    outcome >>= changed = (outcome >>= plain).map (withRng rng) := by
  cases outcome with
  | error error => rfl
  | ok value => exact hnext value

theorem send_withRng : (turn.withRng rng).send packet = (turn.send packet).map (withRng rng) := by
  unfold send
  exact bind_withRng packet.encode fun _ => rfl

theorem sendR2_withRng (keys : KeySet) (cipher : CipherSuite) :
    (turn.withRng rng).sendR2 ctx keys cipher =
      (turn.sendR2 ctx keys cipher).map (withRng rng) := by
  unfold sendR2
  refine bind_withRng ((ctx.r2 turn.conn).recalculateMac keys.responder.integrity) fun r2 => ?_
  rw [send_withRng]
  cases turn.send r2 <;> rfl

theorem answerI2_withRng :
    (turn.withRng rng).answerI2 ctx packet = (turn.answerI2 ctx packet).map (withRng rng) := by
  unfold answerI2
  exact bind_withRng (ctx.validateI2 turn.conn.host turn.conn.peer packet) fun accepted =>
    sendR2_withRng turn rng ctx accepted.1 accepted.2

theorem answerI2Again_withRng :
    (turn.withRng rng).answerI2Again ctx packet =
      (turn.answerI2Again ctx packet).map (withRng rng) := by
  unfold answerI2Again
  refine bind_withRng (ctx.validateI2 turn.conn.host turn.conn.peer packet) fun accepted => ?_
  rw [conn_withRng]
  dsimp only
  split
  · rfl
  · exact sendR2_withRng turn rng ctx accepted.1 accepted.2

theorem acceptR1_withRng :
    (turn.withRng rng).acceptR1 ctx packet = (turn.acceptR1 ctx packet).map (withRng rng) := by
  unfold acceptR1
  rw [conn_withRng]
  split
  · rfl
  · exact bind_withRng (ctx.validateR1 turn.conn.host turn.conn.peer packet) fun accepted =>
      bind_withRng (PuzzleSearch.start accepted.1.challenge turn.conn.host turn.conn.peer
        accepted.1.k) fun _ => rfl

theorem acceptR2_withRng :
    (turn.withRng rng).acceptR2 ctx packet = (turn.acceptR2 ctx packet).map (withRng rng) := by
  unfold acceptR2
  exact bind_withRng (ctx.validateR2 turn.conn.keys packet) fun _ => rfl

/-- What is answered like an I1 is refused whatever the stream is, or it is answered with an R1. -/
theorem answerI1_withRng (hkey : ctx.identity.HasCurveKey) :
    ((turn.withRng rng).answerI1 ctx packet = (turn.answerI1 ctx packet).map (withRng rng)) ∨
      ∃ after challenge cookie datagram, turn.answerI1 ctx packet = .ok after ∧
        (ctx.r1 turn.conn challenge cookie).encode = .ok datagram ∧
        after.conn = turn.conn.transmit .r1 datagram := by
  unfold answerI1
  rw [conn_withRng]
  cases packet.checkMandatory with
  | error error => exact .inl rfl
  | ok =>
    cases ctx.checkOffer packet.dhGroupList? with
    | error error => exact .inl rfl
    | ok =>
      cases ctx.issuer.issue turn.conn.peer turn.conn.host [] with
      | error error => exact .inl rfl
      | ok challenge =>
        obtain ⟨datagram, hencode⟩ :=
          Context.exists_encode_r1 hkey turn.conn challenge turn.rng.word16.1
        obtain ⟨after, hsend⟩ := exists_send_eq_ok { turn with rng := turn.rng.word16.2 } hencode
        obtain ⟨sent, hsent, -, hconn⟩ := send_eq_ok hsend
        exact .inr ⟨after, challenge, _, sent, hsend, hsent, hconn⟩

/-- A packet leads to the same whatever the random stream is, unless it is answered with an R1. -/
theorem receive_withRng (hkey : ctx.identity.HasCurveKey) :
    ((turn.withRng rng).receive ctx packet = (turn.receive ctx packet).map (withRng rng)) ∨
      ∃ after challenge cookie datagram, turn.receive ctx packet = .ok after ∧
        (ctx.r1 turn.conn challenge cookie).encode = .ok datagram ∧
        .transmit datagram ∈ after.conn.outbox := by
  unfold receive
  rw [conn_withRng]
  split
  · rcases answerI1_withRng turn rng ctx packet hkey with hsteady |
      ⟨after, challenge, cookie, datagram, hanswer, hencode, hconn⟩
    · exact .inl hsteady
    · exact .inr ⟨after, challenge, cookie, datagram, hanswer, hencode,
        by simp [hconn, Connection.transmit]⟩
  · exact .inl (answerI2_withRng turn rng ctx packet)
  · exact .inl (acceptR1_withRng turn rng ctx packet)
  · rcases answerI1_withRng turn rng ctx packet hkey with hsteady |
      ⟨after, challenge, cookie, datagram, hanswer, hencode, hconn⟩
    · rw [hsteady]
      left
      cases turn.answerI1 ctx packet <;> rfl
    · have hsent : .transmit datagram ∈ (after.conn.moveTo .r2Sent).outbox := by
        rw [Connection.transmit_mem_outbox_moveTo, hconn]
        simp [Connection.transmit]
      exact .inr ⟨after.holdR2 ctx, challenge, cookie, datagram,
        by rw [hanswer]; rfl, hencode, hsent⟩
  · split
    · exact .inl rfl
    · exact .inl (answerI2_withRng turn rng ctx packet)
  · exact .inl (acceptR2_withRng turn rng ctx packet)
  · exact .inl (answerI2Again_withRng turn rng ctx packet)
  · exact .inl (answerI2_withRng turn rng ctx packet)
  · exact .inl rfl

end Steady

end DietExchange.Turn
