import DietExchange.Proofs.Connection.Sent
import DietExchange.Proofs.Engine.Completion

namespace DietExchange

namespace Connection

/-- Whether the last packet sent is the wire form of one of this kind, from our host to the peer. -/
def HasSent (conn : Connection) (kind : PacketKind) : Prop :=
  ∃ (packet : Packet) (datagram : List UInt8), packet.encode = .ok datagram ∧ packet.kind = kind ∧
    packet.sender = conn.host ∧ packet.receiver = conn.peer ∧ conn.lastSent = some ⟨kind, datagram⟩

/-- Whether the last packet sent, if there is one, is what it is kept as. -/
def KeepsSent (conn : Connection) : Prop :=
  ∀ sent, conn.lastSent = some sent → conn.HasSent sent.kind

variable {ctx : Context} {conn after : Connection}

theorem Sends.exists_packet {kind : PacketKind} {datagram : List UInt8}
    (hsends : conn.Sends ctx kind datagram) : ∃ packet : Packet, packet.encode = .ok datagram ∧
      packet.kind = kind ∧ packet.sender = conn.host ∧ packet.receiver = conn.peer := by
  cases hsends with
  | i1 hencode | r1 hencode => exact ⟨_, hencode, rfl, rfl, rfl⟩
  | i2 hseal hencode => exact ⟨_, hencode, Context.header_i2 _ hseal⟩
  | r2 hseal hencode => exact ⟨_, hencode, Context.header_r2 hseal⟩

theorem KeepsSent.move {stimulus : Stimulus} (hmove : conn.Move ctx stimulus after)
    (hkeeps : conn.KeepsSent) : after.KeepsSent := by
  intro sent heq
  unfold HasSent
  rw [hmove.host_eq, hmove.peer_eq]
  rcases hmove.lastSent_cases with hsame | ⟨kind, datagram, hsends, hsent⟩
  · rw [hsame] at heq ⊢
    exact hkeeps sent heq
  · obtain rfl := Option.some.inj (heq.symm.trans hsent)
    obtain ⟨packet, hencode, hkind, hsender, hreceiver⟩ := hsends.exists_packet
    exact ⟨packet, datagram, hencode, hkind, hsender, hreceiver, hsent⟩

/-- What was sent last is of the kind that it is kept as. -/
theorem KeepsSent.hasSent (hkeeps : conn.KeepsSent) {kind : PacketKind}
    (hlast : ∃ sent, conn.lastSent = some sent ∧ sent.kind = kind) : conn.HasSent kind := by
  obtain ⟨sent, hsent, rfl⟩ := hlast
  exact hkeeps sent hsent

end Connection

namespace Engine

theorem Reachable.keepsSent {engine : Engine} (hreachable : Reachable engine)
    {conn : Connection} (hmem : conn ∈ engine.table.connections) : conn.KeepsSent := by
  refine hreachable.connections ?_ (fun _ _ _ _ _ hmove hkeeps => hkeeps.move hmove) ?_ conn hmem
  · intro peer address sent hsent
    cases hsent
  · exact fun _ hkeeps sent hsent => hkeeps sent hsent

/-- A puzzle is being solved in I1_SENT only, and a hold runs in R2_SENT and nowhere else. There are
    no keys in UNASSOCIATED and I1_SENT, and there are in I2_SENT and ESTABLISHED. The last packet
    sent is an I1 in I1_SENT, an I2 in I2_SENT, and in R2_SENT an R2 with keys and an R1 without. A
    cipher was picked exactly if there are keys and we are the responder. Nothing is closing or
    closed, and nothing is left to ask of the engine. -/
theorem Reachable.fields_follow_state {engine : Engine}
    (hreachable : Reachable engine) {conn : Connection}
    (hmem : conn ∈ engine.table.connections) :
    (conn.isSolving → conn.state = .i1Sent) ∧
    (conn.holdUntil.isSome ↔ conn.state = .r2Sent) ∧
    (conn.state = .unassociated ∨ conn.state = .i1Sent → conn.keys = none) ∧
    (conn.state = .i2Sent ∨ conn.state = .established → conn.keys.isSome) ∧
    (conn.state = .i1Sent → conn.HasSent .i1) ∧
    (conn.state = .i2Sent → conn.HasSent .i2) ∧
    (conn.state = .r2Sent → conn.HasSent (if conn.keys.isSome then .r2 else .r1)) ∧
    (conn.cipher.isSome ↔ ∃ keys, conn.keys = some keys ∧ keys.isInitiator = false) ∧
    conn.state ≠ .closing ∧ conn.state ≠ .closed ∧ conn.outbox = [] := by
  have hform := hreachable.wellFormed hmem
  have hkeeps := hreachable.keepsSent hmem
  refine ⟨?solving, hform.hold, hform.keyless, ?keyed,
    fun hstate => hkeeps.hasSent (hform.lastI1 hstate), fun hstate =>
      hkeeps.hasSent (hform.lastI2 hstate),
    fun hstate => hkeeps.hasSent (hform.lastReply hstate), hform.cipher, hform.live.1, hform.live.2,
    hreachable.outbox_eq_nil hmem⟩
  case solving =>
    intro hsolving
    obtain ⟨pending, hpending⟩ := Option.isSome_iff_exists.mp hsolving
    exact (hform.pending pending hpending).1
  case keyed =>
    rintro (hstate | hstate)
    · obtain ⟨keys, hkeys, -⟩ := hform.i2Sent hstate
      rw [hkeys]
      rfl
    · exact hform.established hstate

/-- The responder of a handshake holds its keys, has sent its R2 and picked a cipher. -/
theorem exists_holding : ∃ (engine : Engine) (conn : Connection), engine.Reachable ∧
    conn ∈ engine.table.connections ∧ conn.state = .r2Sent ∧ conn.keys.isSome ∧
    conn.holdUntil.isSome ∧ conn.HasSent .r2 ∧ conn.outbox = [] := by
  obtain ⟨initiator, hinitiator⟩ := SampleHost.exists_isNew 1
  obtain ⟨responder, hresponder⟩ := SampleHost.exists_isNew 2
  have hconforms := Handshake.conforms_sample hinitiator hresponder
  obtain ⟨puzzle, keys, hunderway⟩ := hconforms.underway
  obtain ⟨-, -, -, -, conn, hfind, hholds⟩ := hconforms.responds hunderway
  have hreachable := hconforms.reachable_beforeEnd
  obtain ⟨hmem, -⟩ := ConnectionTable.find?_eq_some_iff.mp hfind
  have hkeys : conn.keys.isSome := by
    rw [hholds.keys]
    rfl
  obtain ⟨-, hhold, -, -, -, -, hsent, -, -, -, houtbox⟩ := hreachable.fields_follow_state hmem
  have hreply := hsent hholds.state
  rw [if_pos hkeys] at hreply
  exact ⟨_, conn, hreachable, hmem, hholds.state, hkeys, hhold.mpr hholds.state, hreply, houtbox⟩

end Engine

end DietExchange
