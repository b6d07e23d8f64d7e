import DietExchange.Proofs.Connection.Form
import DietExchange.Proofs.Connection.Packets
import DietExchange.Proofs.Engine.Invariant

namespace DietExchange

namespace Connection

/-- Whether a datagram is read as a packet of this kind on this connection, with no host identity
    but our own. -/
def Carries (identity : HostIdentity) (conn : Connection) (kind : PacketKind)
    (datagram : List UInt8) : Prop :=
  ∃ packet, Packet.parse datagram = .ok packet ∧ packet.kind = kind ∧ packet.sender = conn.host ∧
    packet.receiver = conn.peer ∧
    ∀ id, packet.hostId? = some id → id = HostId.ofKey identity.curve identity.publicKey

def Speaks (identity : HostIdentity) (conn : Connection) : Prop :=
  ∀ sent, conn.lastSent = some sent → conn.Carries identity sent.kind sent.datagram

variable {ctx : Context} {conn after : Connection} {datagram : List UInt8}

theorem carries_i1 (hencode : (ctx.i1 conn).encode = .ok datagram) :
    conn.Carries ctx.identity .i1 datagram := by
  refine ⟨_, Context.parse_i1 hencode, rfl, rfl, rfl, ?_⟩
  intro id hid
  rw [Packet.hostId?_canonical] at hid
  cases hid

theorem carries_r1 (hkey : ctx.identity.HasCurveKey) {challenge : Block} {cookie : UInt16}
    (hencode : (ctx.r1 conn challenge cookie).encode = .ok datagram) :
    conn.Carries ctx.identity .r1 datagram := by
  refine ⟨_, Context.parse_r1 hkey hencode, rfl, rfl, rfl, ?_⟩
  intro id hid
  exact Option.some.inj (hid.symm.trans Context.hostId?_r1)

theorem carries_i2 (hkey : ctx.identity.HasCurveKey) {puzzle : Puzzle} {answer : Block}
    {key : List UInt8} {sealed : Packet} {echo : Option (List UInt8)}
    (hseal : (ctx.i2 conn puzzle answer).recalculateMac key = .ok sealed)
    (hencode : (sealed.withEcho echo).encode = .ok datagram) :
    conn.Carries ctx.identity .i2 datagram := by
  obtain ⟨hkind, hsender, hreceiver⟩ := Context.header_i2 echo hseal
  refine ⟨_, Context.parse_i2 echo hkey hseal hencode, hkind, hsender, hreceiver, ?_⟩
  intro id hid
  exact Option.some.inj (hid.symm.trans (Context.hostId?_i2 hseal))

theorem carries_r2 {key : List UInt8} {sealed : Packet}
    (hseal : (ctx.r2 conn).recalculateMac key = .ok sealed)
    (hencode : sealed.encode = .ok datagram) : conn.Carries ctx.identity .r2 datagram := by
  obtain ⟨hkind, hsender, hreceiver⟩ := Context.header_r2 hseal
  refine ⟨_, Context.parse_r2 hseal hencode, hkind, hsender, hreceiver, ?_⟩
  intro id hid
  rw [Packet.hostId?_canonical, Packet.hostId?,
    Packet.parameter?_of_recalculateMac hseal (by simp)] at hid
  cases hid

/-- What a connection can send for the first time: the wire form of a packet of each kind. -/
inductive Sends (ctx : Context) (conn : Connection) : PacketKind → List UInt8 → Prop where
  | i1 {datagram : List UInt8} (hencode : (ctx.i1 conn).encode = .ok datagram) :
      Sends ctx conn .i1 datagram
  | r1 {challenge : Block} {cookie : UInt16} {datagram : List UInt8}
    (hencode : (ctx.r1 conn challenge cookie).encode = .ok datagram) : Sends ctx conn .r1 datagram
  | i2 {puzzle : Puzzle} {answer : Block} {key : List UInt8} {sealed : Packet}
    {echo : Option (List UInt8)} {datagram : List UInt8}
    (hseal : (ctx.i2 conn puzzle answer).recalculateMac key = .ok sealed)
    (hencode : (sealed.withEcho echo).encode = .ok datagram) : Sends ctx conn .i2 datagram
  | r2 {key : List UInt8} {sealed : Packet} {datagram : List UInt8}
    (hseal : (ctx.r2 conn).recalculateMac key = .ok sealed)
    (hencode : sealed.encode = .ok datagram) : Sends ctx conn .r2 datagram

theorem Sends.carries {kind : PacketKind} (hkey : ctx.identity.HasCurveKey)
    (hsends : conn.Sends ctx kind datagram) : conn.Carries ctx.identity kind datagram := by
  cases hsends with
  | i1 hencode => exact carries_i1 hencode
  | r1 hencode => exact carries_r1 hkey hencode
  | i2 hseal hencode => exact carries_i2 hkey hseal hencode
  | r2 hseal hencode => exact carries_r2 hseal hencode

/-- The last packet stays the last, or another is sent. -/
theorem Move.lastSent_cases {stimulus : Stimulus} (hmove : conn.Move ctx stimulus after) :
    after.lastSent = conn.lastSent ∨ ∃ kind datagram, conn.Sends ctx kind datagram ∧
      after.lastSent = some ⟨kind, datagram⟩ := by
  cases hmove with
  | initiate _ hencode => exact .inr ⟨_, _, .i1 hencode, by simp [transmit]⟩
  | answerI1 _ _ _ _ _ hencode => exact .inr ⟨_, _, .r1 hencode, rfl⟩
  | answerI2AsI1 _ _ _ _ _ hencode => exact .inr ⟨_, _, .r1 hencode, by simp [transmit, holdTo]⟩
  | answerI2 _ _ _ htag hencode =>
    exact .inr ⟨_, _, .r2 htag hencode, by simp [transmit, holdTo, respond]⟩
  | solve _ _ htag hencode => exact .inr ⟨_, _, .i2 htag hencode, by simp [transmit, conclude]⟩
  | ignore | takeUpR1 | resendR2 | wait | rest | search | lose | resend => exact .inl rfl
  | acceptR2 | establish | giveUp => exact .inl (by simp [emit])

theorem Speaks.move {stimulus : Stimulus} (hkey : ctx.identity.HasCurveKey)
    (hmove : conn.Move ctx stimulus after) (hspeaks : conn.Speaks ctx.identity) :
    after.Speaks ctx.identity := by
  have hlast : ∀ kind datagram, after.lastSent = some ⟨kind, datagram⟩ →
      conn.Carries ctx.identity kind datagram → after.Speaks ctx.identity := by
    intro kind datagram hsent hcarries sent heq
    obtain rfl := Option.some.inj (heq.symm.trans hsent)
    unfold Carries at hcarries ⊢
    rw [hmove.host_eq, hmove.peer_eq]
    exact hcarries
  rcases hmove.lastSent_cases with hsame | ⟨kind, datagram, hsends, hsent⟩
  · intro sent heq
    exact hlast _ _ heq (hspeaks sent (hsame.symm.trans heq)) sent heq
  · exact hlast kind datagram hsent (hsends.carries hkey)

theorem lastSent_of_sameR2? {keys : KeySet} (hsame : Turn.sameR2? conn keys = some datagram) :
    conn.lastSent = some ⟨.r2, datagram⟩ := by
  unfold Turn.sameR2? at hsame
  split at hsame
  · rename_i held sent hkeys hsent
    split at hsame
    · obtain rfl := Option.some.inj hsame
      exact hsent
    · cases hsame
  · cases hsame

@[simp]
theorem transmit_mem_outbox_moveTo (conn : Connection) (next : State) (datagram : List UInt8) :
    .transmit datagram ∈ (conn.moveTo next).outbox ↔ .transmit datagram ∈ conn.outbox := by
  unfold moveTo
  split
  · rfl
  · have hsweep : .transmit datagram ∉ sweepSignals conn.state next := by
      unfold sweepSignals
      split <;> simp
    simp [hsweep]

/-- Whatever a move asks to be transmitted is the last packet sent by then. -/
theorem Move.lastSent_of_transmit {stimulus : Stimulus} (hmove : conn.Move ctx stimulus after)
    (hout : .transmit datagram ∈ after.outbox) :
    .transmit datagram ∈ conn.outbox ∨ ∃ kind, after.lastSent = some ⟨kind, datagram⟩ := by
  cases hmove with
  | ignore | takeUpR1 | wait | rest | search | lose => exact .inl hout
  | acceptR2 | establish | giveUp => exact .inl (by simpa [emit] using hout)
  | initiate | answerI2AsI1 | answerI2 | solve =>
    simp only [respond, conclude, holdTo, transmit_mem_outbox_moveTo, transmit, List.mem_append,
      List.mem_singleton, Signal.transmit.injEq] at hout
    rcases hout with hold | rfl
    · exact .inl hold
    · exact .inr (by simp [respond, conclude, holdTo, transmit])
  | answerI1 =>
    simp only [transmit, List.mem_append, List.mem_singleton, Signal.transmit.injEq] at hout
    rcases hout with hold | rfl
    · exact .inl hold
    · exact .inr ⟨_, rfl⟩
  | resendR2 _ _ _ hsame =>
    simp only [emit, List.mem_append, List.mem_singleton, Signal.transmit.injEq] at hout
    rcases hout with hold | rfl
    · exact .inl hold
    · exact .inr ⟨.r2, lastSent_of_sameR2? hsame⟩
  | @resend _ sent _ _ hsent =>
    simp only [emit, List.mem_append, List.mem_singleton, Signal.transmit.injEq] at hout
    rcases hout with hold | rfl
    · exact .inl hold
    · exact .inr ⟨sent.kind, hsent⟩

/-- What a connection transmits that had nothing to say is the last packet that it sent. -/
theorem Move.lastSent_of_parse {stimulus : Stimulus} (hmove : conn.Move ctx stimulus after)
    (hkey : ctx.identity.HasCurveKey) (hspeaks : conn.Speaks ctx.identity)
    (houtbox : conn.outbox = []) (hout : .transmit datagram ∈ after.outbox) {packet : Packet}
    (hparse : Packet.parse datagram = .ok packet) :
    after.lastSent = some ⟨packet.kind, datagram⟩ := by
  have hnone : .transmit datagram ∉ conn.outbox := by
    rw [houtbox]
    exact List.not_mem_nil
  obtain ⟨kind, hsent⟩ := (hmove.lastSent_of_transmit hout).resolve_left hnone
  obtain ⟨found, hfound, hkind, -⟩ := hspeaks.move hkey hmove _ hsent
  obtain rfl := Except.ok.inj (hfound.symm.trans hparse)
  rw [hsent, show found.kind = kind from hkind]

/-- Out of R2_SENT there is no hold to look at. -/
theorem Move.eq_of_hold (hform : conn.WellFormed) (hstate : conn.state ≠ .r2Sent)
    (hmove : conn.Move ctx .hold after) : after = conn := by
  have hnone : conn.holdUntil = none := by
    rw [← Option.not_isSome_iff_eq_none, hform.hold]
    exact hstate
  cases hmove with
  | wait => rfl
  | establish hhold | giveUp hhold => cases hnone.symm.trans hhold

/-- Where nothing is being solved there is no search to go on with. -/
theorem Move.eq_of_search (hidle : conn.pending = none) (hmove : conn.Move ctx .search after) :
    after = conn := by
  cases hmove with
  | rest => rfl
  | search hpending | solve hpending | lose hpending => cases hidle.symm.trans hpending

/-- A timeout does one thing to a connection: what the sweep, the hold and the search look at is
    never there at once. -/
theorem Elapses.cases_move (hform : conn.WellFormed) (helapses : conn.Elapses ctx after) :
    (conn.state = .r2Sent ∧ conn.Move ctx .hold after) ∨
      (conn.state ≠ .r2Sent ∧ (conn.Move ctx .sweep after ∨ conn.Move ctx .search after)) := by
  obtain ⟨swept, held, hsweep, hhold, hsearch⟩ := helapses
  rcases hsweep with rfl | hsweep
  · by_cases hstate : swept.state = .r2Sent
    · have hidle : held.pending = none := by
        have hnone : swept.pending = none := hform.pending_eq_none (by simp [hstate])
        cases hhold with
        | wait => exact hnone
        | establish | giveUp => simp [emit, pending_moveTo, hnone]
      obtain rfl := hsearch.eq_of_search hidle
      exact .inl ⟨hstate, hhold⟩
    · obtain rfl := hhold.eq_of_hold hform hstate
      exact .inr ⟨hstate, .inr hsearch⟩
  · have hresent := hsweep
    cases hsweep with
    | @resend _ sent hwaiting hidle _ =>
      have hstate : conn.state ≠ .r2Sent := by
        intro heq
        rw [heq] at hwaiting
        cases hwaiting
      obtain rfl := hhold.eq_of_hold (hform.emit _) hstate
      have hstill : (conn.emit (.transmit sent.datagram)).pending = none := hidle
      obtain rfl := hsearch.eq_of_search hstill
      exact .inr ⟨hstate, .inl hresent⟩

/-- What a timeout makes of a connection is what one stimulus makes of it. -/
theorem Elapses.exists_move (hform : conn.WellFormed) (helapses : conn.Elapses ctx after) :
    ∃ stimulus, (∀ packet, stimulus ≠ .packet packet) ∧ conn.Move ctx stimulus after := by
  rcases helapses.cases_move hform with ⟨-, hmove⟩ | ⟨-, hmove | hmove⟩
  · exact ⟨.hold, by simp, hmove⟩
  · exact ⟨.sweep, by simp, hmove⟩
  · exact ⟨.search, by simp, hmove⟩

/-- Whatever a timeout asks to be transmitted is the last packet sent by then. -/
theorem Elapses.lastSent_of_transmit (hform : conn.WellFormed) (helapses : conn.Elapses ctx after)
    (houtbox : conn.outbox = []) (hout : .transmit datagram ∈ after.outbox) :
    ∃ kind, after.lastSent = some ⟨kind, datagram⟩ := by
  have hnone : .transmit datagram ∉ conn.outbox := by
    rw [houtbox]
    exact List.not_mem_nil
  obtain ⟨stimulus, -, hmove⟩ := helapses.exists_move hform
  exact (hmove.lastSent_of_transmit hout).resolve_left hnone

end Connection

namespace Engine

/-- The last packet of a connection of an engine is one on this connection. -/
theorem Reachable.speaks {engine : Engine} (hreachable : Reachable engine)
    (hkey : engine.identity.HasCurveKey) {conn : Connection}
    (hmem : conn ∈ engine.table.connections) : conn.Speaks engine.identity :=
  hreachable.connections (P := fun conn => conn.Speaks engine.identity)
    (fun _ _ _ hsent => by cases hsent)
    (fun ctx _ _ _ hidentity hmove hspeaks => by
      rw [← hidentity] at hkey hspeaks ⊢
      exact hspeaks.move hkey hmove)
    (fun _ hspeaks => hspeaks) conn hmem

end Engine

end DietExchange
