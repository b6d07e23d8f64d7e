import DietExchange.Proofs.Connection.Answer
import DietExchange.Proofs.Engine.Stage

namespace DietExchange

/-- Whether a host makes this puzzle and these keys of an R1 of the peer. -/
def Party.Reads (party : Party) (host peer : Hit) (r1 : Packet) (puzzle : Puzzle)
    (keys : KeySet) : Prop :=
  ∃ ctx : Context, ctx.party = party ∧ ctx.validateR1 host peer r1 = .ok (puzzle, keys)

/-- What is made of an R1 depends on nothing but who reads it. -/
theorem Context.validateR1_congr {ctx other : Context} (hparty : ctx.party = other.party) :
    ctx.validateR1 = other.validateR1 := by
  obtain ⟨config, identity, issuer, now⟩ := ctx
  obtain ⟨theirConfig, theirIdentity, theirIssuer, later⟩ := other
  obtain ⟨rfl, rfl⟩ := Party.mk.inj hparty
  rfl

namespace Connection

/-- Whether a datagram is an I2 that answers this puzzle, sealed under these keys, with this sent
    back. With nothing sent back it is an `IsAnswer`. -/
def IsReply (party : Party) (host peer : Hit) (puzzle : Puzzle) (keys : KeySet)
    (echo : Option (List UInt8)) (datagram : List UInt8) : Prop :=
  ∃ (ctx : Context) (conn : Connection) (answer : Block) (sealed : Packet),
    ctx.party = party ∧ conn.host = host ∧ conn.peer = peer ∧
    (ctx.i2 conn puzzle answer).recalculateMac keys.initiator.integrity = .ok sealed ∧
    (sealed.withEcho echo).encode = .ok datagram ∧
    DietExchange.solves puzzle.challenge answer host peer puzzle.k = true

/-- Whether a connection is in I2_SENT on an R1: it holds the keys that its host makes of the R1,
    and the I2 that it sent last answers the puzzle of the R1 and sends back what that asks for. -/
structure RestsOn (conn : Connection) (party : Party) (r1 : Packet) (keys : KeySet)
    (i2 : List UInt8) : Prop where
  awaits : conn.AwaitsR2 keys i2
  reply : ∃ puzzle, party.Reads conn.host conn.peer r1 puzzle keys ∧
    IsReply party conn.host conn.peer puzzle keys r1.echoRequest? i2

/-- Whether what a connection works on, or has answered, is an R1 of its peer. -/
structure Grounded (conn : Connection) (party : Party) : Prop where
  solving : conn.isSolving → ∃ r1 puzzle keys, r1.kind = .r1 ∧ r1.sender = conn.peer ∧
    party.Reads conn.host conn.peer r1 puzzle keys ∧ conn.Works puzzle keys r1.echoRequest?
  i2Sent : conn.state = .i2Sent → ∃ r1 keys i2, r1.kind = .r1 ∧ r1.sender = conn.peer ∧
    conn.RestsOn party r1 keys i2

theorem grounded_fresh (host peer : Hit) (address : Address) (party : Party) :
    (fresh host peer address).Grounded party where
  solving hsolving := by cases hsolving
  i2Sent hstate := by cases hstate

variable {ctx : Context} {stimulus : Stimulus} {conn moved : Connection} {party : Party}

theorem Grounded.settled (hgrounded : conn.Grounded party) : conn.settled.Grounded party where
  solving hsolving := by
    obtain ⟨r1, puzzle, keys, hkind, hsender, hreads, hworks⟩ := hgrounded.solving hsolving
    exact ⟨r1, puzzle, keys, hkind, hsender, hreads, hworks.settled⟩
  i2Sent hstate := by
    obtain ⟨r1, keys, i2, hkind, hsender, hawaits, hreply⟩ := hgrounded.i2Sent hstate
    exact ⟨r1, keys, i2, hkind, hsender, ⟨hawaits.state, hawaits.keys, hawaits.lastSent⟩, hreply⟩

/-- Solving begins with an R1 that is valid. -/
theorem Move.begins (hmove : conn.Move ctx stimulus moved) (hidle : conn.pending = none)
    (hsolving : moved.isSolving) : ∃ packet puzzle keys, stimulus = .packet packet ∧
    packet.kind = .r1 ∧ ctx.validateR1 conn.host conn.peer packet = .ok (puzzle, keys) ∧
      moved.Works puzzle keys packet.echoRequest? := by
  cases hstimulus : stimulus with
  | packet packet =>
    subst hstimulus
    have hboth : conn.AwaitsR1 ∧ packet.kind = .r1 := by
      cases hmove with
      | takeUpR1 hstate hkind => exact ⟨⟨hstate, hidle⟩, hkind⟩
      | ignore | answerI1 | resendR2 => simp [isSolving, emit, transmit, hidle] at hsolving
      | answerI2AsI1 | answerI2 | acceptR2 =>
        simp [isSolving, emit, transmit, holdTo, respond, pending_moveTo, hidle] at hsolving
    obtain ⟨puzzle, keys, hvalid, hworks⟩ := hboth.1.works hmove hsolving
    exact ⟨packet, puzzle, keys, rfl, hboth.2, hvalid, hworks⟩
  | initiate | hold | search | sweep =>
    subst hstimulus
    cases hmove <;> simp_all [isSolving, emit, transmit, pending_moveTo]

/-- Whatever happens to a connection, it rests on R1s of its peer. -/
theorem Grounded.move (hgrounded : conn.Grounded party) (hform : conn.WellFormed)
    (hmove : conn.Move ctx stimulus moved) (hparty : ctx.party = party)
    (hfrom : ∀ packet, stimulus = .packet packet → packet.sender = conn.peer) :
      moved.Grounded party := by
  have hhost := hmove.host_eq
  have hpeer := hmove.peer_eq
  constructor
  · intro hsolving
    rw [hhost, hpeer]
    cases hpending : conn.pending with
    | none =>
      obtain ⟨packet, puzzle, keys, hpacket, hkind, hvalid, hworks⟩ :=
        hmove.begins hpending hsolving
      exact ⟨packet, puzzle, keys, hkind, hfrom packet hpacket, ⟨ctx, hparty, hvalid⟩, hworks⟩
    | some pending =>
      obtain ⟨r1, puzzle, keys, hkind, hsender, hreads, hworks⟩ :=
        hgrounded.solving (by rw [isSolving, hpending]; rfl)
      exact ⟨r1, puzzle, keys, hkind, hsender, hreads, hworks.move hmove hsolving⟩
  · intro hstate
    cases hmove with
    | ignore | wait | rest => exact hgrounded.i2Sent hstate
    | resend =>
      obtain ⟨r1, keys, i2, hkind, hsender, hawaits, hreply⟩ := hgrounded.i2Sent hstate
      exact ⟨r1, keys, i2, hkind, hsender, ⟨hawaits.state, hawaits.keys, hawaits.lastSent⟩, hreply⟩
    | answerI1 hother | takeUpR1 hother | resendR2 hother => cases hstate.symm.trans hother
    | initiate | answerI2AsI1 | answerI2 | acceptR2 | establish | giveUp =>
      simp [respond, holdTo, emit] at hstate
    | search hpending | lose hpending =>
      cases hstate.symm.trans (hform.pending _ hpending).1
    | @solve _ pending rng answer sealed i2 hpending hanswer hseal hencode =>
      obtain ⟨r1, puzzle, keys, hkind, hsender, hreads, hworks⟩ :=
        hgrounded.solving (by rw [isSolving, hpending]; rfl)
      obtain ⟨search, hfor, hsame⟩ := hworks.pending
      obtain rfl := Option.some.inj (hpending.symm.trans hsame)
      refine ⟨r1, keys, i2, hkind, hsender.trans hpeer.symm, ⟨hstate, by simp [conclude],
        by simp [conclude, transmit]⟩, puzzle, ?_⟩
      rw [hhost, hpeer]
      exact ⟨hreads, ctx, conn, answer, sealed, hparty, rfl, rfl, hseal, hencode,
        hfor.solves hanswer⟩

end Connection

namespace Engine

/-- What holds of a connection on which nothing has happened, and is kept by every move of a
    connection of this host with packets from its peer, holds of the connections of every engine
    that there is. -/
theorem Reachable.forall_connections {engine : Engine} {P : Connection → Prop}
    (hreachable : Reachable engine)
    (hfresh : ∀ peer address, P (Connection.fresh engine.hit peer address))
    (hmove : ∀ ctx stimulus before after, ctx.party = engine.party → before.WellFormed →
      (∀ packet, stimulus = .packet packet → packet.sender = before.peer) →
      before.Move ctx stimulus after → P before → P after)
    (hsettled : ∀ conn, P conn → P conn.settled) : ∀ conn ∈ engine.table.connections, P conn := by
  induction hreachable with
  | create hcreate =>
    intro conn hmem
    rw [(create_spec hcreate).2.2.1] at hmem
    exact absurd hmem List.not_mem_nil
  | @after engine hreachable call ih =>
    have hcontinues := engine.continues_after call
    rw [hcontinues.hit] at hfresh
    rw [hcontinues.party] at hmove
    replace ih := ih hfresh hmove
    have hoffered : ∀ {peer address before}, engine.Offers peer address before →
        before.WellFormed ∧ P before := fun hoffers =>
      hoffers.preserves (P := fun conn => conn.WellFormed ∧ P conn)
        (fun other hother => ⟨hreachable.wellFormed hother, ih other hother⟩)
        fun peer address => ⟨Connection.wellFormed_fresh _ _ _, hfresh peer address⟩
    intro conn hmem
    rcases (engine.after_spec call).connections conn hmem with hold | ⟨before, moved, hmoves, rfl⟩
    · exact ih conn hold
    refine hsettled moved ?_
    cases hmoves with
    | connect hoffers hone =>
      obtain ⟨hform, hbefore⟩ := hoffered hoffers
      exact hmove _ _ _ _ rfl hform (fun packet heq => by cases heq) hone hbefore
    | handlePacket _ _ _ hoffers hone =>
      obtain ⟨hform, hbefore⟩ := hoffered hoffers
      refine hmove _ _ _ _ rfl hform (fun packet heq => ?_) hone hbefore
      obtain rfl := Stimulus.packet.inj heq
      exact hoffers.peer_eq.symm
    | @handleTimeout order now _ _ hold helapses =>
      have hform := hreachable.wellFormed hold
      obtain ⟨stimulus, hpacket, hone⟩ := helapses.exists_move hform
      exact hmove ((engine.after (.handleTimeout order now)).context now) _ _ _
        hcontinues.party hform (fun packet heq => absurd heq (hpacket packet)) hone (ih before hold)

/-- In every engine that there is, all connections rest on R1s of their peers. -/
theorem Reachable.grounded {engine : Engine} (hreachable : Reachable engine) :
    ∀ conn ∈ engine.table.connections, conn.Grounded engine.party :=
  hreachable.forall_connections (P := fun conn => conn.Grounded engine.party)
    (fun _ _ => Connection.grounded_fresh _ _ _ _)
    (fun _ _ _ _ hparty hform hfrom hmove hgrounded => hgrounded.move hform hmove hparty hfrom)
    fun _ hgrounded => hgrounded.settled

end Engine

end DietExchange
