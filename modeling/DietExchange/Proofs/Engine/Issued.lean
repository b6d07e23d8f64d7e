import DietExchange.Proofs.Connection.Role
import DietExchange.Proofs.Engine.Stage

namespace DietExchange

/-- An R1 is transmitted in answer to a packet only. -/
theorem Connection.Move.of_transmit_r1 {ctx : Context} {stimulus : Stimulus}
    {conn moved : Connection} {datagram : List UInt8} (hmove : conn.Move ctx stimulus moved)
    (hform : conn.WellFormed) (houtbox : conn.outbox = [])
    (hout : .transmit datagram ∈ moved.outbox) (hsent : moved.lastSent = some ⟨.r1, datagram⟩) :
    ∃ packet challenge cookie, stimulus = .packet packet ∧
      (ctx.r1 conn challenge cookie).encode = .ok datagram := by
  have hnone : .transmit datagram ∉ conn.outbox := by
    rw [houtbox]
    exact List.not_mem_nil
  have hlast : ∀ sent, moved.lastSent = some sent → sent = ⟨.r1, datagram⟩ := fun sent heq =>
    Option.some.inj (heq.symm.trans hsent)
  cases hmove with
  | ignore | takeUpR1 | wait | rest | search | lose => exact absurd hout hnone
  | acceptR2 | establish | giveUp => exact absurd (by simpa [emit] using hout) hnone
  | @initiate _ i1 => cases hlast ⟨.i1, i1⟩ (by simp [transmit])
  | @solve _ _ _ _ _ i2 => cases hlast ⟨.i2, i2⟩ (by simp [conclude, transmit])
  | @answerI2 _ _ _ _ _ r2 => cases hlast ⟨.r2, r2⟩ (by simp [respond, holdTo, transmit])
  | resendR2 _ _ _ hsame => cases hlast _ (lastSent_of_sameR2? hsame)
  | @answerI1 _ _ _ _ r1 _ _ _ _ _ hencode =>
    obtain rfl := congrArg SentPacket.datagram (hlast ⟨.r1, r1⟩ rfl)
    exact ⟨_, _, _, rfl, hencode⟩
  | @answerI2AsI1 _ _ _ _ r1 _ _ _ _ _ hencode =>
    obtain rfl := congrArg SentPacket.datagram (hlast ⟨.r1, r1⟩ (by simp [holdTo, transmit]))
    exact ⟨_, _, _, rfl, hencode⟩
  | resend hwaiting =>
    have hkind : ∃ last, conn.lastSent = some last ∧ (last.kind = .i1 ∨ last.kind = .i2) := by
      cases hstate : conn.state with
      | i1Sent =>
        obtain ⟨last, hlast, hkind⟩ := hform.lastI1 hstate
        exact ⟨last, hlast, .inl hkind⟩
      | i2Sent =>
        obtain ⟨last, hlast, hkind⟩ := hform.lastI2 hstate
        exact ⟨last, hlast, .inr hkind⟩
      | unassociated | r2Sent | established | closing | closed =>
        rw [hstate] at hwaiting
        cases hwaiting
    obtain ⟨last, hlastSent, hkind⟩ := hkind
    obtain rfl := hlast last hlastSent
    rcases hkind with hkind | hkind <;> cases hkind

namespace Engine

/-- Whether a datagram is an R1 of an engine for a peer. -/
def Issued (engine : Engine) (peer : Hit) (datagram : List UInt8) : Prop :=
  ∃ (ctx : Context) (conn : Connection) (challenge : Block) (cookie : UInt16),
    ctx.party = engine.party ∧
    ctx.issuer.complexity = ctx.config.puzzleComplexity ∧ conn.host = engine.hit ∧
    conn.peer = peer ∧ (ctx.r1 conn challenge cookie).encode = .ok datagram

theorem Issued.of_continues {old new : Engine} (hcontinues : old.Continues new) {peer : Hit}
    {datagram : List UInt8} : new.Issued peer datagram ↔ old.Issued peer datagram := by
  unfold Issued
  rw [hcontinues.party, hcontinues.hit]

theorem Kept.issued {engine : Engine} {ctx : Context} {stimulus : Stimulus}
    {conn moved : Connection} (hkept : engine.Kept conn) (hkey : engine.identity.HasCurveKey)
    (hparty : ctx.party = engine.party)
    (hcomplexity : ∀ packet, stimulus = .packet packet →
      ctx.issuer.complexity = ctx.config.puzzleComplexity)
    (hmove : conn.Move ctx stimulus moved) {out : Outgoing} (hout : out ∈ moved.outgoing)
    {packet : Packet} (hparse : Packet.parse out.datagram = .ok packet)
    (hkind : packet.kind = .r1) : engine.Issued packet.receiver out.datagram := by
  have hidentity : ctx.identity = engine.identity := congrArg Party.identity hparty
  have hcurve : ctx.identity.HasCurveKey := hidentity ▸ hkey
  obtain ⟨-, htransmit⟩ := Connection.mem_outgoing_iff.mp hout
  have hsent :=
    hmove.lastSent_of_parse hcurve (hidentity ▸ hkept.speaks) hkept.outbox htransmit hparse
  rw [hkind] at hsent
  obtain ⟨heard, challenge, cookie, hstimulus, hencode⟩ :=
    hmove.of_transmit_r1 hkept.form hkept.outbox htransmit hsent
  obtain rfl := Except.ok.inj (hparse.symm.trans (Context.parse_r1 hcurve hencode))
  exact ⟨ctx, conn, challenge, cookie, hparty, hcomplexity heard hstimulus, hkept.host,
    rfl, hencode⟩

/-- The R1s in the queue of an engine are its own. -/
theorem Reachable.issued {engine : Engine} (hreachable : Reachable engine)
    (hkey : engine.identity.HasCurveKey) : ∀ out ∈ engine.datagrams, ∀ packet,
      Packet.parse out.datagram = .ok packet → packet.kind = .r1 →
      engine.Issued packet.receiver out.datagram := by
  induction hreachable with
  | create hcreate =>
    intro out hout
    rw [(create_spec hcreate).2.2.2.1] at hout
    exact absurd hout List.not_mem_nil
  | @after engine hreachable call ih =>
    have hcontinues := engine.continues_after call
    rw [hcontinues.identity] at hkey
    intro out hout packet hparse hkind
    refine (Issued.of_continues hcontinues).mpr ?_
    rcases (engine.after_spec call).datagrams out hout with hold | ⟨before, moved, hmoves, hsent⟩
    · exact ih hkey out hold packet hparse hkind
    have hoffered : ∀ {peer : Hit} {address : Address}, engine.Offers peer address before →
        engine.Kept before := fun hoffers =>
      hoffers.preserves (fun _ => hreachable.kept hkey) (fun _ _ => kept_fresh _ _ _)
    cases hmoves with
    | connect hoffers hmove | handlePacket _ _ _ hoffers hmove =>
      exact (hoffered hoffers).issued hkey rfl (fun _ _ => hreachable.issuer.1) hmove hsent
        hparse hkind
    | @handleTimeout order now _ _ hmem helapses =>
      obtain ⟨stimulus, hpacket, hmove⟩ := helapses.exists_move (hreachable.wellFormed hmem)
      have hparty : ((engine.after (.handleTimeout order now)).context now).party = engine.party :=
        hcontinues.party
      exact (hreachable.kept hkey hmem).issued hkey hparty
        (fun packet heq => absurd heq (hpacket packet)) hmove hsent hparse hkind

/-- Every R1 that is queued in the course of several calls is the engine's own. -/
theorem issued_of_queuedIn {engine : Engine} (hreachable : Reachable engine)
    (hkey : engine.identity.HasCurveKey) {calls : List Call} {out : Outgoing}
    (hout : out ∈ engine.queuedIn calls) {packet : Packet}
    (hparse : Packet.parse out.datagram = .ok packet) (hkind : packet.kind = .r1) :
    engine.Issued packet.receiver out.datagram := by
  induction calls generalizing engine with
  | nil => exact absurd hout List.not_mem_nil
  | cons call rest ih =>
    have hcontinues := engine.continues_after call
    have hafter : (engine.after call).identity.HasCurveKey := hcontinues.identity ▸ hkey
    refine (Issued.of_continues hcontinues).mp ?_
    cases List.mem_append.mp hout with
    | inl hnow =>
      exact (hreachable.after call).issued hafter out (List.mem_of_mem_drop hnow) packet
        hparse hkind
    | inr hlater => exact ih (hreachable.after call) hafter hlater

end Engine

end DietExchange
