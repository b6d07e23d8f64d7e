import DietExchange.Proofs.Network.Agreement

namespace DietExchange

/-- While an R1 is waited for, no other packet than an R1 or an I2 and no passing of time
    matters. -/
theorem Connection.AwaitsR1.move {ctx : Context} {stimulus : Stimulus} {conn moved : Connection}
    (hawaits : conn.AwaitsR1) (hform : conn.WellFormed) (hmove : conn.Move ctx stimulus moved)
    (hstimulus : ∀ packet, stimulus = .packet packet → packet.kind = .i1) : moved.AwaitsR1 := by
  have hpacket : ∀ {packet : Packet} {kind : PacketKind}, stimulus = .packet packet →
      packet.kind = kind → kind = .i1 := fun heq hkind => hkind.symm.trans (hstimulus _ heq)
  have hhold : conn.holdUntil = none := hform.holdUntil_eq_none (by simp [hawaits.state])
  cases hmove with
  | ignore | wait | rest => exact hawaits
  | resend => exact ⟨hawaits.state, hawaits.pending⟩
  | initiate hstate | answerI1 hstate => cases hstate.symm.trans hawaits.state
  | answerI2AsI1 _ hkind | takeUpR1 _ hkind | answerI2 _ hkind | resendR2 _ hkind
  | acceptR2 _ hkind => cases hpacket rfl hkind
  | establish hdue | giveUp hdue => cases hhold.symm.trans hdue
  | search hpending | solve hpending | lose hpending => cases hawaits.pending.symm.trans hpending

namespace Network

variable {network : Network} {event : Event} {side : Side}

/-- Whether a host has sent an I1 to the other and taken up no R1. -/
def Awaits (network : Network) (side : Side) : Prop :=
  ∃ conn, (network.engine side).table.find? (network.peer side) = some conn ∧ conn.AwaitsR1

/-- Whether a host waits for an R1 of the other and has sent it nothing but I1s. -/
structure Greets (network : Network) (side : Side) : Prop where
  awaits : network.Awaits side
  only : ∀ packet, network.Told side packet → packet.kind = .i1

theorem awaits_step_other : (network.step event).Awaits event.side.other ↔
    network.Awaits event.side.other := by
  unfold Awaits
  rw [engine_step_other, peer_step]

theorem Awaits.state? (hawaits : network.Awaits side) : network.state? side = some .i1Sent := by
  obtain ⟨conn, hfind, hconn⟩ := hawaits
  exact Engine.state?_of_find? hfind hconn.state

theorem Awaits.keys? (hawaits : network.Awaits side) (hhonest : network.Honest) :
    network.keys? side = none := by
  obtain ⟨conn, hfind, hconn⟩ := hawaits
  obtain ⟨hmem, -⟩ := ConnectionTable.find?_eq_some_iff.mp hfind
  exact Engine.keys?_of_find? hfind
    (((hhonest.reachable side).wellFormed hmem).keyless (.inr hconn.state))

theorem Greets.step_self (hgreets : network.Greets event.side)
    (hother : network.Greets event.side.other) (hhonest : network.Honest)
    (hadmits : network.Admits event) : (network.step event).Greets event.side := by
  obtain ⟨conn, hfind, hawaits⟩ := hgreets.awaits
  rcases Engine.undisturbed_or_drives (hhonest.reachable event.side) (hhonest.key event.side)
    (hhonest.isOpen event.side) hadmits.notClose (network.peer event.side) with
    hundisturbed | ⟨stimulus, before, moved, hdrives⟩
  · refine ⟨⟨conn, ?_, hawaits⟩, fun packet htold => ?_⟩
    · rw [engine_step_self, peer_step, hundisturbed.find]
      exact hfind
    · rcases told_step_self.mp htold with hold | ⟨out, hout, hparse, hreceiver⟩
      · exact hgreets.only packet hold
      · exact absurd ⟨packet, hparse, hreceiver⟩ (hundisturbed.queued out hout)
  have howns : (network.view False event.side).Owns before := hhonest.owns hdrives.offered
  obtain ⟨ctx, hmoves⟩ := moves_step hdrives False hadmits howns.form
  obtain rfl : before = conn := hdrives.eq_of_find? hfind
  have hmoved := hawaits.move howns.form hmoves.move fun packet heq => by
    by_contra hkind
    exact hkind (hother.only packet (hmoves.heard packet heq hkind))
  have hform := howns.form.move hmoves.move
  constructor
  · rw [Awaits, engine_step_self, peer_step]
    rcases hdrives.kept with hafter | ⟨hidle, -⟩
    · exact ⟨_, hafter, hmoved.state, hmoved.pending⟩
    · cases hidle.symm.trans hmoved.state
  · intro packet htold
    rcases hmoves.only packet htold with hold | ⟨datagram, hout, hparse⟩
    · exact hgreets.only packet hold
    · have hidentity : ctx.identity = (network.engine event.side).identity :=
        congrArg Party.identity hmoves.party
      have hsent := hmoves.move.lastSent_of_parse (hidentity ▸ hhonest.key _)
        (hidentity ▸ howns.speaks) howns.outbox hout hparse
      obtain ⟨last, hlast, hi1⟩ := hform.lastI1 hmoved.state
      obtain rfl := Option.some.inj (hlast.symm.trans hsent)
      exact hi1

theorem Greets.step_other (hgreets : network.Greets event.side.other) :
    (network.step event).Greets event.side.other := by
  constructor
  · exact awaits_step_other.mpr hgreets.awaits
  · rw [told_step_other]
    exact hgreets.only

/-- Two hosts that wait for an R1 of each other and have sent none wait for ever. -/
theorem Greets.run {events : List Event} (hgreets : ∀ side, network.Greets side)
    (hhonest : network.Honest) (hlawful : network.Lawful events) :
    ∀ side, (network.run events).Greets side := by
  induction events generalizing network with
  | nil => exact hgreets
  | cons event rest ih =>
    obtain ⟨hadmits, hrest⟩ := hlawful
    refine ih (fun side => ?_) (hhonest.step hadmits) hrest
    rcases side.eq_or_eq_other event.side with rfl | rfl
    · exact (hgreets _).step_self (hgreets _) hhonest hadmits
    · exact (hgreets _).step_other

/-- A host that connects to the other waits for its R1. -/
theorem greets_of_connect (network : Network) (side : Side) {peer : Hit}
    (hpeer : network.peer side = peer) (hopen : (network.engine side).closed = false)
    (hdistinct : peer ≠ (network.engine side).hit)
    (hunknown : (network.engine side).table.find? peer = none)
    (hroom : (network.engine side).connectionCount < (network.engine side).config.maxConnections)
    (honly : ∀ packet, network.Told side packet → packet.kind = .i1) (address : Address)
    (now : Nat) : ((network.engine side).connect peer address now).result = .ok () ∧
      (network.step ⟨side, .connect peer address now⟩).Greets side := by
  let event : Event := ⟨side, .connect peer address now⟩
  obtain ⟨hresult, ctx, conn, moved, i1, -, -, -, hencode, hfind, hawaits, -, hqueued, -⟩ :=
    Engine.connect_sends_i1 hopen hdistinct hunknown hroom address now
  refine ⟨hresult, ⟨moved, ?_, hawaits⟩, fun packet htold => ?_⟩
  · rw [peer_step, hpeer, show side = event.side from rfl, engine_step_self]
    exact hfind
  · rcases told_step_self.mp (show (network.step event).Told event.side packet from htold) with
      hold | ⟨out, hout, hparse, -⟩
    · exact honly packet hold
    · rw [show (network.engine event.side).queuedBy event.call = _ from hqueued] at hout
      obtain rfl := List.mem_singleton.mp hout
      obtain rfl := Except.ok.inj (hparse.symm.trans (Context.parse_i1 hencode))
      rfl

/-- Two hosts that connect to each other at the beginning wait for each other. -/
theorem greets_of_meets {left right : Engine} (hleft : left.Meets right) (hright : right.Meets left)
    (leftAddress rightAddress : Address) (now : Nat) :
    (left.connect right.hit leftAddress now).result = .ok () ∧
    (right.connect left.hit rightAddress now).result = .ok () ∧
    ∀ side, ((start left right).run [⟨.left, .connect right.hit leftAddress now⟩,
      ⟨.right, .connect left.hit rightAddress now⟩]).Greets side := by
  let first : Event := ⟨.left, .connect right.hit leftAddress now⟩
  have hsilent : ∀ side packet, (start left right).Told side packet → packet.kind = .i1 :=
    fun _ _ htold => absurd htold not_told_start
  let second : Event := ⟨.right, .connect left.hit rightAddress now⟩
  obtain ⟨hconnectLeft, hgreetsLeft⟩ := greets_of_connect (start left right) .left rfl hleft.isOpen
    hright.compatible.distinct hleft.unknown (Nat.lt_of_succ_lt hleft.room)
    (hsilent .left) leftAddress now
  -- the right host is as it was, and told of nothing either
  have htold : ((start left right).step first).Told first.side.other =
      (start left right).Told first.side.other := told_step_other
  obtain ⟨hconnectRight, hgreetsRight⟩ := greets_of_connect ((start left right).step first) .right
    (peer_step _ first .right) hright.isOpen hleft.compatible.distinct hright.unknown
    (Nat.lt_of_succ_lt hright.room) (htold ▸ hsilent .right) rightAddress now
  refine ⟨hconnectLeft, hconnectRight, fun side => ?_⟩
  cases side with
  | left => exact @Greets.step_other _ second hgreetsLeft
  | right => exact hgreetsRight

/-- Two hosts that fit together need not come to an end if both begin before they hear of each
    other: for the sample hosts, no exchange of datagrams leads to the same keys. -/
theorem not_forall_resolved :
    ¬∀ (left right : Engine) (leftAddress rightAddress : Address) (now : Nat),
    (∃ config identity source rest seed now log,
      Engine.create config identity source seed now = (.ok (left, log), rest)) →
    (∃ config identity source rest seed now log,
      Engine.create config identity source seed now = (.ok (right, log), rest)) →
    left.party.Compatible right.party → right.party.Compatible left.party →
    (left.connect right.hit leftAddress now).result = .ok () →
    (right.connect left.hit rightAddress now).result = .ok () →
    ∃ later, ((start left right).run [⟨.left, .connect right.hit leftAddress now⟩,
        ⟨.right, .connect left.hit rightAddress now⟩]).Exchanges later ∧
      Event.Timely (⟨.right, .connect left.hit rightAddress now⟩ :: later) ∧
      (((start left right).run [⟨.left, .connect right.hit leftAddress now⟩,
        ⟨.right, .connect left.hit rightAddress now⟩]).run later).IsResolved := by
  intro hall
  obtain ⟨left, right, hleft, hright, hmeetsLeft, hmeetsRight, -⟩ := SampleHost.exists_meets
  obtain ⟨leftLog, leftRest, hleftCreated⟩ := hleft.created
  obtain ⟨rightLog, rightRest, hrightCreated⟩ := hright.created
  obtain ⟨hconnectLeft, hconnectRight, hgreets⟩ :=
    greets_of_meets hmeetsLeft hmeetsRight Side.left.remote Side.right.remote 0
  obtain ⟨later, hexchanges, -, hresolved⟩ := hall left right Side.left.remote Side.right.remote 0
    ⟨_, _, _, _, _, _, _, hleftCreated⟩ ⟨_, _, _, _, _, _, _, hrightCreated⟩ hmeetsLeft.compatible
    hmeetsRight.compatible hconnectLeft hconnectRight
  let crossing : List Event := [⟨.left, .connect right.hit Side.left.remote 0⟩,
    ⟨.right, .connect left.hit Side.right.remote 0⟩]
  have hcrossing : (start left right).Lawful crossing :=
    ⟨admits_connect _ _ _ _, admits_connect _ _ _ _, trivial⟩
  have hhonest := (honest_of_meets hmeetsLeft hmeetsRight).run hcrossing
  have hstill := Greets.run hgreets hhonest hexchanges.lawful .left
  obtain ⟨hdone, -⟩ := hresolved .left
  rw [hstill.awaits.state?] at hdone
  cases hdone

end Network

end DietExchange
