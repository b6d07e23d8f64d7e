import DietExchange.Proofs.Engine.Secrets
import DietExchange.Proofs.Network.Restart

namespace DietExchange

namespace Connection

/-- How a connection that leads goes on where no I2 counts. -/
inductive Presses (ctx : Context) (conn moved : Connection) : Prop where
  | stay (hstate : moved.state = conn.state) (hkeys : moved.keys = conn.keys)
    (hpending : moved.pending.map (·.puzzle) = conn.pending.map (·.puzzle))
    (hsilent : ∀ datagram, .transmit datagram ∈ moved.outbox →
      ∃ kind, conn.lastSent = some ⟨kind, datagram⟩)
  | finish (hwaits : conn.state = .i2Sent) (hstate : moved.state = .established)
    (hkeys : moved.keys = conn.keys) (hsilent : ∀ datagram, .transmit datagram ∉ moved.outbox)
  | answer {pending : PendingAnswer} {answer : Block} {i2 : Packet} {datagram : List UInt8}
    (hpending : conn.pending = some pending)
    (hseal : (ctx.i2 conn pending.puzzle answer).recalculateMac pending.keys.initiator.integrity =
      .ok i2)
    (hencode : (i2.withEcho pending.echo).encode = .ok datagram) (hstate : moved.state = .i2Sent)
    (honly : ∀ other, .transmit other ∈ moved.outbox → other = datagram)

variable {ctx : Context} {stimulus : Stimulus} {conn moved : Connection}

/-- A connection that leads goes on alone: an I2 does not count, and the puzzle is not lost. -/
theorem Move.presses (hmove : conn.Move ctx stimulus moved) (hform : conn.WellFormed)
    (houtbox : conn.outbox = [])
    (hleads : conn.pending ≠ none ∨ conn.state = .i2Sent ∨ conn.state = .established ∧
      ¬conn.Responds)
    (hdeaf : ∀ packet, stimulus = .packet packet → packet.kind = .i2 → conn.pending = none ∧
      ∀ keys cipher, ctx.validateI2 conn.host conn.peer packet ≠ .ok (keys, cipher))
    (hkept : ∀ pending answer, conn.pending = some pending → ∃ i2 datagram,
      (ctx.i2 conn pending.puzzle answer).recalculateMac pending.keys.initiator.integrity = .ok i2 ∧
        (i2.withEcho pending.echo).encode = .ok datagram) : conn.Presses ctx moved := by
  have hstates : conn.state = .i1Sent ∧ conn.pending ≠ none ∨ conn.state = .i2Sent ∨
      conn.state = .established := by
    rcases hleads with hsolving | hwaits | ⟨hdone, -⟩
    · obtain ⟨pending, hpending⟩ := Option.ne_none_iff_exists'.mp hsolving
      exact .inl ⟨(hform.pending pending hpending).1, hsolving⟩
    · exact .inr (.inl hwaits)
    · exact .inr (.inr hdone)
  have hhold : conn.holdUntil = none := by
    refine hform.holdUntil_eq_none ?_
    rcases hstates with ⟨hstate, -⟩ | hstate | hstate <;> simp [hstate]
  have hnone : ∀ datagram, .transmit datagram ∉ conn.outbox := by
    intro datagram
    rw [houtbox]
    exact List.not_mem_nil
  have hstay : conn.Presses ctx conn := .stay rfl rfl rfl fun datagram hout =>
    absurd hout (hnone datagram)
  cases hmove with
  | ignore | wait | rest => exact hstay
  | initiate hstate | answerI1 hstate | resendR2 hstate =>
    rcases hstates with ⟨hother, -⟩ | hother | hother <;> cases hstate.symm.trans hother
  | answerI2AsI1 hstate hkind =>
    obtain ⟨hidle, -⟩ := hdeaf _ rfl hkind
    rcases hstates with ⟨-, hsolving⟩ | hother | hother
    · exact absurd hidle hsolving
    · cases hstate.symm.trans hother
    · cases hstate.symm.trans hother
  | takeUpR1 hstate _ hidle =>
    rcases hstates with ⟨-, hsolving⟩ | hother | hother
    · exact absurd hidle hsolving
    · cases hstate.symm.trans hother
    · cases hstate.symm.trans hother
  | answerI2 _ hkind hvalid => exact absurd hvalid ((hdeaf _ rfl hkind).2 _ _)
  | acceptR2 hstate =>
    exact .finish hstate (by simp [emit]) (by simp [emit]) fun datagram => by simp [emit, houtbox]
  | establish hdue | giveUp hdue => cases hhold.symm.trans hdue
  | @search _ pending _ hpending =>
    exact .stay rfl rfl (by simp [hpending]) fun datagram hout => absurd hout (hnone datagram)
  | solve hpending _ hseal hencode =>
    refine .answer hpending hseal hencode (by simp [conclude]) fun other hout => ?_
    simpa [conclude, transmit, houtbox] using hout
  | @lose _ pending _ answer hpending _ hfail =>
    obtain ⟨i2, datagram, hseal, hencode⟩ := hkept pending answer hpending
    exact absurd hencode (hfail i2 datagram hseal)
  | @resend _ sent _ _ hsent =>
    refine .stay rfl rfl rfl fun datagram hout => ⟨sent.kind, ?_⟩
    obtain rfl : datagram = sent.datagram := by simpa [emit, houtbox] using hout
    exact hsent

/-- Without an I2 that counts or an R2, nothing comes of a connection that is not done and no
    responder. -/
theorem Move.trails (hmove : conn.Move ctx stimulus moved) (hform : conn.WellFormed)
    (hstate : conn.state ≠ .established) (hresponds : ¬conn.Responds)
    (hr2 : ∀ packet, stimulus = .packet packet → packet.kind ≠ .r2)
    (hi2 : ∀ packet keys cipher, stimulus = .packet packet → packet.kind = .i2 →
      ctx.validateI2 conn.host conn.peer packet ≠ .ok (keys, cipher)) :
    moved.state ≠ .established ∧ ¬moved.Responds := by
  have hmoved := hform.move hmove
  have hkeyless : moved.keys = none → moved.state ≠ .established ∧ ¬moved.Responds := by
    intro hnone
    refine ⟨fun hdone => ?_, fun ⟨keys, hkeys, _⟩ => by cases hnone.symm.trans hkeys⟩
    have hsome := hmoved.established hdone
    rw [hnone] at hsome
    cases hsome
  cases hmove.turns hform with
  | stay hkeys _ hestablished =>
    refine ⟨fun hdone => (hestablished hdone).elim hstate hresponds, ?_⟩
    rintro ⟨keys, hsome, hrole⟩
    exact hresponds ⟨keys, hkeys ▸ hsome, hrole⟩
  | takeUp _ _ _ hkeys => exact hkeyless hkeys
  | initiate _ _ _ _ hi2Sent =>
    refine ⟨by simp [hi2Sent], fun hbecomes => ?_⟩
    rcases hmoved.of_responds hbecomes with hother | hother <;> cases hi2Sent.symm.trans hother
  | respond _ hkind hvalid => exact absurd hvalid (hi2 _ _ _ rfl hkind)
  | complete hkind => exact absurd hkind (hr2 _ rfl)

/-- A connection that waits for an R2 with the smaller HIT only sends its I2 again. -/
theorem Move.of_smaller (hmove : conn.Move ctx stimulus moved) (hform : conn.WellFormed)
    (houtbox : conn.outbox = []) (hstate : conn.state = .i2Sent) (hsmaller : conn.host < conn.peer)
    (hr2 : ∀ packet, stimulus = .packet packet → packet.kind ≠ .r2) : moved.state = .i2Sent ∧
      ∀ datagram, .transmit datagram ∈ moved.outbox →
      ∃ kind, conn.lastSent = some ⟨kind, datagram⟩ := by
  have hidle : conn.pending = none := hform.pending_eq_none (by simp [hstate])
  have hhold : conn.holdUntil = none := hform.holdUntil_eq_none (by simp [hstate])
  have hnone : ∀ datagram, .transmit datagram ∈ conn.outbox →
      ∃ kind, conn.lastSent = some ⟨kind, datagram⟩ := by
    intro datagram hout
    rw [houtbox] at hout
    exact absurd hout List.not_mem_nil
  cases hmove with
  | ignore | wait | rest => exact ⟨hstate, hnone⟩
  | initiate hother | answerI1 hother | answerI2AsI1 hother | takeUpR1 hother | resendR2 hother =>
    cases hstate.symm.trans hother
  | answerI2 hanswers =>
    rcases hanswers with hother | ⟨-, hlarger⟩ | ⟨hother, -⟩ | hother
    · cases hstate.symm.trans hother
    · exact absurd hsmaller hlarger
    · cases hstate.symm.trans hother
    · cases hstate.symm.trans hother
  | acceptR2 _ hkind => exact absurd hkind (hr2 _ rfl)
  | establish hdue | giveUp hdue => cases hhold.symm.trans hdue
  | search hpending | solve hpending | lose hpending => cases hidle.symm.trans hpending
  | @resend _ sent _ _ hsent =>
    refine ⟨hstate, fun datagram hout => ⟨sent.kind, ?_⟩⟩
    obtain rfl : datagram = sent.datagram := by simpa [emit, houtbox] using hout
    exact hsent

/-- Whoever writes an R2 has found an I2 valid. -/
theorem Writes.carries {datagram : List UInt8} (hwrites : conn.Writes ctx stimulus datagram)
    (hkey : ctx.identity.HasCurveKey) : ∃ kind, conn.Carries ctx.identity kind datagram ∧
      (kind = .r2 → ∃ packet keys cipher, stimulus = .packet packet ∧ packet.kind = .i2 ∧
        ctx.validateI2 conn.host conn.peer packet = .ok (keys, cipher)) := by
  cases hwrites with
  | i1 hencode => exact ⟨.i1, carries_i1 hencode, by simp⟩
  | r1 _ hencode => exact ⟨.r1, carries_r1 hkey hencode, by simp⟩
  | i2 _ hseal hencode => exact ⟨.i2, carries_i2 hkey hseal hencode, by simp⟩
  | r2 hkind hvalid hseal hencode =>
    exact ⟨.r2, carries_r2 hseal hencode, fun _ => ⟨_, _, _, rfl, hkind, hvalid⟩⟩

end Connection

namespace Network

variable (network : Network)

/-- What holds of two hosts and their datagrams whatever happens. -/
structure Lasts : Prop where
  honest : network.Honest
  accepted : ∀ side, (network.engine side).config.IsAccepted
  recorded : network.IsRecorded

/-- Whether a challenge of a host comes from none of the secrets that it can ever keep. -/
def Barred (side : Side) (challenge : Block) : Prop :=
  ∀ secret, (network.engine side).CanKeep secret →
    challenge ≠ challengeFor secret (network.peer side) (network.engine side).hit []

/-- Whether no I2 of a host counts for the other one. -/
def Refused (side : Side) : Prop :=
  ∀ packet solution, network.Told side packet → packet.kind = .i2 →
  packet.solution? = some solution → network.Barred side.other solution.challenge

/-- Whether no R1 of a host is good for anything. -/
def Spent (side : Side) : Prop := ∀ puzzle, network.Posed side puzzle →
    network.Barred side puzzle.challenge

/-- Whether a host waits for an R2 that never comes. -/
structure Stuck (side : Side) : Prop where
  waits : network.state? side = some .i2Sent
  smaller : (network.engine side).hit < (network.engine side.other).hit
  silent : ∀ packet, network.Told side.other packet → packet.kind ≠ .r2
  refused : network.Refused side

/-- Whether a host works on a puzzle of old, and the other one cannot make it begin anew. -/
def WorksAlone (side : Side) (conn : Connection) : Prop :=
  (∃ pending, conn.pending = some pending ∧ network.Barred side.other pending.puzzle.challenge) ∧
  (∀ packet, network.Told side.other packet → packet.kind ≠ .i2) ∧
  ((∀ packet, network.Told side packet → packet.kind ≠ .r1) ∨
    (network.engine side.other).hit < (network.engine side).hit)

/-- Whether a host goes by what was promised before, and the other one can only look on. -/
structure Leads (side : Side) : Prop where
  ahead : ∃ conn, (network.engine side).table.find? (network.peer side) = some conn ∧
    (network.WorksAlone side conn ∨ conn.state = .i2Sent ∨ conn.state = .established ∧
      ¬conn.Responds)
  silent : ∀ packet, network.Told side packet → packet.kind ≠ .r2
  refused : network.Refused side
  spent : network.Spent side
  trails : ∀ conn, network.Linked side.other conn → conn.state ≠ .established ∧ ¬conn.Responds

variable {network} {event : Event} {side : Side}

theorem Lasts.step (hlasts : network.Lasts) (hadmits : network.Admits event) :
    (network.step event).Lasts where
  honest := hlasts.honest.step hadmits
  accepted side := by
    rw [(network.continues_step event side).config]
    exact hlasts.accepted side
  recorded := hlasts.recorded.step hlasts.honest hlasts.accepted hadmits

/-- What a host can keep after an event, it could keep before. -/
theorem Barred.step {challenge : Block} (hbarred : network.Barred side challenge) :
    (network.step event).Barred side challenge := by
  intro secret hkeeps
  rw [peer_step, (network.continues_step event side).hit]
  refine hbarred secret ?_
  rcases side.eq_or_eq_other event.side with rfl | rfl
  · rw [engine_step_self] at hkeeps
    exact hkeeps.of_after
  · rwa [engine_step_other] at hkeeps

theorem Refused.step_other (hrefused : network.Refused event.side.other) :
    (network.step event).Refused event.side.other := by
  intro packet solution htold hkind hsolution
  rw [told_step_other] at htold
  exact (hrefused packet solution htold hkind hsolution).step

theorem Spent.step_other (hspent : network.Spent event.side.other) :
    (network.step event).Spent event.side.other := by
  intro puzzle ⟨packet, htold, hrest⟩
  rw [told_step_other] at htold
  exact (hspent puzzle ⟨packet, htold, hrest⟩).step

/-- An I2 that answers an R1 that is good for nothing counts for nothing. -/
theorem Spent.refused {leader : Side} (hother : side.other = leader) (hspent : network.Spent leader)
    (hrecorded : network.IsRecorded) : network.Refused side := by
  subst hother
  intro packet solution htold hkind hsolution
  obtain ⟨_, -, -, -, hletter⟩ := hrecorded.letter htold
  obtain ⟨-, -, found, puzzle, hfound, hposed, hsame⟩ := hletter.solves hkind
  obtain rfl := Option.some.inj (hfound.symm.trans hsolution)
  exact hsame ▸ hspent puzzle hposed

section Step

variable (hlasts : network.Lasts) (hadmits : network.Admits event)
include hlasts hadmits

section Drives

variable {stimulus : Stimulus} {before moved : Connection} (hdrives :
  (network.engine event.side).Drives event.call (network.peer event.side) stimulus before moved)
include hdrives

/-- Where no I2 of the other host counts, none is found valid. -/
theorem Refused.validateI2_ne (hrefused : network.Refused event.side.other) {ctx : Context}
    (hissuer : ∀ packet, stimulus = .packet packet →
      ctx.issuer = (network.engine event.side).issuer)
    {packet : Packet} (hstimulus : stimulus = .packet packet) (hkind : packet.kind = .i2)
    (keys : KeySet) (cipher : CipherSuite) :
    ctx.validateI2 before.host before.peer packet ≠ .ok (keys, cipher) := by
  intro hvalid
  have howns : (network.view False event.side).Owns before := hlasts.honest.owns hdrives.offered
  obtain ⟨solution, id, haccepts⟩ := Context.validateI2_eq_ok_iff.mp hvalid
  obtain ⟨⟨secret, hmem, hsecret⟩, -⟩ := PuzzleIssuer.accepts_of_verify haccepts.solved
  have htold := told_of_stimulus hdrives hadmits hstimulus (by simp [hkind])
  have hbarred := hrefused packet solution htold hkind haccepts.hasSolution
  rw [Side.other_other] at hbarred
  rw [hissuer packet hstimulus] at hmem
  rw [howns.host, howns.peer] at hsecret
  exact hbarred secret (.inl hmem) hsecret.symm

/-- A host that leads goes on alone. -/
theorem Leads.presses (hleads : network.Leads event.side)
    (hahead : network.WorksAlone event.side before ∨ before.state = .i2Sent ∨
      before.state = .established ∧ ¬before.Responds) :
    ∃ ctx : Context, ctx.identity.HasCurveKey ∧ before.Presses ctx moved := by
  have howns : (network.view False event.side).Owns before := hlasts.honest.owns hdrives.offered
  obtain ⟨ctx, hparty, hissuer, hmove⟩ := hdrives.move
  have hkey : ctx.identity.HasCurveKey := by
    rw [show ctx.identity = (network.engine event.side).identity from congrArg
      Party.identity hparty]
    exact hlasts.honest.key event.side
  have hrefused : network.Refused event.side.other :=
    hleads.spent.refused (Side.other_other _) hlasts.recorded
  refine ⟨ctx, hkey, hmove.presses howns.form howns.outbox ?_
    (fun packet hstimulus hkind => ⟨?_, ?_⟩) fun pending answer hpending => ?_⟩
  · exact hahead.imp_left fun ⟨⟨pending, hpending, _⟩, _⟩ => by simp [hpending]
  · have htold := told_of_stimulus hdrives hadmits hstimulus (by simp [hkind])
    rcases hahead with ⟨-, hquiet, -⟩ | hwaits | ⟨hdone, -⟩
    · exact absurd hkind (hquiet packet htold)
    · exact howns.form.pending_eq_none (by simp [hwaits])
    · exact howns.form.pending_eq_none (by simp [hdone])
  · exact hrefused.validateI2_ne hlasts hadmits hdrives hissuer hstimulus hkind
  · obtain ⟨-, hecho, hlength⟩ :=
      (hlasts.recorded event.side before hdrives.offered).pending pending hpending
    rw [hecho]
    exact Context.exists_seal_i2 hkey before pending.puzzle answer hlength

omit hadmits in
/-- A host that only sends again what it has sent tells nothing new. -/
theorem told_of_silent (hsilent : ∀ datagram, .transmit datagram ∈ moved.outbox →
      ∃ kind, before.lastSent = some ⟨kind, datagram⟩) {packet : Packet}
    (htold : (network.step event).Told event.side packet) : network.Told event.side packet := by
  obtain ⟨datagram, hsent, hparse, hreceiver⟩ := htold
  rw [peer_step] at hreceiver
  refine ⟨datagram, ?_, hparse, hreceiver⟩
  rcases mem_or_transmit_of_sent hdrives hsent hparse hreceiver with hold | hout
  · exact hold
  · obtain ⟨kind, hlast⟩ := hsilent datagram hout
    exact (hlasts.recorded event.side before hdrives.offered).last _ hlast

omit hlasts hadmits in
/-- A host that is done with its puzzle tells an answer to that, and nothing else. -/
theorem told_of_answer {ctx : Context} (hkey : ctx.identity.HasCurveKey) {pending : PendingAnswer}
    {answer : Block} {i2 : Packet} {datagram : List UInt8}
    (hseal : (ctx.i2 before pending.puzzle answer).recalculateMac pending.keys.initiator.integrity =
      .ok i2) (hencode : (i2.withEcho pending.echo).encode = .ok datagram)
    (honly : ∀ other, .transmit other ∈ moved.outbox → other = datagram) {packet : Packet}
    (htold : (network.step event).Told event.side packet) : network.Told event.side packet ∨
      packet.kind = .i2 ∧ ∀ solution, packet.solution? = some solution →
        solution.challenge = pending.puzzle.challenge := by
  obtain ⟨sent, hsent, hparse, hreceiver⟩ := htold
  rw [peer_step] at hreceiver
  refine (mem_or_transmit_of_sent hdrives hsent hparse hreceiver).imp
    (fun hold => ⟨sent, hold, hparse, hreceiver⟩) fun hout => ?_
  obtain rfl := honly sent hout
  obtain rfl := Except.ok.inj (hparse.symm.trans (Context.parse_i2 pending.echo hkey hseal hencode))
  obtain ⟨hkind, -⟩ := Context.header_i2 pending.echo hseal
  refine ⟨hkind, fun solution hsolution => ?_⟩
  obtain rfl := Option.some.inj (hsolution.symm.trans (Context.solution?_i2 hseal))
  rfl

end Drives

/-- Where no I2 of the other host counts, there is no new R2. -/
theorem Refused.told_r2 (hrefused : network.Refused event.side.other) {packet : Packet}
    (htold : (network.step event).Told event.side packet) (hkind : packet.kind = .r2) :
    network.Told event.side packet := by
  have hhonest := hlasts.honest
  obtain ⟨datagram, hsent, hparse, hreceiver⟩ := htold
  rw [peer_step] at hreceiver
  refine ⟨datagram, ?_, hparse, hreceiver⟩
  rcases Engine.undisturbed_or_drives (hhonest.reachable event.side) (hhonest.key event.side)
    (hhonest.isOpen event.side) hadmits.notClose (network.peer event.side) with
    hundisturbed | ⟨stimulus, before, moved, hdrives⟩
  · exact mem_of_undisturbed hundisturbed hsent hparse hreceiver
  rcases mem_or_transmit_of_sent hdrives hsent hparse hreceiver with hold | hout
  · exact hold
  have howns : (network.view False event.side).Owns before := hhonest.owns hdrives.offered
  obtain ⟨ctx, hparty, hissuer, hmove⟩ := hdrives.move
  have hidentity : ctx.identity = (network.engine event.side).identity :=
    congrArg Party.identity hparty
  rcases hmove.writes howns.outbox hout with ⟨kind, hlast⟩ | hwrites
  · exact (hlasts.recorded event.side before hdrives.offered).last _ hlast
  obtain ⟨kind, ⟨found, hfound, rfl, -⟩, hr2⟩ :=
    hwrites.carries (hidentity ▸ hhonest.key event.side)
  obtain rfl := Except.ok.inj (hfound.symm.trans hparse)
  obtain ⟨i2, keys, cipher, hstimulus, hi2, hvalid⟩ := hr2 hkind
  exact absurd hvalid
    (hrefused.validateI2_ne hlasts hadmits hdrives hissuer hstimulus hi2 keys cipher)

/-- A host that waits in vain goes on waiting, whatever reaches it. -/
theorem Stuck.step_self (hstuck : network.Stuck event.side) :
    (network.step event).Stuck event.side := by
  have hhonest := hlasts.honest
  obtain ⟨conn, hfind, hstate⟩ := Option.map_eq_some_iff.mp hstuck.waits
  have hrest : (∀ packet, (network.step event).Told event.side packet →
      network.Told event.side packet) →
      (network.step event).state? event.side = some .i2Sent →
      (network.step event).Stuck event.side := by
    intro htold hwaits
    refine ⟨hwaits, ?_, ?_, fun packet solution hafter hkind hsolution => ?_⟩
    · rw [(network.continues_step event _).hit, (network.continues_step event _).hit]
      exact hstuck.smaller
    · rw [told_step_other]
      exact hstuck.silent
    · exact (hstuck.refused packet solution (htold packet hafter) hkind hsolution).step
  rcases Engine.undisturbed_or_drives (hhonest.reachable event.side) (hhonest.key event.side)
    (hhonest.isOpen event.side) hadmits.notClose (network.peer event.side) with
    hundisturbed | ⟨stimulus, before, moved, hdrives⟩
  · refine hrest (fun packet => told_of_undisturbed hundisturbed) ?_
    rw [state?_step_self, Engine.state?, hundisturbed.find]
    exact hstuck.waits
  have howns : (network.view False event.side).Owns before := hhonest.owns hdrives.offered
  obtain rfl : before = conn := hdrives.eq_of_find? hfind
  obtain ⟨ctx, hparty, hissuer, hmove⟩ := hdrives.move
  obtain ⟨hmoved, hsilent⟩ := hmove.of_smaller howns.form howns.outbox hstate
    (by rw [howns.host, howns.peer]; exact hstuck.smaller) fun packet hstimulus hkind =>
      hstuck.silent packet (told_of_stimulus hdrives hadmits hstimulus (by simp [hkind])) hkind
  refine hrest (fun packet => told_of_silent hlasts hdrives hsilent) ?_
  rw [state?_step_self]
  rcases hdrives.kept with hafter | ⟨hidle, -⟩
  · exact Engine.state?_of_find? hafter hmoved
  · cases hidle.symm.trans hmoved

/-- Nor does the other one come to answer it. -/
theorem Stuck.step_other (hstuck : network.Stuck event.side.other) :
    (network.step event).Stuck event.side.other := by
  refine ⟨?_, ?_, fun packet htold hkind => ?_, hstuck.refused.step_other⟩
  · unfold state?
    rw [engine_step_other, peer_step]
    exact hstuck.waits
  · rw [(network.continues_step event _).hit, (network.continues_step event _).hit]
    exact hstuck.smaller
  · have hsilent := hstuck.silent
    rw [Side.other_other] at htold hsilent
    exact hsilent packet (hstuck.refused.told_r2 hlasts hadmits htold hkind) hkind

theorem Stuck.step (hstuck : network.Stuck side) : (network.step event).Stuck side := by
  rcases side.eq_or_eq_other event.side with rfl | rfl
  · exact hstuck.step_self hlasts hadmits
  · exact hstuck.step_other hlasts hadmits

omit hlasts hadmits in
/-- The puzzle of a host that works alone stays the same as long as it is worked on. -/
theorem WorksAlone.step_self {conn moved : Connection} (hworks : network.WorksAlone event.side conn)
    (hpuzzle : moved.pending.map (·.puzzle) = conn.pending.map (·.puzzle))
    (htold : ∀ packet, (network.step event).Told event.side packet →
      network.Told event.side packet) : (network.step event).WorksAlone event.side moved := by
  obtain ⟨⟨pending, hpending, hbarred⟩, hquiet, hcannot⟩ := hworks
  rw [hpending, Option.map_some, Option.map_eq_some_iff] at hpuzzle
  obtain ⟨later, hlater, hsame⟩ := hpuzzle
  refine ⟨⟨later, hlater, hsame ▸ hbarred.step⟩, ?_, ?_⟩
  · rw [told_step_other]
    exact hquiet
  · rw [(network.continues_step event _).hit, (network.continues_step event _).hit]
    exact hcannot.imp_left fun hnone packet hafter => hnone packet (htold packet hafter)

omit hlasts hadmits in
/-- A host leads on where all that it tells anew is an I2 that does not count. -/
theorem Leads.of_told (hleads : network.Leads event.side) {conn : Connection}
    (hfind : ((network.engine event.side).after event.call).table.find? (network.peer event.side) =
      some conn)
    (hahead : (network.step event).WorksAlone event.side conn ∨ conn.state = .i2Sent ∨
      conn.state = .established ∧ ¬conn.Responds)
    (htold : ∀ packet, (network.step event).Told event.side packet →
      network.Told event.side packet ∨
      packet.kind = .i2 ∧ ∀ solution, packet.solution? = some solution →
        network.Barred event.side.other solution.challenge) :
          (network.step event).Leads event.side where
  ahead := by
    refine ⟨conn, ?_, hahead⟩
    rw [engine_step_self, peer_step]
    exact hfind
  silent packet hafter hkind := by
    rcases htold packet hafter with hold | ⟨hi2, -⟩
    · exact hleads.silent packet hold hkind
    · cases hi2.symm.trans hkind
  refused packet solution hafter hkind hsolution := by
    rcases htold packet hafter with hold | ⟨-, hbarred⟩
    · exact (hleads.refused packet solution hold hkind hsolution).step
    · exact (hbarred solution hsolution).step
  spent puzzle := by
    rintro ⟨packet, hafter, hkind, hpuzzle⟩
    rcases htold packet hafter with hold | ⟨hi2, -⟩
    · exact (hleads.spent puzzle ⟨packet, hold, hkind, hpuzzle⟩).step
    · cases hi2.symm.trans hkind
  trails conn hlinked := hleads.trails conn (linked_step_other.mp hlinked)

/-- A host that leads goes on leading, whatever reaches it. -/
theorem Leads.step_self (hleads : network.Leads event.side) :
    (network.step event).Leads event.side := by
  have hhonest := hlasts.honest
  obtain ⟨conn, hfind, hahead⟩ := hleads.ahead
  rcases Engine.undisturbed_or_drives (hhonest.reachable event.side) (hhonest.key event.side)
    (hhonest.isOpen event.side) hadmits.notClose (network.peer event.side) with
    hundisturbed | ⟨stimulus, before, moved, hdrives⟩
  · refine hleads.of_told (hundisturbed.find.trans hfind) (hahead.imp_left fun hworks => ?_)
      fun packet hafter => .inl (told_of_undisturbed hundisturbed hafter)
    exact hworks.step_self rfl fun packet => told_of_undisturbed hundisturbed
  obtain rfl : before = conn := hdrives.eq_of_find? hfind
  have howns : (network.view False event.side).Owns before := hhonest.owns hdrives.offered
  obtain ⟨ctx, hkey, hpresses⟩ := hleads.presses hlasts hadmits hdrives hahead
  have hafter : moved.state ≠ .unassociated →
      ((network.engine event.side).after event.call).table.find? (network.peer event.side) =
        some moved.settled := fun hbusy => hdrives.kept.resolve_right fun ⟨hidle, _⟩ => hbusy hidle
  cases hpresses with
  | stay hstate hkeys hpuzzle hsilent =>
    have htold : ∀ packet, (network.step event).Told event.side packet →
        network.Told event.side packet :=
      fun _ => told_of_silent hlasts hdrives hsilent
    refine hleads.of_told (hafter ?_) ?_ fun packet hnew => .inl (htold packet hnew)
    · rw [hstate]
      rcases hahead with ⟨⟨pending, hpending, -⟩, -⟩ | hwaits | ⟨hdone, -⟩
      · simp [(howns.form.pending pending hpending).1]
      · simp [hwaits]
      · simp [hdone]
    · rcases hahead with hworks | hwaits | ⟨hdone, hresponds⟩
      · exact .inl (hworks.step_self hpuzzle htold)
      · exact .inr (.inl (hstate.trans hwaits))
      · refine .inr (.inr ⟨hstate.trans hdone, ?_⟩)
        rintro ⟨keys, hsome, hrole⟩
        exact hresponds ⟨keys, hkeys.symm.trans hsome, hrole⟩
  | finish hwaits hstate hkeys hsilent =>
    have hresponds : ¬before.Responds := fun hyes => by
      rcases howns.form.of_responds hyes with hother | hother <;> cases hwaits.symm.trans hother
    refine hleads.of_told (hafter (by simp [hstate])) (.inr (.inr ⟨hstate, ?_⟩)) fun packet hnew =>
      .inl (told_of_silent hlasts hdrives (fun datagram hout =>
        absurd hout (hsilent datagram)) hnew)
    rintro ⟨keys, hsome, hrole⟩
    exact hresponds ⟨keys, hkeys.symm.trans hsome, hrole⟩
  | @answer pending answer i2 datagram hpending hseal hencode hstate honly =>
    have hbarred : network.Barred event.side.other pending.puzzle.challenge := by
      have hsolving := (howns.form.pending pending hpending).1
      rcases hahead with ⟨⟨worked, hworked, hbarred⟩, -⟩ | hwaits | ⟨hdone, -⟩
      · obtain rfl := Option.some.inj (hpending.symm.trans hworked)
        exact hbarred
      · cases hsolving.symm.trans hwaits
      · cases hsolving.symm.trans hdone
    refine hleads.of_told (hafter (by simp [hstate])) (.inr (.inl hstate)) fun packet hnew => ?_
    refine (told_of_answer hdrives hkey hseal hencode honly hnew).imp_right fun ⟨hkind, hsame⟩ => ?_
    exact ⟨hkind, fun solution hsolution => hsame solution hsolution ▸ hbarred⟩

/-- What comes of the other host is no responder and not done. -/
theorem Leads.trails_step (hleads : network.Leads event.side.other) {conn : Connection}
    (hlinked : (network.step event).Linked event.side conn) :
    conn.state ≠ .established ∧ ¬conn.Responds := by
  have hhonest := hlasts.honest
  have hbehind := hleads.trails
  rw [Side.other_other] at hbehind
  rcases Engine.undisturbed_or_drives (hhonest.reachable event.side) (hhonest.key event.side)
    (hhonest.isOpen event.side) hadmits.notClose (network.peer event.side) with
    hundisturbed | ⟨stimulus, before, moved, hdrives⟩
  · exact hbehind conn (linked_of_undisturbed hundisturbed hlinked)
  have howns : (network.view False event.side).Owns before := hhonest.owns hdrives.offered
  obtain ⟨hstate, hresponds⟩ := hbehind before hdrives.offered
  obtain ⟨ctx, hparty, hissuer, hmove⟩ := hdrives.move
  have hmoved := hmove.trails howns.form hstate hresponds
    (fun packet hstimulus hkind =>
      hleads.silent packet (told_of_stimulus hdrives hadmits hstimulus (by simp [hkind])) hkind)
    fun packet keys cipher hstimulus hkind =>
      hleads.refused.validateI2_ne hlasts hadmits hdrives hissuer hstimulus hkind keys cipher
  unfold Linked at hlinked
  rw [engine_step_self, peer_step] at hlinked
  rcases hlinked with hfound | ⟨-, address, rfl⟩
  · rcases hdrives.kept with hfind | ⟨-, -, hnone⟩
    · obtain rfl := Option.some.inj (hfind.symm.trans hfound)
      exact hmoved
    · cases hnone.symm.trans hfound
  · exact ⟨by simp [Connection.fresh], fun ⟨keys, hkeys, _⟩ => by cases hkeys⟩

/-- A host that tells its first I2 waits for an R2 then. -/
theorem waits_of_told (hnone : ∀ packet, network.Told event.side packet → packet.kind ≠ .i2)
    {packet : Packet} (htold : (network.step event).Told event.side packet)
    (hkind : packet.kind = .i2) : (network.step event).state? event.side = some .i2Sent := by
  have hhonest := hlasts.honest
  rcases Engine.undisturbed_or_drives (hhonest.reachable event.side) (hhonest.key event.side)
    (hhonest.isOpen event.side) hadmits.notClose (network.peer event.side) with
    hundisturbed | ⟨stimulus, before, moved, hdrives⟩
  · exact absurd hkind (hnone packet (told_of_undisturbed hundisturbed htold))
  have howns : (network.view False event.side).Owns before := hhonest.owns hdrives.offered
  obtain ⟨ctx, hmoves⟩ := moves_step hdrives False hadmits howns.form
  rcases hmoves.i2_cases howns (hhonest.key _) htold hkind with hold | ⟨hstate, -⟩
  · exact absurd hkind (hnone packet hold)
  rw [state?_step_self]
  rcases hdrives.kept with hafter | ⟨hidle, -⟩
  · exact Engine.state?_of_find? hafter hstate
  · cases hidle.symm.trans hstate

/-- The other host can only make an I2 of its own that leaves it waiting in vain. -/
theorem Leads.step_other (hleads : network.Leads event.side.other) :
    (network.step event).Leads event.side.other ∨ (network.step event).Stuck event.side := by
  obtain ⟨conn, hfind, hahead⟩ := hleads.ahead
  have hrest : ((network.step event).WorksAlone event.side.other conn ∨ conn.state = .i2Sent ∨
      conn.state = .established ∧ ¬conn.Responds) →
      (network.step event).Leads event.side.other := by
    intro hstill
    refine ⟨⟨conn, ?_, hstill⟩, ?_, hleads.refused.step_other, hleads.spent.step_other, ?_⟩
    · rwa [engine_step_other, peer_step]
    · rw [told_step_other]
      exact hleads.silent
    · rw [Side.other_other]
      exact fun _ => hleads.trails_step hlasts hadmits
  rcases hahead with ⟨⟨pending, hpending, hbarred⟩, hquiet, hcannot⟩ | hlater
  swap
  · exact .inl (hrest (.inr hlater))
  rw [Side.other_other] at hbarred hquiet hcannot
  by_cases hnew : ∃ packet, (network.step event).Told event.side packet ∧ packet.kind = .i2
  · obtain ⟨packet, htold, hkind⟩ := hnew
    have hrecorded := (hlasts.step hadmits).recorded
    rcases hcannot with hnone | hsmaller
    -- an I2 answers an R1 of the host that leads
    · obtain ⟨_, -, -, -, hletter⟩ := hrecorded.letter htold
      obtain ⟨-, -, -, puzzle, -, ⟨r1, hr1, hr1Kind, -⟩, -⟩ := hletter.solves hkind
      rw [told_step_other] at hr1
      exact absurd hr1Kind (hnone r1 hr1)
    · refine .inr ⟨waits_of_told hlasts hadmits hquiet htold hkind, ?_, ?_, ?_⟩
      · rw [(network.continues_step event _).hit, (network.continues_step event _).hit]
        exact hsmaller
      · rw [told_step_other]
        exact hleads.silent
      · exact hleads.spent.step_other.refused rfl hrecorded
  · refine .inl (hrest (.inl ⟨⟨pending, hpending, ?_⟩, ?_, ?_⟩))
    · rw [Side.other_other]
      exact hbarred.step
    · rw [Side.other_other]
      exact fun packet htold hkind => hnew ⟨packet, htold, hkind⟩
    · rw [told_step_other, Side.other_other, (network.continues_step event _).hit,
        (network.continues_step event _).hit]
      exact hcannot

end Step

/-- Whether two hosts have missed each other for good. -/
def Misses (network : Network) (side : Side) : Prop := network.Leads side ∨
    ∃ waiting, network.Stuck waiting

theorem Misses.step (hlasts : network.Lasts) (hadmits : network.Admits event)
    (hmisses : network.Misses side) : (network.step event).Misses side := by
  rcases hmisses with hleads | ⟨waiting, hstuck⟩
  · rcases side.eq_or_eq_other event.side with rfl | rfl
    · exact .inl (hleads.step_self hlasts hadmits)
    · exact (hleads.step_other hlasts hadmits).imp_right fun hstuck => ⟨event.side, hstuck⟩
  · exact .inr ⟨waiting, hstuck.step hlasts hadmits⟩

/-- Whatever the network does, two hosts that have missed each other never both come to an end. -/
theorem Misses.run {events : List Event} (hlasts : network.Lasts) (hlawful : network.Lawful events)
    (hmisses : network.Misses side) : ¬∀ host, (network.run events).state? host =
      some .established := by
  induction events generalizing network with
  | nil =>
    intro hdone
    rcases hmisses with hleads | ⟨waiting, hstuck⟩
    · obtain ⟨conn, hfind, hstate⟩ := Option.map_eq_some_iff.mp (hdone side.other)
      exact (hleads.trails conn (.inl hfind)).1 hstate
    · cases hstuck.waits.symm.trans (hdone waiting)
  | cons event rest ih =>
    obtain ⟨hadmits, hrest⟩ := hlawful
    exact ih (hlasts.step hadmits) hrest (hmisses.step hlasts hadmits)

end Network

end DietExchange
