import DietExchange.Proofs.Engine.Clock
import DietExchange.Proofs.Engine.Mail

namespace DietExchange

namespace Connection

/-- Whether the answer to the last packet is waited for, with no puzzle being solved. -/
def AwaitsAnswer (conn : Connection) : Prop :=
  conn.state = .i2Sent ∨ (conn.state = .i1Sent ∧ conn.isSolving = false)

variable {ctx : Context} {conn moved : Connection} {rng : RandomStream}

theorem isSolving_eq_false_iff : conn.isSolving = false ↔ conn.pending = none := by
  simp [isSolving]

/-- These are the connections that the sweep reaches. -/
theorem awaitsAnswer_iff (hform : conn.WellFormed) :
    conn.AwaitsAnswer ↔ conn.state.needsRetransmission = true ∧ conn.isSolving = false := by
  unfold AwaitsAnswer
  cases hstate : conn.state with
  | i2Sent =>
    have hidle : conn.isSolving = false :=
      isSolving_eq_false_iff.mpr (hform.pending_eq_none (by simp [hstate]))
    simp [State.needsRetransmission, hidle]
  | i1Sent => simp [State.needsRetransmission]
  | unassociated | r2Sent | established | closing | closed => simp [State.needsRetransmission]

/-- Where there is no hold and nothing is being solved, the passing of time changes nothing. -/
theorem timeout_of_awaitsAnswer (hform : conn.WellFormed) (hawaits : conn.AwaitsAnswer) :
    (Turn.timeout ⟨conn, rng, []⟩ ctx).1.conn = conn := by
  obtain ⟨hwaits, hidle⟩ := (awaitsAnswer_iff hform).mp hawaits
  have hstate : conn.state ≠ .r2Sent := by
    intro heq
    rw [heq] at hwaits
    cases hwaits
  have hheld : (Turn.endHold ⟨conn, rng, []⟩ ctx).conn = conn :=
    (Turn.move_of_endHold ⟨conn, rng, []⟩ ctx).eq_of_hold hform hstate
  have hsolved := Turn.move_of_solveStep (Turn.endHold ⟨conn, rng, []⟩ ctx) ctx
  rw [hheld] at hsolved
  exact hsolved.eq_of_search (isSolving_eq_false_iff.mp hidle)

/-- A sweep that reaches a connection has it send its last packet, and nothing else comes of the
    timeout. -/
theorem outgoing_of_awaitsAnswer (hform : conn.WellFormed) (houtbox : conn.outbox = [])
    (hawaits : conn.AwaitsAnswer) {sent : SentPacket} (hsent : conn.lastSent = some sent) :
    (Turn.timeout ⟨Engine.sweptIf true conn, rng, []⟩ ctx).1.conn.outgoing =
      [⟨conn.address, sent.datagram⟩] := by
  have hreached := (awaitsAnswer_iff hform).mp hawaits
  have hresent : Engine.sweptIf true conn = conn.emit (.transmit sent.datagram) := by
    simp [Engine.sweptIf, Engine.resent, retransmit?, hreached.1, hreached.2, hsent]
  rw [hresent, timeout_of_awaitsAnswer (hform.emit _) hawaits, outgoing_emit_transmit,
    outgoing_of_outbox houtbox, List.nil_append]

/-- For any other connection nothing is sent again. All that there can be is the I2 of a puzzle that
    was just solved. -/
theorem Elapses.outgoing_of_not_awaitsAnswer (helapses : conn.Elapses ctx moved)
    (hform : conn.WellFormed) (houtbox : conn.outbox = []) (hother : ¬conn.AwaitsAnswer) :
    moved.outgoing = [] ∨ (conn.isSolving = true ∧ ∃ datagram, conn.Sends ctx .i2 datagram ∧
      moved.outgoing = [⟨conn.address, datagram⟩]) := by
  have hnone := outgoing_of_outbox houtbox
  rcases helapses.cases_move hform with ⟨-, hmove⟩ | ⟨-, hmove | hmove⟩
  · left
    cases hmove with
    | wait => exact hnone
    | establish => exact (outgoing_emit_connected _).trans ((outgoing_moveTo _ _).trans hnone)
    | giveUp => exact (outgoing_moveTo _ _).trans hnone
  · cases hmove with
    | resend hwaits hidle =>
      exact absurd ((awaitsAnswer_iff hform).mpr ⟨hwaits, isSolving_eq_false_iff.mpr hidle⟩) hother
  · cases hmove with
    | rest | search | lose => exact .inl hnone
    | solve hpending _ hseal hencode =>
      refine .inr ⟨by simp [isSolving, hpending], _, .i2 hseal hencode, ?_⟩
      refine (outgoing_moveTo _ _).trans ?_
      exact (outgoing_transmit { conn with pending := none } .i2 _).trans (congrArg (· ++ _) hnone)

/-- While a puzzle is being solved, the last packet is an I1, which no I2 is equal to. -/
theorem WellFormed.ne_lastSent_of_isSolving (hform : conn.WellFormed) (hmarks : conn.Marks)
    (hsolving : conn.isSolving = true) {datagram : List UInt8}
    (hsends : conn.Sends ctx .i2 datagram) {sent : SentPacket} (hsent : conn.lastSent = some sent) :
      sent.datagram ≠ datagram := by
  rintro rfl
  obtain ⟨pending, hpending⟩ := Option.isSome_iff_exists.mp hsolving
  obtain ⟨last, hlast, hkind⟩ := hform.lastI1 (hform.pending pending hpending).1
  obtain rfl := Option.some.inj (hlast.symm.trans hsent)
  have hmarked := hmarks last hsent
  rw [hkind] at hmarked
  cases hmarked.kind_eq hsends.isMarked

end Connection

namespace Engine

/-- Whether a timeout that comes at this time runs the sweep. -/
def SweepsAt (engine : Engine) (now : Nat) : Prop := (engine.retransmissionTimer.fire now).1 = true

/-- Whether an action runs the sweep or arms its timer, and when: the timer is armed at the latest
    time that was told, which is that of the action unless times go back. -/
inductive BeginsPeriod (engine : Engine) : Action → Nat → Prop where
  | sweep {peers : List Hit} {now : Nat} (hsweeps : engine.SweepsAt now) :
    BeginsPeriod engine (.handleTimeout peers now) now
  | arm {action : Action} (hdisarmed : engine.isRetransmissionArmed = false)
    (harmed : (engine.act action).isRetransmissionArmed = true) :
    BeginsPeriod engine action (action.latest engine.lastNow)

/-- Whether the sweep is not due before an interval from this time is over, now and whenever its
    timer is armed again. -/
structure Spaced (engine : Engine) (since : Nat) : Prop where
  lastNow : since ≤ engine.lastNow
  deadline : ∀ deadline, engine.retransmissionTimer.deadline = some deadline →
    since + engine.config.retransmissionInterval ≤ deadline

section Step

variable {engine : Engine} (hreachable : Reachable engine) (hopen : engine.closed = false)
include hreachable hopen

/-- A sweep arms its timer anew. -/
theorem retransmissionTimer_of_sweepsAt {peers : List Hit} (horder : peers.Perm engine.table.peers)
    {now : Nat} (hsweeps : engine.SweepsAt now) :
    (engine.act (.handleTimeout peers now)).retransmissionTimer =
      engine.retransmissionTimer.arm now := by
  refine (retransmissionTimer_handleTimeoutIn hreachable hopen horder).trans ?_
  rw [Timer.fire_snd]
  exact if_pos hsweeps

variable {action : Action} (hallows : engine.Allows action)
include hallows

/-- Only a sweep arms its timer at another time than the latest. -/
theorem retransmissionTimer_act :
    engine.retransmissionTimer.SetAt (action.latest engine.lastNow)
    (engine.act action).retransmissionTimer ∨
    ∃ peers now, action = .handleTimeout peers now ∧ engine.SweepsAt now ∧
      (engine.act action).retransmissionTimer = engine.retransmissionTimer.arm now := by
  cases action with
  | connect peer address now =>
      exact .inl (connect_cases hopen peer address now).resets.retransmission
  | handlePacket datagram source now =>
    left
    rcases handlePacket_cases hopen datagram source now with hadvance | ⟨packet, -, -, hturned⟩
    · rw [show engine.act (.handlePacket datagram source now) = engine.advance now from hadvance]
      exact .refl _ _
    · exact hturned.resets.retransmission
  | handleTimeout peers now =>
    by_cases hsweeps : engine.SweepsAt now
    · exact .inr ⟨peers, now, rfl, hsweeps,
        retransmissionTimer_of_sweepsAt hreachable hopen hallows hsweeps⟩
    · have htimer : (engine.act (.handleTimeout peers now)).retransmissionTimer =
          (engine.retransmissionTimer.fire now).2 :=
        retransmissionTimer_handleTimeoutIn hreachable hopen hallows
      rw [htimer, Timer.fire_snd_of_not (Bool.eq_false_iff.mpr hsweeps)]
      exact .inl (.refl _ _)
  | pollOutput room =>
    left
    obtain ⟨datagrams, established, -, -, heq⟩ := engine.pollOutput_eq room
    have htimer : (engine.act (.pollOutput room)).retransmissionTimer =
        engine.retransmissionTimer := by
      rw [show engine.act (.pollOutput room) = _ from heq]
    rw [htimer]
    exact .refl _ _

/-- The interval is kept whatever is done: the timer is armed for one interval from then, and the
    sweep for one interval from a time at which it was due. -/
theorem Spaced.act {since : Nat} (hspaced : engine.Spaced since) :
    (engine.act action).Spaced since := by
  have hlater : since ≤ (engine.act action).lastNow :=
    Nat.le_trans hspaced.lastNow (engine.continues_act action).lastNow
  refine ⟨hlater, fun deadline hdeadline => ?_⟩
  rw [config_act]
  have hperiod := hreachable.hasTimers.retransmissionPeriod
  rw [lastNow_act hopen] at hlater
  rcases retransmissionTimer_act hreachable hopen hallows with
    hset | ⟨peers, now, rfl, hsweeps, harmed⟩
  · rcases hset.deadline with hsame | hnone | hset
    · exact hspaced.deadline deadline (hsame.symm.trans hdeadline)
    · cases hnone.symm.trans hdeadline
    · obtain rfl := Option.some.inj (hset.symm.trans hdeadline)
      rw [hperiod]
      exact Nat.add_le_add_right hlater _
  · -- A sweep counts from the time it is told, which may lie before the latest; but it was due
    -- then.
    obtain ⟨due, hdue, hpast⟩ := Timer.fire_fst.mp hsweeps
    have hbefore := hspaced.deadline due hdue
    rw [harmed] at hdeadline
    obtain rfl := Option.some.inj hdeadline
    rw [hperiod]
    omega

/-- A sweep, or the arming of its timer, begins an interval. -/
theorem BeginsPeriod.spaced {since : Nat} (hbegins : engine.BeginsPeriod action since) :
    (engine.act action).Spaced since := by
  have hperiod := hreachable.hasTimers.retransmissionPeriod
  cases hbegins with
  | @sweep peers _ hsweeps =>
    constructor
    · rw [lastNow_act hopen]
      exact Nat.le_max_right _ _
    · intro deadline hdeadline
      rw [retransmissionTimer_of_sweepsAt hreachable hopen hallows hsweeps] at hdeadline
      obtain rfl := Option.some.inj hdeadline
      exact Nat.le_of_eq (by rw [config_act, hperiod])
  | arm hdisarmed harmed =>
    refine ⟨Nat.le_of_eq (lastNow_act hopen action).symm, fun deadline hdeadline => ?_⟩
    have hnone : engine.retransmissionTimer.deadline = none := by
      simpa [isRetransmissionArmed, Timer.isArmed] using hdisarmed
    rcases retransmissionTimer_act hreachable hopen hallows with hset | ⟨peers, now, -, hsweeps, -⟩
    · rcases hset.deadline with hsame | hstill | hset
      · cases hnone.symm.trans (hsame.symm.trans hdeadline)
      · cases hstill.symm.trans hdeadline
      · obtain rfl := Option.some.inj (hset.symm.trans hdeadline)
        exact Nat.le_of_eq (by rw [config_act, hperiod])
    · obtain ⟨due, hdue, -⟩ := Timer.fire_fst.mp hsweeps
      cases hnone.symm.trans hdue

end Step

section Run

variable {engine : Engine}

theorem Spaced.actAll {since : Nat} {actions : List Action} (hreachable : Reachable engine)
    (hopen : engine.closed = false) (hallows : engine.AllowsAll actions)
    (hspaced : engine.Spaced since) : (engine.actAll actions).Spaced since := by
  induction actions generalizing engine with
  | nil => exact hspaced
  | cons action rest ih =>
    exact ih (hreachable.act hallows.1) (closed_act hopen hallows.1) hallows.2
      (hspaced.act hreachable hopen hallows.1)

theorem Spaced.le_of_sweepsAt {since now : Nat} (hspaced : engine.Spaced since)
    (hsweeps : engine.SweepsAt now) : since + engine.config.retransmissionInterval ≤ now := by
  obtain ⟨due, hdue, hpast⟩ := Timer.fire_fst.mp hsweeps
  exact Nat.le_trans (hspaced.deadline due hdue) hpast

/-- So a sweep comes an interval after whatever began one, with any actions in between. -/
theorem BeginsPeriod.le_of_sweepsAt {action : Action} {since now : Nat} {actions : List Action}
    (hbegins : engine.BeginsPeriod action since) (hreachable : Reachable engine)
    (hopen : engine.closed = false) (hallows : engine.AllowsAll (action :: actions))
    (hsweeps : (engine.actAll (action :: actions)).SweepsAt now) :
    since + engine.config.retransmissionInterval ≤ now := by
  have hstarts := hbegins.spaced hreachable hopen hallows.1
  have hspaced := hstarts.actAll (hreachable.act hallows.1) (closed_act hopen hallows.1) hallows.2
  have hinterval := hspaced.le_of_sweepsAt hsweeps
  rwa [(continues_actAll _ _).config, config_act] at hinterval

/-- A sweep sends for each connection that waits for an answer the datagram that was mailed last to
    its peer, byte for byte, once, and nothing else. For no other connection is that datagram sent
    again: there is nothing, or the I2 of a puzzle that was just solved; and nobody but the peers of
    connections is mailed anything. The sweep comes no sooner than the interval after every sweep
    before it, and after every time at which its timer was armed, whatever came in between. -/
theorem sweeps_are_exact_and_spaced {config : Config} {identity : HostIdentity}
    {source rest : EntropySource} {systemSeed : UInt64} {start : Nat} {log : List Log.Event}
    (hcreate : create config identity source systemSeed start = (.ok (engine, log), rest))
    {actions : List Action} {peers : List Hit} {now : Nat}
    (hallows : engine.AllowsAll (actions ++ [.handleTimeout peers now]))
    (hsweeps : (engine.actAll actions).SweepsAt now) :
    let swept := engine.actAll actions
    let mail := swept.mailedBy (.handleTimeout peers now)
    (∀ conn ∈ swept.table.connections, conn.AwaitsAnswer →
      ∃ last, (mailTo conn.peer (engine.mailedIn actions)).getLast? = some last ∧
        mailTo conn.peer mail = [last]) ∧
    (∀ conn ∈ swept.table.connections, ¬conn.AwaitsAnswer →
      (∀ last, (mailTo conn.peer (engine.mailedIn actions)).getLast? = some last →
        last ∉ mailTo conn.peer mail) ∧
      (mailTo conn.peer mail = [] ∨ (conn.isSolving = true ∧ ∃ ctx datagram,
        conn.Sends ctx .i2 datagram ∧ mailTo conn.peer mail = [⟨conn.address, datagram⟩]))) ∧
    (∀ out ∈ mail, ∃ conn ∈ swept.table.connections, out.Names conn.peer) ∧
    ∀ front action back since, actions = front ++ action :: back →
      (engine.actAll front).BeginsPeriod action since →
      since + config.retransmissionInterval ≤ now := by
  intro swept mail
  obtain ⟨hconfig, -, hempty, -, -, hopen, -⟩ := create_spec hcreate
  have hnew : Reachable engine := .create hcreate
  obtain ⟨hbefore, horder, -⟩ := allowsAll_append.mp hallows
  have hreachable := hnew.actAll hbefore
  obtain ⟨visited, hvisited, -, hmail, hnobody⟩ :=
    mailed_handleTimeout hreachable (closed_actAll hopen hbefore) horder now
  have hlast : ∀ conn ∈ swept.table.connections, ∃ sent, conn.lastSent = some sent ∧
      (mailTo conn.peer (engine.mailedIn actions)).getLast? = some ⟨conn.address, sent.datagram⟩ :=
    fun conn hmem =>
      last_mailed hnew hopen hempty hbefore (ConnectionTable.find?_eq_some_iff.mpr ⟨hmem, rfl⟩)
  refine ⟨fun conn hmem hawaits => ?_, fun conn hmem hother => ?_, hnobody, ?_⟩
  · obtain ⟨sent, hsent, hbefore⟩ := hlast conn hmem
    obtain ⟨rng, hrng⟩ := hvisited (sweptIf true conn)
    refine ⟨_, hbefore, (hmail conn hmem).trans ?_⟩
    rw [hsweeps, hrng]
    exact Connection.outgoing_of_awaitsAnswer (hreachable.wellFormed hmem)
      (hreachable.outbox_eq_nil hmem) hawaits hsent
  · have helapses := elapses_visited hvisited true conn
    have hform := hreachable.wellFormed hmem
    have hasked := hmail conn hmem
    rw [hsweeps] at hasked
    rw [hasked]
    rcases helapses.outgoing_of_not_awaitsAnswer hform (hreachable.outbox_eq_nil hmem) hother with
      hnone | ⟨hsolving, datagram, hsends, hone⟩
    · rw [hnone]
      exact ⟨fun _ _ => List.not_mem_nil, .inl rfl⟩
    · rw [hone]
      refine ⟨fun last hmailed hagain => ?_, .inr ⟨hsolving, _, datagram, hsends, rfl⟩⟩
      obtain ⟨sent, hsent, hbefore⟩ := hlast conn hmem
      obtain rfl := Option.some.inj (hbefore.symm.trans hmailed)
      have hsame := congrArg Outgoing.datagram (List.mem_singleton.mp hagain)
      exact hform.ne_lastSent_of_isSolving (hreachable.marks hmem) hsolving hsends hsent hsame
  · rintro front action back since rfl hbegins
    obtain ⟨hfront, hsince⟩ := allowsAll_append.mp hbefore
    rw [actAll_append] at hsweeps
    have hinterval :=
      hbegins.le_of_sweepsAt (hnew.actAll hfront) (closed_actAll hopen hfront) hsince hsweeps
    rwa [(engine.continues_actAll _).config, hconfig] at hinterval

/-- A host that sent an I1 sends it again when the timer says so, one interval after it was
    armed. -/
theorem exists_sweep : ∃ (engine : Engine) (log : List Log.Event) (rest : EntropySource)
    (actions : List Action) (peers : List Hit) (now : Nat) (conn : Connection) (last : Outgoing),
    create SampleHost.config (SampleHost.identity 1) (EntropySource.scripted [] 1) 0 0 =
      (.ok (engine, log), rest) ∧
    engine.AllowsAll (actions ++ [.handleTimeout peers now]) ∧
    (engine.actAll actions).SweepsAt now ∧
    conn ∈ (engine.actAll actions).table.connections ∧ conn.AwaitsAnswer ∧
    (mailTo conn.peer (engine.mailedIn actions)).getLast? = some last ∧
    mailTo conn.peer ((engine.actAll actions).mailedBy (.handleTimeout peers now)) = [last] ∧
    SampleHost.config.retransmissionInterval ≤ now := by
  obtain ⟨engine, hnew⟩ := SampleHost.exists_isNew 1
  obtain ⟨log, rest, hcreate⟩ := hnew.created
  let peer := (SampleHost.identity 2).hit
  let begin : Action := .connect peer (.ofHost 2) 0
  let waiting := engine.actAll [begin]
  have hpeer : peer ≠ engine.hit := hnew.hit_eq ▸ SampleHost.distinct.symm
  have hroom : engine.connectionCount < engine.config.maxConnections :=
    Nat.lt_of_le_of_lt (Nat.le_add_right _ 3) hnew.room
  obtain ⟨-, -, -, conn, -, -, -, -, -, hfind, hwaits, -⟩ :=
    connect_sends_i1 hnew.isOpen hpeer (hnew.find?_eq_none peer) hroom (.ofHost 2) 0
  obtain ⟨hmem, -⟩ := ConnectionTable.find?_eq_some_iff.mp hfind
  have hawaits : conn.AwaitsAnswer :=
    .inr ⟨hwaits.state, Connection.isSolving_eq_false_iff.mpr hwaits.pending⟩
  have haccounts := (hnew.reachable.after (.connect peer (.ofHost 2) 0)).accounts
  have harmed : waiting.isRetransmissionArmed = true :=
    haccounts.counts.2.mpr (List.countP_pos_iff.mpr ⟨conn, hmem, by rw [hwaits.state]; rfl⟩)
  obtain ⟨now, hnow⟩ := Option.isSome_iff_exists.mp harmed
  have hsweeps : waiting.SweepsAt now := Timer.fire_fst.mpr ⟨now, hnow, Nat.le_refl _⟩
  have hallows : engine.AllowsAll ([begin] ++ [.handleTimeout waiting.table.peers now]) :=
    ⟨trivial, List.Perm.refl _, trivial⟩
  have hdisarmed : engine.isRetransmissionArmed = false := by
    rw [isRetransmissionArmed, (timers_create hcreate).2.2]
    rfl
  obtain ⟨hexact, -, -, hspaced⟩ := sweeps_are_exact_and_spaced hcreate hallows hsweeps
  obtain ⟨last, hlast, hmail⟩ := hexact conn hmem hawaits
  have hinterval := hspaced [] begin [] _ rfl (.arm hdisarmed harmed)
  exact ⟨engine, log, rest, [begin], _, now, conn, last, hcreate, hallows, hsweeps, hmem,
    hawaits, hlast, hmail, Nat.le_trans (Nat.le_add_left _ _) hinterval⟩

end Run

end Engine

end DietExchange
