import DietExchange.Proofs.Connection.Sent
import DietExchange.Proofs.Engine.Fresh
import DietExchange.Proofs.Engine.Timers

namespace DietExchange

/-- What is left of a hold after a timeout ends later. -/
theorem Connection.Elapses.lt_holdUntil {ctx : Context} {conn after : Connection}
    (helapses : conn.Elapses ctx after) {deadline : Nat} (hhold : after.holdUntil = some deadline) :
    ctx.now < deadline := by
  obtain ⟨swept, held, -, hheld, hsearch⟩ := helapses
  have hlater : ∀ deadline, held.holdUntil = some deadline → ctx.now < deadline := by
    cases hheld with
    | wait hearly => exact hearly
    | establish | giveUp =>
      intro deadline hdeadline
      simp [emit, holdUntil_moveTo] at hdeadline
  cases hsearch with
  | rest | search | lose => exact hlater deadline hhold
  | solve =>
    simp only [conclude, holdUntil_moveTo] at hhold
    split at hhold
    · exact hlater deadline hhold
    · cases hhold

/-- Nothing that a timeout brings about begins a search. -/
theorem Connection.Elapses.pending_eq_none {ctx : Context} {conn after : Connection}
    (helapses : conn.Elapses ctx after) (hidle : conn.pending = none) : after.pending = none :=
  helapses.preserves (P := fun conn => conn.pending = none) (by
    intro stimulus before later hstimulus hmove hnone
    cases hmove with
    | wait | rest | resend | lose => first | exact hnone | rfl
    | establish | giveUp => simp [emit, pending_moveTo, hnone]
    | search hpending | solve hpending => cases hnone.symm.trans hpending
    | _ => simp at hstimulus) hidle

namespace Engine

/-- Whether no puzzle is being solved. -/
def IsIdle (engine : Engine) : Prop := ∀ conn ∈ engine.table.connections, conn.isSolving = false

variable {engine : Engine}

section Early

/-- Whether everything that is planned is planned for a time after `now`. -/
structure IsEarly (engine : Engine) (now : Nat) : Prop where
  rotation : ∀ deadline, engine.rotationTimer.deadline = some deadline → now < deadline
  retransmission : ∀ deadline, engine.retransmissionTimer.deadline = some deadline → now < deadline
  holds : ∀ conn ∈ engine.table.connections, ∀ deadline, conn.holdUntil = some deadline →
    now < deadline

variable {now : Nat}

theorem isEarly_iff : engine.IsEarly now ↔ ∀ deadline ∈ engine.deadlines, now < deadline := by
  simp only [deadlines, List.mem_append, Option.mem_toList, List.mem_filterMap]
  constructor
  · rintro ⟨hrotation, hretransmission, hholds⟩ deadline ((hmem | hmem) | ⟨conn, hconn, hmem⟩)
    · exact hrotation deadline hmem
    · exact hretransmission deadline hmem
    · exact hholds conn hconn deadline hmem
  · intro hall
    exact ⟨fun deadline hmem => hall deadline (.inl (.inl hmem)),
      fun deadline hmem => hall deadline (.inl (.inr hmem)),
      fun conn hconn deadline hmem => hall deadline (.inr ⟨conn, hconn, hmem⟩)⟩

/-- A connection that has nothing planned by now and nothing to ask for is not touched by a
    visit. -/
theorem visit_of_isEarly (houtbox : ∀ conn ∈ engine.table.connections, conn.outbox = [])
    (hidle : engine.IsIdle) (hearly : engine.IsEarly now) (peer : Hit) :
    engine.visit now peer = (engine, []) := by
  unfold visit
  cases hfind : engine.table.find? peer with
  | none => rfl
  | some conn =>
    obtain ⟨hmem, hpeer⟩ := ConnectionTable.find?_eq_some_iff.mp hfind
    have hpending : conn.pending = none := Option.not_isSome_iff_eq_none.mp (by
      rw [show conn.pending.isSome = conn.isSolving from rfl, hidle conn hmem]
      exact Bool.false_ne_true)
    have hhold : Turn.endHold ⟨conn, engine.rng, []⟩ (engine.context now) =
        ⟨conn, engine.rng, []⟩ := by
      unfold Turn.endHold
      dsimp only
      split
      · rename_i deadline hdeadline
        exact if_pos (hearly.holds conn hmem deadline hdeadline)
      · rfl
    have htimeout : Turn.timeout ⟨conn, engine.rng, []⟩ (engine.context now) =
        (⟨conn, engine.rng, []⟩, none) := by
      rw [Turn.timeout, hhold, Turn.solveStep]
      dsimp only
      rw [hpending]
    have hput : engine.table.put conn = engine.table := ConnectionTable.put_of_find? (hpeer ▸ hfind)
    have hnothing : conn.outbox = [] := houtbox conn hmem
    have hsettled : { conn with outbox := [] } = conn := by rw [← hnothing]
    dsimp only
    rw [htimeout]
    simp [settle, hnothing, obeyAll, hsettled, hput]

theorem visitAll_of_isEarly (houtbox : ∀ conn ∈ engine.table.connections, conn.outbox = [])
    (hidle : engine.IsIdle) (hearly : engine.IsEarly now) (peers : List Hit) :
    engine.visitAll now peers = (engine, []) := by
  induction peers with
  | nil => rfl
  | cons peer rest ih =>
    rw [visitAll, visit_of_isEarly houtbox hidle hearly]
    dsimp only
    rw [ih]
    rfl

/-- Where everything is planned for later, a timeout only tells the time. -/
theorem handleTimeoutIn_of_isEarly (hreachable : Reachable engine)
    (hopen : engine.closed = false) (hidle : engine.IsIdle) (hearly : engine.IsEarly now)
    (peers : List Hit) : engine.handleTimeoutIn peers now = ⟨.ok (), engine.advance now, []⟩ := by
  have hrotate : (engine.advance now).rotateSecret now = (engine.advance now, []) :=
    (engine.advance now).rotateSecret_of_lt hearly.rotation
  have hsweep : (engine.advance now).sweep peers now = (engine.advance now, []) :=
    (engine.advance now).sweep_of_lt hearly.retransmission peers
  -- the time of the engine plays no part in what is planned
  have hearlyThen : (engine.advance now).IsEarly now :=
    ⟨hearly.rotation, hearly.retransmission, hearly.holds⟩
  have houtbox : ∀ conn ∈ (engine.advance now).table.connections, conn.outbox = [] :=
    fun _ hmem => hreachable.outbox_eq_nil hmem
  have hvisits : (engine.advance now).visitAll now peers = (engine.advance now, []) :=
    visitAll_of_isEarly houtbox hidle hearlyThen peers
  unfold handleTimeoutIn
  rw [hopen, if_neg Bool.false_ne_true]
  dsimp only
  rw [hrotate]
  dsimp only
  rw [hsweep]
  dsimp only
  rw [hvisits]
  rfl

end Early

section Polled

/-- With nothing else to hand out and no puzzle being solved, an engine names the first of the times
    for which something is planned. -/
theorem exists_timeout (htimers : engine.HasTimers) (hopen : engine.closed = false)
    (hestablished : engine.established = []) (hdatagrams : engine.datagrams = [])
    (hidle : engine.IsIdle) :
    ∃ instant, engine.deadlines.min? = some instant ∧
      ∀ room, engine.pollOutput room = (.timeout instant, engine) := by
  obtain ⟨rotation, hrotation⟩ := Option.isSome_iff_exists.mp (htimers.armed hopen)
  have hmem : rotation ∈ engine.deadlines := by
    simp [deadlines, hrotation]
  obtain ⟨instant, hmin⟩ := Option.isSome_iff_exists.mp (List.isSome_min?_of_mem hmem)
  have hnone : ¬engine.table.connections.any (·.isSolving) = true := by
    rw [List.any_eq_true]
    rintro ⟨conn, hconn, hsolving⟩
    exact Bool.false_ne_true ((hidle conn hconn).symm.trans hsolving)
  have hpoll : engine.pollTimeout = instant := by
    rw [pollTimeout, if_neg hnone, hmin, Option.getD_some]
  refine ⟨instant, hmin, fun room => ?_⟩
  unfold pollOutput
  rw [hestablished, hdatagrams]
  dsimp only
  rw [hpoll]

/-- To poll often enough is to drain. -/
theorem run_pollOutput_eq_drain (engine : Engine) :
    engine.run (List.replicate (engine.established.length + engine.datagrams.length)
      (.pollOutput maxPacketLength)) = engine.drain.2 := by
  obtain ⟨polls, hpolls⟩ : ∃ polls, engine.established.length + engine.datagrams.length = polls :=
    ⟨_, rfl⟩
  rw [hpolls]
  induction polls generalizing engine with
  | zero =>
    have hestablished : engine.established = [] := List.eq_nil_of_length_eq_zero (by omega)
    have hdatagrams : engine.datagrams = [] := List.eq_nil_of_length_eq_zero (by omega)
    change engine = { engine with established := [], datagrams := [] }
    rw [← hestablished, ← hdatagrams]
  | succ polls ih =>
    have hpoll : (engine.pollOutput maxPacketLength).2.drain.2 = engine.drain.2 ∧
        (engine.pollOutput maxPacketLength).2.established.length +
          (engine.pollOutput maxPacketLength).2.datagrams.length = polls := by
      unfold pollOutput
      split
      · rename_i hestablished
        rw [hestablished, List.length_cons] at hpolls
        exact ⟨rfl, by dsimp only; omega⟩
      · rename_i hestablished
        rw [hestablished, List.length_nil] at hpolls
        split
        · rename_i hdatagrams
          rw [hdatagrams, List.length_cons] at hpolls
          exact ⟨rfl, by dsimp only; rw [hestablished, List.length_nil]; omega⟩
        · rename_i hdatagrams
          rw [hdatagrams, List.length_nil] at hpolls
          omega
    rw [List.replicate_succ, run_cons, ← hpoll.1]
    exact ih _ hpoll.2

variable {peers : List Hit} {now : Nat}

/-- No search begins with a timeout. -/
theorem IsIdle.handleTimeoutIn (hidle : engine.IsIdle) (hopen : engine.closed = false)
    (horder : peers.Perm engine.table.peers) (now : Nat) :
    (engine.handleTimeoutIn peers now).engine.IsIdle := by
  intro conn hmem
  obtain ⟨elapsed, helapsed⟩ := elapsed_handleTimeoutIn hopen horder now
  obtain ⟨before, hbefore, rfl⟩ := helapsed.exists_settled hmem
  have hnone : before.pending = none := Option.not_isSome_iff_eq_none.mp
    (Bool.not_eq_true _ ▸ hidle before hbefore)
  rw [Connection.isSolving, show (elapsed before).settled.pending =
    (elapsed before).pending from rfl, (helapsed.elapses before).pending_eq_none hnone]
  rfl

/-- What is planned after a timeout is planned for later. -/
theorem isEarly_handleTimeoutIn (hreachable : Reachable engine) (hopen : engine.closed = false)
    (horder : peers.Perm engine.table.peers) (hnow : engine.lastNow ≤ now)
    (hrotating : 0 < engine.config.rotationInterval)
    (hresending : 0 < engine.config.retransmissionInterval) :
    (engine.handleTimeoutIn peers now).engine.IsEarly now := by
  have htimers := hreachable.hasTimers
  obtain ⟨-, hrotation, hset⟩ := timers_handleTimeoutIn hopen peers now
  rw [Nat.max_eq_right hnow] at hset
  constructor
  case rotation =>
    intro deadline hdeadline
    rw [hrotation] at hdeadline
    exact Timer.lt_deadline_fire (htimers.rotationPeriod ▸ hrotating) hdeadline
  case retransmission =>
    intro deadline hdeadline
    have hperiod : 0 < engine.retransmissionTimer.period :=
      htimers.retransmissionPeriod ▸ hresending
    refine hset.lt_deadline (by rw [Timer.period_fire]; exact hperiod) ?_ hdeadline
    exact fun _ => Timer.lt_deadline_fire hperiod
  case holds =>
    intro conn hmem deadline hdeadline
    obtain ⟨elapsed, helapsed⟩ := elapsed_handleTimeoutIn hopen horder now
    obtain ⟨before, -, rfl⟩ := helapsed.exists_settled hmem
    exact (helapsed.elapses before).lt_holdUntil hdeadline

/-- The time that is polled is exact. Where nothing else is handed out and no puzzle is being
    solved, a timeout before that time only tells the time, and the time polled stays what it was;
    and once a timeout was handled and its output is drained, a later time is polled, unless a
    puzzle is being solved. -/
theorem polled_timeout_is_exact (hreachable : Reachable engine) (hopen : engine.closed = false)
    (horder : peers.Perm engine.table.peers) :
    (engine.established = [] → engine.datagrams = [] → engine.IsIdle → ∃ instant,
      (∀ room, engine.pollOutput room = (.timeout instant, engine)) ∧
      ∀ now, engine.lastNow ≤ now → now < instant →
        engine.handleTimeoutIn peers now = ⟨.ok (), { engine with lastNow := now }, []⟩ ∧
        ∀ room, { engine with lastNow := now }.pollOutput room =
          (.timeout instant, { engine with lastNow := now })) ∧
    ∀ now, engine.lastNow ≤ now → 0 < engine.config.rotationInterval →
      0 < engine.config.retransmissionInterval →
      (engine.IsIdle ∨ (engine.handleTimeoutIn peers now).engine.IsIdle) →
      ∃ instant, now < instant ∧ ∀ room,
        ((engine.handleTimeoutIn peers now).engine.drain.2.pollOutput room).1 =
          .timeout instant := by
  have htimers := hreachable.hasTimers
  refine ⟨fun hestablished hdatagrams hidle => ?_, fun now hnow hrotating hresending hidle => ?_⟩
  · obtain ⟨instant, hmin, hpoll⟩ := exists_timeout htimers hopen hestablished hdatagrams hidle
    refine ⟨instant, hpoll, fun now hnow hlt => ?_⟩
    have hadvance : engine.advance now = { engine with lastNow := now } := by
      rw [advance, Nat.max_eq_right hnow]
    have hearly : engine.IsEarly now := isEarly_iff.mpr fun deadline hmem =>
      Nat.lt_of_lt_of_le hlt ((List.min?_eq_some_iff.mp hmin).2 deadline hmem)
    rw [← hadvance]
    refine ⟨handleTimeoutIn_of_isEarly hreachable hopen hidle hearly peers, fun room => ?_⟩
    obtain ⟨again, hminAgain, hpollAgain⟩ :=
      exists_timeout (htimers.advance now) hopen hestablished hdatagrams hidle
    obtain rfl := Option.some.inj (hmin.symm.trans hminAgain)
    exact hpollAgain room
  · have hafter := htimers.handleTimeoutIn peers now
    have hidleAfter : (engine.handleTimeoutIn peers now).engine.IsIdle :=
      hidle.elim (fun hidle => hidle.handleTimeoutIn hopen horder now) id
    have hdrained : (engine.handleTimeoutIn peers now).engine.drain.2.HasTimers :=
      ⟨hafter.rotationPeriod, hafter.retransmissionPeriod, hafter.armed⟩
    have hstill : (engine.handleTimeoutIn peers now).engine.closed = false := by
      obtain ⟨elapsed, helapsed⟩ := elapsed_handleTimeoutIn hopen horder now
      exact helapsed.closed.trans hopen
    obtain ⟨instant, hmin, hpoll⟩ := exists_timeout hdrained hstill rfl rfl hidleAfter
    have hearly := isEarly_handleTimeoutIn hreachable hopen horder hnow hrotating hresending
    refine ⟨instant, isEarly_iff.mp hearly instant (List.min?_mem hmin), fun room => ?_⟩
    rw [hpoll room]

/-- A sample host that has sent an I1 and waits for the R1. -/
theorem exists_waiting_idle : ∃ engine : Engine, Reachable engine ∧ engine.closed = false ∧
    engine.config = SampleHost.config ∧ engine.established = [] ∧ engine.datagrams = [] ∧
    engine.IsIdle ∧ ∃ conn, engine.table.find? (SampleHost.identity 2).hit = some conn ∧
      conn.AwaitsR1 := by
  obtain ⟨engine, hnew⟩ := SampleHost.exists_isNew 1
  let peer := (SampleHost.identity 2).hit
  have hpeer : peer ≠ engine.hit := hnew.hit_eq ▸ SampleHost.distinct.symm
  have hroom : engine.connectionCount < engine.config.maxConnections :=
    Nat.lt_of_le_of_lt (Nat.le_add_right _ 3) hnew.room
  obtain ⟨-, moved, hmove, habsorbs⟩ :=
    connect_offered hnew.isOpen hpeer (.inr ⟨hnew.find?_eq_none peer, hroom, rfl⟩ :
      engine.Offers peer (.ofHost 2) _)
      rfl 0
  have hawaits : moved.settled.AwaitsR1 := by
    cases hmove with
    | initiate =>
      exact ⟨Connection.state_moveTo _ _,
        by simp [Connection.settled, Connection.pending_moveTo, Connection.transmit,
          Connection.fresh]⟩
  have hfind := habsorbs.find peer
  rw [if_pos (show moved.peer = peer from hmove.peer_eq)] at hfind
  let waiting := engine.after (.connect peer (.ofHost 2) 0)
  have hdrained : waiting.drain.2.Reachable := by
    rw [← run_pollOutput_eq_drain]
    exact (hnew.reachable.after (.connect peer (.ofHost 2) 0)).run _
  refine ⟨waiting.drain.2, hdrained, habsorbs.closed.trans hnew.isOpen,
    (engine.continues_after _).config.trans hnew.config, rfl, rfl, fun conn hmem => ?_, _,
      hfind, hawaits⟩
  have hconn : waiting.table.find? conn.peer = some conn :=
    ConnectionTable.find?_eq_some_iff.mpr ⟨hmem, rfl⟩
  rw [habsorbs.find] at hconn
  split at hconn
  · obtain rfl := Option.some.inj hconn
    rw [Connection.isSolving, hawaits.pending]
    rfl
  · cases (hnew.find?_eq_none _).symm.trans hconn

/-- A sample host that waits for an R1 names the same time until it has come, and then a later
    one. -/
theorem exists_polled_timeout : ∃ engine : Engine,
    (∃ conn, engine.table.find? (SampleHost.identity 2).hit = some conn ∧ conn.AwaitsR1) ∧
    (∃ instant, (∀ room, engine.pollOutput room = (.timeout instant, engine)) ∧
      ∀ now, engine.lastNow ≤ now → now < instant →
        engine.handleTimeout now = ⟨.ok (), { engine with lastNow := now }, []⟩) ∧
    ∃ instant, engine.lastNow < instant ∧ ∀ room,
      ((engine.handleTimeout engine.lastNow).engine.drain.2.pollOutput room).1 =
        .timeout instant := by
  obtain ⟨engine, hreachable, hopen, hconfig, hestablished, hdatagrams, hidle, hwaits⟩ :=
    exists_waiting_idle
  obtain ⟨hbefore, hafter⟩ :=
    polled_timeout_is_exact hreachable hopen (List.Perm.refl engine.table.peers)
  obtain ⟨instant, hpoll, hquiet⟩ := hbefore hestablished hdatagrams hidle
  refine ⟨engine, hwaits, ⟨instant, hpoll, fun now hnow hlt => (hquiet now hnow hlt).1⟩, ?_⟩
  exact hafter engine.lastNow (Nat.le_refl _) (hconfig ▸ by decide) (hconfig ▸ by decide)
    (.inl hidle)

end Polled

end Engine

end DietExchange
