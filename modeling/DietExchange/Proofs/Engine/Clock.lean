import DietExchange.Proofs.Engine.Actions
import DietExchange.Proofs.Engine.Deadline

/-!
What an engine makes of times that go back. A connect and a packet come at the latest time that
was told (`Engine.perform_clamp`); a timeout looks at its timers and its holds at the time that it
is given.
-/

namespace DietExchange

/-- The latest time that was told when this was done. -/
def Action.latest (latest : Nat) : Action → Nat
  | .connect _ _ now | .handlePacket _ _ now | .handleTimeout _ now => max latest now
  | .pollOutput _ => latest

/-- The action with its time replaced by the latest that was told. -/
def Action.clamp (latest : Nat) : Action → Action
  | .connect peer address now => .connect peer address (max latest now)
  | .handlePacket datagram source now => .handlePacket datagram source (max latest now)
  | .handleTimeout peers now => .handleTimeout peers (max latest now)
  | .pollOutput room => .pollOutput room

/-- The actions with each time replaced by the latest that was told by then. -/
def Action.clampAll (latest : Nat) : List Action → List Action
  | [] => []
  | action :: rest => action.clamp latest :: clampAll (action.latest latest) rest

/-- What an answer tells the caller. -/
def Answer.outcome : Answer → Except Error Unit ⊕ Output
  | .reply result _ => .inl result
  | .output handed => .inr handed

namespace Timer

variable {timer : Timer} {now later deadline : Nat}

/-- A timer that the later of two times leaves as the earlier does is due after both. -/
theorem lt_deadline_of_fire_eq (hperiod : 0 < timer.period) (hlt : now < later)
    (hsame : (timer.fire later).2 = (timer.fire now).2)
    (hdeadline : timer.deadline = some deadline) : later < deadline := by
  by_contra hdue
  have hlater : (timer.fire later).2.deadline = some (later + timer.period) := by
    unfold fire
    rw [hdeadline]
    dsimp only
    rw [if_neg hdue]
    rfl
  rw [hsame] at hlater
  unfold fire at hlater
  rw [hdeadline] at hlater
  dsimp only at hlater
  split at hlater
  · rw [hdeadline, Option.some.injEq] at hlater
    omega
  · simp only [arm, Option.some.injEq] at hlater
    omega

end Timer

namespace Turn

/-- When a hold ends is all that the time is looked at for. -/
theorem timeout_context (engine : Engine) (turn : Turn) {now later : Nat}
    (hhold : ∀ deadline, turn.conn.holdUntil = some deadline →
      (later < deadline ↔ now < deadline)) :
    turn.timeout (engine.context later) = turn.timeout (engine.context now) := by
  have hend : turn.endHold (engine.context later) = turn.endHold (engine.context now) := by
    unfold endHold
    cases hdeadline : turn.conn.holdUntil with
    | none => rfl
    | some deadline => exact if_congr (hhold deadline hdeadline) rfl rfl
  unfold timeout
  rw [hend]
  rfl

end Turn

namespace Connection

/-- Whether a connection does not ask for the sweep to be begun or ended. -/
def LeavesSweep (conn : Connection) : Prop :=
  ∀ signal ∈ conn.outbox, signal ≠ .startRetransmission ∧ signal ≠ .stopRetransmission

variable {conn moved : Connection} {ctx : Context}

theorem LeavesSweep.emit (hleaves : conn.LeavesSweep) {signal : Signal}
    (hsignal : signal ≠ .startRetransmission ∧ signal ≠ .stopRetransmission) :
    (conn.emit signal).LeavesSweep := by
  intro asked hasked
  rcases List.mem_append.mp hasked with hold | hnew
  · exact hleaves asked hold
  · rw [List.mem_singleton.mp hnew]
    exact hsignal

/-- Between two states that both wait, or both do not, the sweep is not asked for anything. -/
theorem LeavesSweep.moveTo (hleaves : conn.LeavesSweep) {next : State}
    (hwaits : conn.state.needsRetransmission = next.needsRetransmission) :
    (conn.moveTo next).LeavesSweep := by
  have hnone : sweepSignals conn.state next = [] := by
    unfold sweepSignals
    rw [hwaits]
    cases next.needsRetransmission <;> rfl
  unfold Connection.moveTo
  split
  · exact hleaves
  · rw [LeavesSweep, hnone, List.append_nil]
    exact hleaves

/-- What a timeout does to a connection does not change whether it waits. -/
theorem LeavesSweep.elapses (hleaves : conn.LeavesSweep) (hform : conn.WellFormed)
    (helapses : conn.Elapses ctx moved) : moved.WellFormed ∧ moved.LeavesSweep := by
  refine helapses.preserves (P := fun later => later.WellFormed ∧ later.LeavesSweep) ?_
    ⟨hform, hleaves⟩
  rintro stimulus before later hstimulus hmove ⟨hform, hleaves⟩
  refine ⟨hform.move hmove, ?_⟩
  cases hmove with
  | wait | rest | search | lose => exact hleaves
  | resend => exact hleaves.emit (by simp)
  | establish hhold =>
    have hstate : before.state = .r2Sent := hform.hold.mp (Option.isSome_of_eq_some hhold)
    have hwaits : before.state.needsRetransmission = State.established.needsRetransmission := by
      rw [hstate]
      rfl
    have hended : { before with holdUntil := none }.LeavesSweep := hleaves
    exact (hended.moveTo hwaits).emit (by simp)
  | giveUp hhold =>
    have hstate : before.state = .r2Sent := hform.hold.mp (Option.isSome_of_eq_some hhold)
    have hwaits : before.state.needsRetransmission = State.unassociated.needsRetransmission := by
      rw [hstate]
      rfl
    have hended : { before with holdUntil := none }.LeavesSweep := hleaves
    exact hended.moveTo hwaits
  | solve hpending =>
    have hstate : before.state = .i1Sent := (hform.pending _ hpending).1
    have hwaits : before.state.needsRetransmission = State.i2Sent.needsRetransmission := by
      rw [hstate]
      rfl
    refine LeavesSweep.moveTo ?_ hwaits
    exact hleaves.emit (by simp)
  | _ => simp at hstimulus

/-- A hold that is not over goes on. -/
theorem Elapses.holdUntil_of_lt (helapses : conn.Elapses ctx moved) (hform : conn.WellFormed)
    {deadline : Nat} (hhold : conn.holdUntil = some deadline) (hearly : ctx.now < deadline) :
    moved.holdUntil = some deadline := by
  have hstate : conn.state = .r2Sent := hform.hold.mp (Option.isSome_of_eq_some hhold)
  cases helapses.of_r2Sent hform hstate with
  | wait => exact hhold
  | establish hends hpast | giveUp hends hpast =>
    obtain rfl := Option.some.inj (hhold.symm.trans hends)
    exact absurd hpast (Nat.not_le.mpr hearly)

end Connection

namespace Engine

variable {engine : Engine}

/-- How long the connection with a peer is held. -/
def hold? (engine : Engine) (peer : Hit) : Option Nat :=
    (engine.table.find? peer).bind (·.holdUntil)

/-- What can be seen of an engine. -/
structure Sight where
  state : Hit → Option State
  keys : Hit → Option KeySet
  hold : Hit → Option Nat
  rotationTimer : Timer
  retransmissionTimer : Timer

def sight (engine : Engine) : Sight where
  state := engine.state?
  keys := engine.keys?
  hold := engine.hold?
  rotationTimer := engine.rotationTimer
  retransmissionTimer := engine.retransmissionTimer

/-- The answer to each of several actions, and the engine after it. -/
def history (engine : Engine) : List Action → List (Answer × Engine)
  | [] => []
  | action :: rest => engine.perform action :: (engine.act action).history rest

/-- What can be seen of an action. -/
def seen (step : Answer × Engine) : (Except Error Unit ⊕ Output) × Sight :=
  (step.1.outcome, step.2.sight)

/-- Whether a timeout that comes at `now` does what it would do at the latest time: neither timer is
    due by then, and no hold that is not due at `now` already. -/
structure Tolerates (engine : Engine) (now : Nat) : Prop where
  rotation : ∀ deadline, engine.rotationTimer.deadline = some deadline → engine.lastNow < deadline
  retransmission : ∀ deadline, engine.retransmissionTimer.deadline = some deadline →
    engine.lastNow < deadline
  holds : ∀ conn ∈ engine.table.connections, ∀ deadline, conn.holdUntil = some deadline →
    deadline ≤ engine.lastNow → deadline ≤ now

/-- Whether an action is no timeout that comes late, or one that comes late for nothing. -/
def IsPunctual (engine : Engine) : Action → Prop
  | .handleTimeout _ now => engine.lastNow ≤ now ∨ engine.Tolerates now
  | .connect .. | .handlePacket .. | .pollOutput .. => True

def ArePunctual (engine : Engine) : List Action → Prop
  | [] => True
  | action :: rest => engine.IsPunctual action ∧ (engine.act action).ArePunctual rest

theorem advance_max (engine : Engine) (now : Nat) :
    engine.advance (max engine.lastNow now) = engine.advance now := by
  rw [advance, advance, ← Nat.max_assoc, Nat.max_self]

theorem advance_of_le {now : Nat} (hle : now ≤ engine.lastNow) : engine.advance now = engine := by
  rw [advance, Nat.max_eq_left hle]

theorem connect_max (engine : Engine) (peer : Hit) (address : Address) (now : Nat) :
    engine.connect peer address (max engine.lastNow now) = engine.connect peer address now := by
  unfold connect
  rw [advance_max]

theorem handlePacket_max (engine : Engine) (datagram : List UInt8) (source : Address) (now : Nat) :
    engine.handlePacket datagram source (max engine.lastNow now) =
      engine.handlePacket datagram source now := by
  unfold handlePacket
  rw [advance_max]

section Late

variable {now : Nat} {peers : List Hit}

theorem visitAll_of_holds (hnodup : peers.Nodup) {later : Nat}
    (hholds : ∀ peer ∈ peers, ∀ conn, engine.table.find? peer = some conn → ∀ deadline,
      conn.holdUntil = some deadline → (later < deadline ↔ now < deadline)) :
    engine.visitAll later peers = engine.visitAll now peers := by
  induction peers generalizing engine with
  | nil => rfl
  | cons first rest ih =>
    obtain ⟨hfirst, hrest⟩ := List.nodup_cons.mp hnodup
    have hvisit : engine.visit later first = engine.visit now first := by
      unfold visit
      cases hfind : engine.table.find? first with
      | none => rfl
      | some conn =>
        dsimp only
        rw [Turn.timeout_context engine _ (hholds first List.mem_cons_self conn hfind)]
    have hothers : (engine.visit now first).1.visitAll later rest =
        (engine.visit now first).1.visitAll now rest := by
      apply ih hrest
      intro peer hmem conn hfind
      have hne : first ≠ peer := fun heq => hfirst (heq ▸ hmem)
      apply hholds peer (List.mem_cons_of_mem _ hmem) conn
      cases hknown : engine.table.find? first with
      | none => rwa [visit, hknown] at hfind
      | some known => rwa [find?_visit hknown, if_neg hne] at hfind
    rw [visitAll, visitAll, hvisit]
    dsimp only
    rw [hothers]

/-- A timeout that comes late for nothing does what it would do at the latest time. -/
theorem handleTimeoutIn_of_tolerates (hle : now ≤ engine.lastNow)
    (horder : peers.Perm engine.table.peers) (htolerates : engine.Tolerates now) :
    engine.handleTimeoutIn peers engine.lastNow = engine.handleTimeoutIn peers now := by
  have hrotation : ∀ deadline, engine.rotationTimer.deadline = some deadline → now < deadline :=
    fun deadline hdeadline => Nat.lt_of_le_of_lt hle (htolerates.rotation deadline hdeadline)
  have hretransmission : ∀ deadline, engine.retransmissionTimer.deadline = some deadline →
      now < deadline :=
    fun deadline hdeadline => Nat.lt_of_le_of_lt hle (htolerates.retransmission deadline hdeadline)
  have hvisits : engine.visitAll engine.lastNow peers = engine.visitAll now peers := by
    apply visitAll_of_holds (horder.nodup_iff.mpr engine.table.nodup)
    intro peer _ conn hfind deadline hdeadline
    have hmem := (ConnectionTable.find?_eq_some_iff.mp hfind).1
    have hholds := htolerates.holds conn hmem deadline hdeadline
    omega
  unfold handleTimeoutIn
  rw [advance_of_le (Nat.le_refl _), advance_of_le hle]
  dsimp only
  rw [engine.rotateSecret_of_lt htolerates.rotation, engine.rotateSecret_of_lt hrotation]
  dsimp only
  rw [engine.sweep_of_lt htolerates.retransmission, engine.sweep_of_lt hretransmission]
  dsimp only
  rw [hvisits]

theorem retransmissionTimer_obeyAll (engine : Engine) (peer : Hit) (address : Address)
    {signals : List Signal}
    (hleaves : ∀ signal ∈ signals, signal ≠ .startRetransmission ∧ signal ≠ .stopRetransmission) :
    (engine.obeyAll peer address signals).1.retransmissionTimer = engine.retransmissionTimer := by
  induction signals generalizing engine with
  | nil => rfl
  | cons signal rest ih =>
    obtain ⟨⟨hstart, hstop⟩, hrest⟩ := List.forall_mem_cons.mp hleaves
    cases signal with
    | transmit datagram =>
      exact ih { engine with datagrams := engine.datagrams ++ [⟨address, datagram⟩] } hrest
    | connected => exact ih { engine with established := engine.established ++ [peer] } hrest
    | startRetransmission => exact absurd rfl hstart
    | stopRetransmission => exact absurd rfl hstop

/-- Visits leave the timer of the sweep alone. -/
theorem retransmissionTimer_visitAll (engine : Engine) (now : Nat) (peers : List Hit)
    (hleaves : ∀ conn ∈ engine.table.connections, conn.WellFormed ∧ conn.LeavesSweep) :
    (engine.visitAll now peers).1.retransmissionTimer = engine.retransmissionTimer := by
  induction peers generalizing engine with
  | nil => rfl
  | cons first rest ih =>
    change ((engine.visit now first).1.visitAll now rest).1.retransmissionTimer = _
    cases hfind : engine.table.find? first with
    | none =>
      have hvisit : (engine.visit now first).1 = engine := by rw [visit, hfind]
      rw [hvisit]
      exact ih engine hleaves
    | some conn =>
      obtain ⟨hmem, -⟩ := ConnectionTable.find?_eq_some_iff.mp hfind
      obtain ⟨hform, hquiet⟩ := hleaves conn hmem
      let turn := (Turn.timeout ⟨conn, engine.rng, []⟩ (engine.context now)).1
      have helapses : conn.Elapses (engine.context now) turn.conn :=
        ⟨conn, _, .inl rfl, Turn.move_of_endHold ⟨conn, engine.rng, []⟩ _,
          Turn.move_of_solveStep _ _⟩
      obtain ⟨hformAfter, hquietAfter⟩ := hquiet.elapses hform helapses
      have hvisit : (engine.visit now first).1 =
          ({ engine with rng := turn.rng }.settle turn.conn).1 := by
        rw [visit, hfind]
      have htimer : (engine.visit now first).1.retransmissionTimer =
          engine.retransmissionTimer := by
        rw [hvisit]
        exact retransmissionTimer_obeyAll { engine with rng := turn.rng } _ _ hquietAfter
      rw [← htimer]
      apply ih
      intro other hother
      rw [hvisit, table_settle] at hother
      rcases ConnectionTable.mem_put hother with rfl | hold
      · exact ⟨hformAfter.settled, by simp [Connection.LeavesSweep, Connection.settled]⟩
      · exact hleaves other hold

/-- A timeout sets the timer of the sweep only if it is due. -/
theorem retransmissionTimer_handleTimeoutIn (hreachable : Reachable engine)
    (hopen : engine.closed = false) (horder : peers.Perm engine.table.peers) :
    (engine.handleTimeoutIn peers now).engine.retransmissionTimer =
      (engine.retransmissionTimer.fire now).2 := by
  rw [engine_handleTimeoutIn hopen]
  obtain ⟨issuer, entropy, timer, hrotate, -⟩ := (engine.advance now).rotateSecret_spec now
  rw [hrotate, sweepAndVisit]
  let rotated : Engine := { engine.advance now with
    issuer := issuer, entropy := entropy, rotationTimer := timer }
  have hnodup : peers.Nodup := horder.nodup_iff.mpr engine.table.nodup
  obtain ⟨swept, hswept, -, hfind, -⟩ := rotated.sweep_spec hnodup now
  have hleaves : ∀ conn ∈ (rotated.sweep peers now).1.table.connections,
      conn.WellFormed ∧ conn.LeavesSweep := by
    intro conn hmem
    have hafter := ConnectionTable.find?_eq_some_iff.mpr ⟨hmem, rfl⟩
    have hold : ∀ old, engine.table.find? conn.peer = some old → old.WellFormed ∧
        old.LeavesSweep := by
      intro old hold
      have hbefore := (ConnectionTable.find?_eq_some_iff.mp hold).1
      refine ⟨hreachable.wellFormed hbefore, ?_⟩
      rw [Connection.LeavesSweep, hreachable.outbox_eq_nil hbefore]
      exact fun _ hnone => absurd hnone List.not_mem_nil
    rw [hfind] at hafter
    split at hafter
    · obtain ⟨old, hknown, rfl⟩ := Option.map_eq_some_iff.mp hafter
      obtain ⟨hform, hquiet⟩ := hold old hknown
      rcases hswept (engine.context now) old with hsame | hmove
      · rw [hsame]
        exact ⟨hform, hquiet⟩
      · generalize swept old = later at hmove
        cases hmove with
        | resend => exact ⟨hform.emit _, hquiet.emit (by simp)⟩
    · exact hold conn hafter
  exact (retransmissionTimer_visitAll _ now peers hleaves).trans
    (rotated.timers_sweep peers now).2.2

/-- A timeout that comes late and shows what it would show at the latest time comes late for
    nothing. -/
theorem tolerates_of_sight (hreachable : Reachable engine) (hopen : engine.closed = false)
    (horder : peers.Perm engine.table.peers) (hlate : now < engine.lastNow)
    (hrotating : 0 < engine.config.rotationInterval)
    (hresending : 0 < engine.config.retransmissionInterval)
    (hsight : (engine.handleTimeoutIn peers engine.lastNow).engine.sight =
      (engine.handleTimeoutIn peers now).engine.sight) : engine.Tolerates now := by
  have htimers := hreachable.hasTimers
  constructor
  case rotation =>
    have hsame := congrArg Sight.rotationTimer hsight
    change (engine.handleTimeoutIn peers engine.lastNow).engine.rotationTimer =
      (engine.handleTimeoutIn peers now).engine.rotationTimer at hsame
    rw [(timers_handleTimeoutIn hopen peers engine.lastNow).2.1,
      (timers_handleTimeoutIn hopen peers now).2.1] at hsame
    exact fun deadline => Timer.lt_deadline_of_fire_eq (htimers.rotationPeriod ▸ hrotating)
      hlate hsame
  case retransmission =>
    have hsame := congrArg Sight.retransmissionTimer hsight
    change (engine.handleTimeoutIn peers engine.lastNow).engine.retransmissionTimer =
      (engine.handleTimeoutIn peers now).engine.retransmissionTimer at hsame
    rw [retransmissionTimer_handleTimeoutIn hreachable hopen horder,
      retransmissionTimer_handleTimeoutIn hreachable hopen horder] at hsame
    exact fun deadline =>
      Timer.lt_deadline_of_fire_eq (htimers.retransmissionPeriod ▸ hresending) hlate hsame
  case holds =>
    intro conn hmem deadline hhold hdue
    by_contra hearly
    have hfind : engine.table.find? conn.peer = some conn :=
      ConnectionTable.find?_eq_some_iff.mpr ⟨hmem, rfl⟩
    obtain ⟨elapsed, helapsed⟩ := elapsed_handleTimeoutIn hopen horder now
    obtain ⟨latest, hlatest⟩ := elapsed_handleTimeoutIn hopen horder engine.lastNow
    -- at `now` the hold goes on, which at the latest time it does not
    have hstill : (engine.handleTimeoutIn peers now).engine.hold? conn.peer = some deadline := by
      rw [hold?, helapsed.find, hfind]
      exact (helapsed.elapses conn).holdUntil_of_lt (hreachable.wellFormed hmem) hhold
        (Nat.not_le.mp hearly)
    have hsame := congrFun (congrArg Sight.hold hsight) conn.peer
    change (engine.handleTimeoutIn peers engine.lastNow).engine.hold? conn.peer =
      (engine.handleTimeoutIn peers now).engine.hold? conn.peer at hsame
    rw [hstill, hold?, hlatest.find, hfind] at hsame
    have hlater : engine.lastNow < deadline := (hlatest.elapses conn).lt_holdUntil hsame
    omega

end Late

section Act

/-- Every action that brings a time brings it to the engine, whatever comes of it. -/
theorem lastNow_act (hopen : engine.closed = false) (action : Action) :
    (engine.act action).lastNow = action.latest engine.lastNow := by
  cases action with
  | connect peer address now => exact (connect_cases hopen peer address now).effect.1.lastNow
  | handlePacket datagram source now => exact lastNow_handlePacket hopen datagram source now
  | handleTimeout peers now => exact (timers_handleTimeoutIn hopen peers now).1
  | pollOutput room =>
    change (engine.pollOutput room).2.lastNow = engine.lastNow
    unfold pollOutput
    repeat' split
    all_goals rfl

theorem config_act (engine : Engine) (action : Action) : (engine.act action).config =
    engine.config := by
  cases action with
  | connect peer address now => exact (engine.continues_connect peer address now).config
  | handlePacket datagram source now =>
      exact (engine.continues_handlePacket datagram source now).config
  | handleTimeout peers now => exact (engine.continues_handleTimeoutIn peers now).config
  | pollOutput room => exact (engine.continues_pollOutput room).config

/-- An action that is punctual is what it would be at the latest time. -/
theorem perform_clamp {action : Action} (hallows : engine.Allows action)
    (hpunctual : engine.IsPunctual action) :
    engine.perform (action.clamp engine.lastNow) = engine.perform action := by
  cases action with
  | connect peer address now => rw [Action.clamp, perform, perform, connect_max]
  | handlePacket datagram source now => rw [Action.clamp, perform, perform, handlePacket_max]
  | handleTimeout peers now =>
    have hsame : engine.handleTimeoutIn peers (max engine.lastNow now) =
        engine.handleTimeoutIn peers now := by
      rcases Nat.le_total engine.lastNow now with hle | hle
      · rw [Nat.max_eq_right hle]
      · rw [Nat.max_eq_left hle]
        rcases hpunctual with hintime | htolerates
        · rw [Nat.le_antisymm hle hintime]
        · exact handleTimeoutIn_of_tolerates hle hallows htolerates
    rw [Action.clamp, perform, perform, hsame]
  | pollOutput room => rfl

/-- An action that shows what it would show at the latest time is punctual. -/
theorem isPunctual_of_seen (hreachable : Reachable engine) (hopen : engine.closed = false)
    (hrotating : 0 < engine.config.rotationInterval)
    (hresending : 0 < engine.config.retransmissionInterval) {action : Action}
    (hallows : engine.Allows action)
    (hseen : seen (engine.perform (action.clamp engine.lastNow)) = seen (engine.perform action)) :
    engine.IsPunctual action := by
  cases action with
  | connect | handlePacket | pollOutput => exact trivial
  | handleTimeout peers now =>
    by_cases hlate : now < engine.lastNow
    · right
      have hsight := congrArg Prod.snd hseen
      simp only [seen, Action.clamp, perform, Nat.max_eq_left (Nat.le_of_lt hlate)] at hsight
      exact tolerates_of_sight hreachable hopen hallows hlate hrotating hresending hsight
    · exact .inl (Nat.not_lt.mp hlate)

end Act

section Run

variable {actions : List Action} (hreachable : Reachable engine)
  (hopen : engine.closed = false) (hallows : engine.AllowsAll actions)

include hopen hallows in
/-- Where every action is punctual, nothing at all would be different. -/
theorem history_clampAll (hpunctual : engine.ArePunctual actions) :
    engine.history (Action.clampAll engine.lastNow actions) = engine.history actions := by
  induction actions generalizing engine with
  | nil => rfl
  | cons action rest ih =>
    have hfirst := perform_clamp hallows.1 hpunctual.1
    have hact : engine.act (action.clamp engine.lastNow) = engine.act action :=
      congrArg Prod.snd hfirst
    have hrest := ih (closed_act hopen hallows.1) hallows.2 hpunctual.2
    rw [lastNow_act hopen] at hrest
    rw [Action.clampAll, history, history, hfirst, hact, hrest]

include hreachable hopen hallows in
/-- Where nothing would be seen that is different, every action is punctual. -/
theorem arePunctual_of_seen (hrotating : 0 < engine.config.rotationInterval)
    (hresending : 0 < engine.config.retransmissionInterval)
    (hseen : (engine.history (Action.clampAll engine.lastNow actions)).map seen =
      (engine.history actions).map seen) : engine.ArePunctual actions := by
  induction actions generalizing engine with
  | nil => exact trivial
  | cons action rest ih =>
    rw [Action.clampAll, history, history, List.map_cons, List.map_cons, List.cons.injEq] at hseen
    obtain ⟨hfirst, hrest⟩ := hseen
    have hpunctual := isPunctual_of_seen hreachable hopen hrotating hresending hallows.1 hfirst
    have hact : engine.act (action.clamp engine.lastNow) = engine.act action :=
      congrArg Prod.snd (perform_clamp hallows.1 hpunctual)
    rw [hact, ← lastNow_act hopen] at hrest
    rw [← config_act engine action] at hrotating hresending
    exact ⟨hpunctual, ih (hreachable.act hallows.1) (closed_act hopen hallows.1) hallows.2 hrotating
      hresending hrest⟩

end Run

/-- The time and the timers of a new engine. -/
theorem timers_create {config : Config} {identity : HostIdentity} {source rest : EntropySource}
    {systemSeed : UInt64} {now : Nat} {engine : Engine} {log : List Log.Event}
    (hcreate : create config identity source systemSeed now = (.ok (engine, log), rest)) :
    engine.lastNow = now ∧ engine.rotationTimer = (Timer.ofPeriod config.rotationInterval).arm now ∧
      engine.retransmissionTimer = Timer.ofPeriod config.retransmissionInterval := by
  unfold create at hcreate
  repeat' split at hcreate
  all_goals simp only [Prod.mk.injEq, reduceCtorEq, false_and] at hcreate
  obtain ⟨hpair, -⟩ := hcreate
  obtain ⟨rfl, -⟩ := Prod.mk.inj (Except.ok.inj hpair)
  exact ⟨rfl, rfl, rfl⟩

/-- A run with times that go back is the run with each time replaced by the latest told by then,
    every answer and every engine, if each timeout that comes late comes late for nothing: neither
    timer is due by the latest time, and no hold that is not due by its own. A timeout that comes
    late for something shows: it leaves a timer or a hold as the latest time would not. -/
theorem clamped_run_agrees_iff {config : Config} {identity : HostIdentity}
    {source rest : EntropySource} {systemSeed : UInt64} {now : Nat} {engine : Engine}
    {log : List Log.Event} (hcreate : create config identity source systemSeed now =
      (.ok (engine, log), rest)) {actions : List Action} (hallows : engine.AllowsAll actions) :
    (engine.ArePunctual actions →
      engine.history (Action.clampAll now actions) = engine.history actions) ∧
    (0 < config.rotationInterval → 0 < config.retransmissionInterval →
      ((engine.history (Action.clampAll now actions)).map seen = (engine.history actions).map seen ↔
        engine.ArePunctual actions)) := by
  obtain ⟨hconfig, -, -, -, -, hopen, -⟩ := create_spec hcreate
  obtain ⟨hnow, -⟩ := timers_create hcreate
  have hsame : engine.ArePunctual actions →
      engine.history (Action.clampAll now actions) = engine.history actions := by
    rw [← hnow]
    exact history_clampAll hopen hallows
  refine ⟨hsame, fun hrotating hresending => ⟨fun hseen => ?_, fun hpunctual => ?_⟩⟩
  · rw [← hconfig] at hrotating hresending
    rw [← hnow] at hseen
    exact arePunctual_of_seen (.create hcreate) hopen hallows hrotating hresending hseen
  · rw [hsame hpunctual]

/-- A datagram that is no packet only tells the time. -/
theorem act_malformed (hopen : engine.closed = false) {datagram : List UInt8} {error : Error}
    (hparse : Packet.parse datagram = .error error) (source : Address) (now : Nat) :
    engine.act (.handlePacket datagram source now) = engine.advance now := by
  simp only [act, perform, handlePacket, hopen, Bool.false_eq_true, if_false, hparse]

/-- The sample host is told a time, and then an earlier one. -/
def sampleActions (later earlier : Nat) : List Action :=
  [.handlePacket [] (.ofHost 2) later, .handleTimeout [] earlier]

theorem allowsAll_sampleActions {scalar : Nat} (hnew : SampleHost.IsNew scalar engine)
    (later earlier : Nat) : engine.AllowsAll (sampleActions later earlier) := by
  refine ⟨trivial, ?_, trivial⟩
  rw [act_malformed hnew.isOpen rfl, Allows, advance, hnew.table]
  exact List.Perm.refl _

/-- A time that goes back by two seconds before anything is planned makes no difference. -/
theorem exists_punctual_run : ∃ (engine : Engine) (log : List Log.Event) (rest : EntropySource),
    create SampleHost.config (SampleHost.identity 1) (EntropySource.scripted [] 1) 0 0 =
      (.ok (engine, log), rest) ∧ engine.AllowsAll (sampleActions 3000 1000) ∧
    engine.history (Action.clampAll 0 (sampleActions 3000 1000)) =
      engine.history (sampleActions 3000 1000) := by
  obtain ⟨engine, hnew⟩ := SampleHost.exists_isNew 1
  obtain ⟨log, rest, hcreate⟩ := hnew.created
  obtain ⟨hnow, hrotation, hretransmission⟩ := timers_create hcreate
  have hallows := allowsAll_sampleActions hnew 3000 1000
  have htolerates : (engine.act (.handlePacket [] (.ofHost 2) 3000)).Tolerates 1000 := by
    rw [act_malformed hnew.isOpen rfl]
    constructor
    case rotation =>
      intro deadline hdeadline
      rw [advance, hrotation, Timer.arm, Option.some.injEq] at hdeadline
      change max engine.lastNow 3000 < deadline
      rw [← hdeadline, hnow]
      decide
    case retransmission =>
      intro deadline hdeadline
      rw [advance, hretransmission] at hdeadline
      cases hdeadline
    case holds =>
      intro conn hmem
      rw [advance, hnew.table] at hmem
      exact absurd hmem List.not_mem_nil
  have hpunctual : engine.ArePunctual (sampleActions 3000 1000) :=
    ⟨trivial, .inr htolerates, trivial⟩
  exact ⟨engine, log, rest, hcreate, hallows,
    (clamped_run_agrees_iff hcreate hallows).1 hpunctual⟩

/-- Where the puzzle secret is due by the time that was told, a timeout that comes with an earlier
    time leaves it. -/
theorem not_forall_clamped_run_agrees : ¬∀ (config : Config) (identity : HostIdentity)
    (source rest : EntropySource) (systemSeed : UInt64) (now : Nat) (engine : Engine)
    (log : List Log.Event) (actions : List Action),
    create config identity source systemSeed now = (.ok (engine, log), rest) →
    engine.AllowsAll actions →
    (engine.history (Action.clampAll now actions)).map seen =
      (engine.history actions).map seen := by
  intro hall
  obtain ⟨engine, hnew⟩ := SampleHost.exists_isNew 1
  obtain ⟨log, rest, hcreate⟩ := hnew.created
  obtain ⟨hnow, hrotation, -⟩ := timers_create hcreate
  have hallows := allowsAll_sampleActions hnew 120000 119999
  have hseen :
      (engine.history (Action.clampAll engine.lastNow (sampleActions 120000 119999))).map seen =
      (engine.history (sampleActions 120000 119999)).map seen := by
    rw [hnow]
    exact hall _ _ _ _ _ _ _ _ _ hcreate hallows
  have hrotating : 0 < engine.config.rotationInterval := hnew.config ▸ by decide
  have hresending : 0 < engine.config.retransmissionInterval := hnew.config ▸ by decide
  obtain ⟨-, hpunctual, -⟩ :=
    arePunctual_of_seen (.create hcreate) hnew.isOpen hallows hrotating hresending hseen
  rw [act_malformed hnew.isOpen rfl] at hpunctual
  have hlast : (engine.advance 120000).lastNow = 120000 := by
    rw [advance, hnow]
    rfl
  have hdeadline : (engine.advance 120000).rotationTimer.deadline = some 120000 := by
    rw [advance, hrotation]
    rfl
  rcases hpunctual with hintime | htolerates
  · omega
  · have hdue := htolerates.rotation 120000 hdeadline
    omega

end Engine

end DietExchange
