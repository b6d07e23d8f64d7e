import DietExchange.Proofs.Engine.Bystander
import DietExchange.Proofs.Engine.Tally

namespace DietExchange

namespace Timer

variable {timer : Timer} {now : Nat}

@[simp]
theorem period_arm : (timer.arm now).period = timer.period := rfl

@[simp]
theorem period_disarm : timer.disarm.period = timer.period := rfl

@[simp]
theorem period_fire : (timer.fire now).2.period = timer.period := by
  unfold fire
  split
  · split <;> rfl
  · rfl

/-- A timer that fires is armed for a time to come. -/
theorem lt_deadline_fire (hperiod : 0 < timer.period) {deadline : Nat}
    (hdeadline : (timer.fire now).2.deadline = some deadline) : now < deadline := by
  unfold fire at hdeadline
  split at hdeadline
  · rename_i due hdue
    split at hdeadline
    · rename_i hearly
      rw [hdue, Option.some.injEq] at hdeadline
      omega
    · simp only [arm, Option.some.injEq] at hdeadline
      omega
  · rename_i hnone
    cases hnone.symm.trans hdeadline

/-- Before its deadline a timer does not fire. -/
theorem fire_eq_of_lt (hearly : ∀ deadline, timer.deadline = some deadline → now < deadline) :
    timer.fire now = (false, timer) := by
  unfold fire
  cases hdeadline : timer.deadline with
  | none => rfl
  | some deadline => exact if_pos (hearly deadline hdeadline)

/-- A timer that fires is armed anew, and one that does not is left alone. -/
theorem fire_snd (timer : Timer) (now : Nat) :
    (timer.fire now).2 = if (timer.fire now).1 then timer.arm now else timer := by
  unfold fire
  cases timer.deadline with
  | none => rfl
  | some deadline => by_cases hearly : now < deadline <;> simp [hearly]

/-- Whether a timer was left alone, disarmed or armed anew at this time. -/
structure SetAt (timer : Timer) (now : Nat) (later : Timer) : Prop where
  period : later.period = timer.period
  deadline : later.deadline = timer.deadline ∨ later.deadline = none ∨
    later.deadline = some (now + timer.period)

theorem SetAt.refl (timer : Timer) (now : Nat) : timer.SetAt now timer := ⟨rfl, .inl rfl⟩

theorem SetAt.trans {second third : Timer} (hfirst : timer.SetAt now second)
    (hsecond : second.SetAt now third) : timer.SetAt now third := by
  refine ⟨hsecond.period.trans hfirst.period, ?_⟩
  rcases hsecond.deadline with hsame | hset
  · rw [hsame]
    exact hfirst.deadline
  · rw [← hfirst.period]
    exact .inr hset

/-- What was to come is still to come. -/
theorem SetAt.lt_deadline {later : Timer} (hset : timer.SetAt now later)
    (hperiod : 0 < timer.period) (hlater : ∀ deadline, timer.deadline = some deadline →
      now < deadline) {deadline : Nat}
    (hdeadline : later.deadline = some deadline) : now < deadline := by
  rcases hset.deadline with hsame | hnone | harmed
  · exact hlater deadline (hsame.symm.trans hdeadline)
  · cases hnone.symm.trans hdeadline
  · rw [harmed, Option.some.injEq] at hdeadline
    omega

end Timer

namespace Engine

/-- Whether one engine comes of another without the passing of time, with only the timer of the
    sweep set by what connections asked for. -/
structure Resets (engine after : Engine) : Prop where
  lastNow : after.lastNow = engine.lastNow
  rotation : after.rotationTimer = engine.rotationTimer
  retransmission : engine.retransmissionTimer.SetAt engine.lastNow after.retransmissionTimer

theorem Resets.refl (engine : Engine) : engine.Resets engine := ⟨rfl, rfl, .refl _ _⟩

theorem Resets.trans {first second third : Engine} (hfirst : first.Resets second)
    (hsecond : second.Resets third) : first.Resets third := by
  refine ⟨hsecond.lastNow.trans hfirst.lastNow, hsecond.rotation.trans hfirst.rotation, ?_⟩
  have hset := hsecond.retransmission
  rw [hfirst.lastNow] at hset
  exact hfirst.retransmission.trans hset

theorem resets_obey (engine : Engine) (peer : Hit) (address : Address) (signal : Signal) :
    engine.Resets (engine.obey peer address signal).1 := by
  cases signal with
  | transmit | connected => exact ⟨rfl, rfl, .refl _ _⟩
  | startRetransmission =>
    unfold obey beginRetransmission
    dsimp only
    split
    · exact ⟨rfl, rfl, rfl, .inr (.inr rfl)⟩
    · exact ⟨rfl, rfl, .refl _ _⟩
  | stopRetransmission =>
    unfold obey endRetransmission
    dsimp only
    split
    · exact ⟨rfl, rfl, rfl, .inr (.inl rfl)⟩
    · exact ⟨rfl, rfl, .refl _ _⟩

theorem resets_obeyAll (engine : Engine) (peer : Hit) (address : Address) (signals : List Signal) :
    engine.Resets (engine.obeyAll peer address signals).1 := by
  induction signals generalizing engine with
  | nil => exact .refl engine
  | cons signal rest ih => exact (engine.resets_obey peer address signal).trans (ih _)

theorem resets_settle (engine : Engine) (conn : Connection) :
    engine.Resets (engine.settle conn).1 :=
  (engine.resets_obeyAll conn.peer conn.address conn.outbox).trans ⟨rfl, rfl, .refl _ _⟩

/-- To draw from the random stream sets no timer. -/
theorem Resets.of_drawn {engine after : Engine} {rng : RandomStream}
    (hresets : { engine with rng := rng }.Resets after) : engine.Resets after :=
  ⟨hresets.lastNow, hresets.rotation, hresets.retransmission⟩

theorem Turned.resets {engine after : Engine} {stimulus : Stimulus} {peer : Hit} {address : Address}
    (hturned : engine.Turned stimulus peer address after) : engine.Resets after := by
  cases hturned with
  | quiet => exact .refl engine
  | kept => exact (resets_settle _ _).of_drawn
  | forgotten => exact (resets_obeyAll _ _ _ _).of_drawn

theorem resets_visit (engine : Engine) (now : Nat) (peer : Hit) :
    engine.Resets (engine.visit now peer).1 := by
  unfold visit
  split
  · exact .refl engine
  · exact (resets_settle _ _).of_drawn

theorem resets_visitAll (engine : Engine) (now : Nat) (peers : List Hit) :
    engine.Resets (engine.visitAll now peers).1 := by
  induction peers generalizing engine with
  | nil => exact .refl engine
  | cons peer rest ih => exact (engine.resets_visit now peer).trans (ih _)

/-- To send packets again sets no timer. -/
theorem resets_resendAll (engine : Engine) (peers : List Hit) :
    engine.Resets (engine.resendAll peers).1 ∧
      (engine.resendAll peers).1.retransmissionTimer = engine.retransmissionTimer := by
  induction peers generalizing engine with
  | nil => exact ⟨.refl engine, rfl⟩
  | cons peer rest ih =>
    unfold resendAll
    split
    · rename_i conn _ _
      obtain ⟨hresets, htimer⟩ := ih { engine with table := engine.table.put conn }
      exact ⟨⟨hresets.lastNow, hresets.rotation, hresets.retransmission⟩, htimer⟩
    · exact ih engine

/-- Before the secret is due it stays. -/
theorem rotateSecret_of_lt (engine : Engine) {now : Nat}
    (hearly : ∀ deadline, engine.rotationTimer.deadline = some deadline → now < deadline) :
    engine.rotateSecret now = (engine, []) := by
  unfold rotateSecret
  rw [Timer.fire_eq_of_lt hearly]
  rfl

/-- Before the sweep is due nothing is sent again. -/
theorem sweep_of_lt (engine : Engine) {now : Nat}
    (hearly : ∀ deadline, engine.retransmissionTimer.deadline = some deadline → now < deadline)
    (peers : List Hit) : engine.sweep peers now = (engine, []) := by
  unfold sweep
  rw [Timer.fire_eq_of_lt hearly]
  rfl

theorem timers_rotateSecret (engine : Engine) (now : Nat) :
    (engine.rotateSecret now).1.lastNow = engine.lastNow ∧
    (engine.rotateSecret now).1.rotationTimer = (engine.rotationTimer.fire now).2 ∧
    (engine.rotateSecret now).1.retransmissionTimer = engine.retransmissionTimer := by
  unfold rotateSecret
  dsimp only
  split
  · split <;> exact ⟨rfl, rfl, rfl⟩
  · exact ⟨rfl, rfl, rfl⟩

theorem timers_sweep (engine : Engine) (peers : List Hit) (now : Nat) :
    (engine.sweep peers now).1.lastNow = engine.lastNow ∧
    (engine.sweep peers now).1.rotationTimer = engine.rotationTimer ∧
    (engine.sweep peers now).1.retransmissionTimer = (engine.retransmissionTimer.fire now).2 := by
  unfold sweep
  dsimp only
  split
  · obtain ⟨hresets, htimer⟩ := resets_resendAll
      { engine with retransmissionTimer := (engine.retransmissionTimer.fire now).2 } peers
    exact ⟨hresets.lastNow, hresets.rotation, htimer⟩
  · exact ⟨rfl, rfl, rfl⟩

/-- A timeout lets both timers fire; what the connections ask for then sets the timer of the sweep
    at the time of the engine. -/
theorem timers_handleTimeoutIn {engine : Engine} (hopen : engine.closed = false) (peers : List Hit)
    (now : Nat) :
    (engine.handleTimeoutIn peers now).engine.lastNow = max engine.lastNow now ∧
    (engine.handleTimeoutIn peers now).engine.rotationTimer = (engine.rotationTimer.fire now).2 ∧
    (engine.retransmissionTimer.fire now).2.SetAt (max engine.lastNow now)
      (engine.handleTimeoutIn peers now).engine.retransmissionTimer := by
  rw [engine_handleTimeoutIn hopen, sweepAndVisit]
  obtain ⟨hrotatedNow, hrotation, hsame⟩ := (engine.advance now).timers_rotateSecret now
  generalize ((engine.advance now).rotateSecret now).1 = rotated at hrotatedNow hrotation hsame
  obtain ⟨hsweptNow, hrotationStays, hswept⟩ := rotated.timers_sweep peers now
  have hvisits := (rotated.sweep peers now).1.resets_visitAll now peers
  have hset := hvisits.retransmission
  rw [hswept, hsame, hsweptNow, hrotatedNow] at hset
  exact ⟨hvisits.lastNow.trans (hsweptNow.trans hrotatedNow),
    hvisits.rotation.trans (hrotationStays.trans hrotation), hset⟩

/-- What holds of the timers of every engine that there is. -/
structure HasTimers (engine : Engine) : Prop where
  rotationPeriod : engine.rotationTimer.period = engine.config.rotationInterval
  retransmissionPeriod : engine.retransmissionTimer.period = engine.config.retransmissionInterval
  armed : engine.closed = false → engine.rotationTimer.isArmed = true

theorem hasTimers_create {config : Config} {identity : HostIdentity} {source rest : EntropySource}
    {systemSeed : UInt64} {now : Nat} {engine : Engine} {log : List Log.Event}
    (hcreate : create config identity source systemSeed now = (.ok (engine, log), rest)) :
    engine.HasTimers := by
  unfold create at hcreate
  repeat' split at hcreate
  all_goals simp only [Prod.mk.injEq, reduceCtorEq, false_and] at hcreate
  obtain ⟨hpair, -⟩ := hcreate
  obtain ⟨rfl, -⟩ := Prod.mk.inj (Except.ok.inj hpair)
  exact ⟨rfl, rfl, fun _ => rfl⟩

section HasTimers

variable {engine : Engine} (htimers : engine.HasTimers)
include htimers

theorem HasTimers.advance (now : Nat) : (engine.advance now).HasTimers :=
  ⟨htimers.rotationPeriod, htimers.retransmissionPeriod, htimers.armed⟩

theorem HasTimers.turned {after : Engine} {stimulus : Stimulus} {peer : Hit} {address : Address}
    (hturned : engine.Turned stimulus peer address after) : after.HasTimers := by
  have hresets := hturned.resets
  obtain ⟨hsame, -⟩ := hturned.effect
  constructor
  · rw [hresets.rotation, hsame.config]
    exact htimers.rotationPeriod
  · rw [hresets.retransmission.period, hsame.config]
    exact htimers.retransmissionPeriod
  · rw [hresets.rotation, hsame.closed]
    exact htimers.armed

theorem HasTimers.handleTimeoutIn (peers : List Hit) (now : Nat) :
    (engine.handleTimeoutIn peers now).engine.HasTimers := by
  cases hclosed : engine.closed with
  | true =>
    rw [handleTimeoutIn_of_closed hclosed]
    exact htimers
  | false =>
    have hconfig := (engine.continues_handleTimeoutIn peers now).config
    obtain ⟨-, hrotation, hset⟩ := timers_handleTimeoutIn hclosed peers now
    constructor
    · rw [hrotation, hconfig, Timer.period_fire]
      exact htimers.rotationPeriod
    · rw [hset.period, hconfig, Timer.period_fire]
      exact htimers.retransmissionPeriod
    · rw [hrotation, Timer.isArmed_fire]
      exact fun _ => htimers.armed hclosed

theorem HasTimers.after (call : Call) : (engine.after call).HasTimers := by
  have hbecomes := engine.becomes_after call
  generalize hafter : engine.after call = after at hbecomes ⊢
  cases hbecomes with
  | idle => exact htimers
  | polled => exact ⟨htimers.rotationPeriod, htimers.retransmissionPeriod, htimers.armed⟩
  | dropped => exact htimers.advance _
  | connected _ hturned | received _ _ _ hturned => exact (htimers.advance _).turned hturned
  | elapsed => exact hafter ▸ htimers.handleTimeoutIn _ _
  | closed =>
    exact ⟨htimers.rotationPeriod, htimers.retransmissionPeriod, fun hopen => by cases hopen⟩

end HasTimers

theorem Reachable.hasTimers {engine : Engine} (hreachable : Reachable engine) :
    engine.HasTimers := by
  induction hreachable with
  | create hcreate => exact hasTimers_create hcreate
  | after _ call ih => exact ih.after call

section KeepsSecret

/-- Whether the puzzle secret is not to be replaced at this time yet. -/
def KeepsSecret (engine : Engine) (now : Nat) : Prop :=
  ∀ deadline, engine.rotationTimer.deadline = some deadline → now < deadline

variable {engine : Engine} {now : Nat}

theorem KeepsSecret.of_rotationTimer {after : Engine} (hkeeps : engine.KeepsSecret now)
    (hsame : after.rotationTimer = engine.rotationTimer) : after.KeepsSecret now := by
  intro deadline hdeadline
  exact hkeeps deadline (hsame ▸ hdeadline)

theorem keepsSecret_handleTimeout (htimers : engine.HasTimers) (hopen : engine.closed = false)
    (hperiod : 0 < engine.config.rotationInterval) (order : List Hit) (now : Nat) :
    (engine.after (.handleTimeout order now)).KeepsSecret now := by
  obtain ⟨-, hrotation, -⟩ := timers_handleTimeoutIn hopen (engine.table.visits order) now
  intro deadline hdeadline
  rw [show (engine.after (.handleTimeout order now)).rotationTimer = _ from hrotation] at hdeadline
  exact Timer.lt_deadline_fire (htimers.rotationPeriod ▸ hperiod) hdeadline

/-- What happens at this time does not replace the secret. -/
theorem KeepsSecret.after (hkeeps : engine.KeepsSecret now) (hopen : engine.closed = false)
    {call : Call} (hcall : call ≠ .close)
    (htime : ∀ order time, call = .handleTimeout order time → time = now) :
    (engine.after call).issuer = engine.issuer ∧ (engine.after call).KeepsSecret now := by
  have hbecomes := engine.becomes_after call
  generalize hafter : engine.after call = after at hbecomes ⊢
  cases hbecomes with
  | idle | polled | dropped => exact ⟨rfl, hkeeps⟩
  | connected _ hturned | received _ _ _ hturned =>
    exact ⟨hturned.effect.1.issuer, hkeeps.of_rotationTimer hturned.resets.rotation⟩
  | @elapsed order time =>
    obtain rfl := htime order time rfl
    have hquiet : (engine.advance time).rotationTimer.fire time = (false, engine.rotationTimer) :=
      Timer.fire_eq_of_lt hkeeps
    have hrotate : ((engine.advance time).rotateSecret time).1 = engine.advance time := by
      unfold rotateSecret
      rw [hquiet]
      rfl
    obtain ⟨-, hrotation, -⟩ := timers_handleTimeoutIn hopen (engine.table.visits order) time
    rw [show engine.rotationTimer.fire time =
      (false, engine.rotationTimer) from hquiet] at hrotation
    obtain ⟨hsame, -⟩ :=
      (engine.advance time).sweepAndVisit_spec (engine.table.visits_perm order) time
    rw [← hafter]
    refine ⟨?_, hkeeps.of_rotationTimer hrotation⟩
    change (engine.handleTimeoutIn (engine.table.visits order) time).engine.issuer = engine.issuer
    rw [engine_handleTimeoutIn hopen, hrotate]
    exact hsame.issuer
  | closed => exact absurd rfl hcall

theorem KeepsSecret.run {calls : List Call} (hkeeps : engine.KeepsSecret now)
    (hopen : engine.closed = false) (hcalls : .close ∉ calls)
    (htime : ∀ order time, .handleTimeout order time ∈ calls → time = now) :
    (engine.run calls).issuer = engine.issuer := by
  induction calls generalizing engine with
  | nil => rfl
  | cons call rest ih =>
    have hcall : call ≠ .close := fun heq => hcalls (heq ▸ List.mem_cons_self)
    obtain ⟨hissuer, hstill⟩ := hkeeps.after hopen hcall fun order time heq =>
      htime order time (heq ▸ List.mem_cons_self)
    rw [run_cons, ← hissuer]
    exact ih hstill (closed_after hopen hcall) (fun hmem => hcalls (List.mem_cons_of_mem _ hmem))
      fun order time hmem => htime order time (List.mem_cons_of_mem _ hmem)

/-- While the time stands still, the newest secret is kept: it is replaced at most once then. -/
theorem HasTimers.newest_mem_run {calls : List Call} {secret : Block} (htimers : engine.HasTimers)
    (now : Nat) (hopen : engine.closed = false) (hperiod : 0 < engine.config.rotationInterval)
    (hcalls : .close ∉ calls) (htime : ∀ order time, .handleTimeout order time ∈ calls → time = now)
    (hnewest : engine.issuer.window.newest? = some secret) :
    secret ∈ (engine.run calls).issuer.window.secrets := by
  induction calls generalizing engine with
  | nil => exact List.mem_of_mem_head? hnewest
  | cons call rest ih =>
    have hcall : call ≠ .close := fun heq => hcalls (heq ▸ List.mem_cons_self)
    have hrest : .close ∉ rest := fun hmem => hcalls (List.mem_cons_of_mem _ hmem)
    have hrestTime : ∀ order time, .handleTimeout order time ∈ rest → time = now :=
      fun order time hmem => htime order time (List.mem_cons_of_mem _ hmem)
    rw [run_cons]
    rcases engine.issuer_after call with hsame | ⟨order, time, fresh, rfl, hrotated⟩
    · refine ih (htimers.after call) (closed_after hopen hcall) ?_ hrest hrestTime ?_
      · rwa [(engine.continues_after call).config]
      · rwa [hsame]
    · obtain rfl := htime order time List.mem_cons_self
      have hkeeps := keepsSecret_handleTimeout htimers hopen hperiod order time
      obtain ⟨older, holder⟩ := List.head?_eq_some_iff.mp hnewest
      rw [hkeeps.run (closed_after hopen hcall) hrest hrestTime, hrotated]
      simp [SecretWindow.push, holder, secretWindowSize]

end KeepsSecret

end Engine

end DietExchange
