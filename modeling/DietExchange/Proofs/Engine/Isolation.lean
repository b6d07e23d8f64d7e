import DietExchange.Proofs.Engine.Fresh
import DietExchange.Proofs.Engine.Timers
import DietExchange.Proofs.Puzzle.Rotation

namespace DietExchange

namespace Engine

/-- The engine with other secrets for its puzzles, and another source of them. -/
def withSecrets (engine : Engine) (issuer : PuzzleIssuer) (entropy : EntropySource) : Engine :=
  { engine with issuer := issuer, entropy := entropy }

section WithSecrets

variable (engine : Engine) (issuer : PuzzleIssuer) (entropy : EntropySource)

theorem obey_withSecrets (peer : Hit) (address : Address) (signal : Signal) :
    (engine.withSecrets issuer entropy).obey peer address signal =
      ((engine.obey peer address signal).1.withSecrets issuer entropy,
        (engine.obey peer address signal).2) := by
  cases signal with
  | transmit | connected => rfl
  | startRetransmission =>
    by_cases hfirst : engine.retransmitting + 1 = 1 <;>
      simp only [obey, beginRetransmission, withSecrets, hfirst, if_true, if_false]
  | stopRetransmission =>
    by_cases hlast : engine.retransmitting - 1 = 0 <;>
      simp only [obey, endRetransmission, withSecrets, hlast, if_true, if_false]

theorem obeyAll_withSecrets (peer : Hit) (address : Address) (signals : List Signal) :
    (engine.withSecrets issuer entropy).obeyAll peer address signals =
      ((engine.obeyAll peer address signals).1.withSecrets issuer entropy,
        (engine.obeyAll peer address signals).2) := by
  induction signals generalizing engine with
  | nil => rfl
  | cons signal rest ih =>
    simp only [obeyAll, obey_withSecrets]
    rw [ih]

theorem settle_withSecrets (conn : Connection) :
    (engine.withSecrets issuer entropy).settle conn =
      ((engine.settle conn).1.withSecrets issuer entropy, (engine.settle conn).2) := by
  simp only [settle, obeyAll_withSecrets]
  rfl

/-- The passing of time does not read the secrets. -/
theorem timeout_withSecrets (turn : Turn) (now : Nat) :
    turn.timeout ((engine.withSecrets issuer entropy).context now) =
      turn.timeout (engine.context now) :=
  rfl

theorem visit_withSecrets (now : Nat) (peer : Hit) :
    (engine.withSecrets issuer entropy).visit now peer =
      ((engine.visit now peer).1.withSecrets issuer entropy, (engine.visit now peer).2) := by
  unfold visit
  rw [show (engine.withSecrets issuer entropy).table = engine.table from rfl]
  cases engine.table.find? peer with
  | none => rfl
  | some conn =>
    dsimp only
    rw [timeout_withSecrets]
    have hsettle := settle_withSecrets
      { engine with rng := (Turn.timeout ⟨conn, engine.rng, []⟩ (engine.context now)).1.rng }
      issuer entropy (Turn.timeout ⟨conn, engine.rng, []⟩ (engine.context now)).1.conn
    exact congrArg (fun settled => (settled.1, _ ++ settled.2)) hsettle

theorem visitAll_withSecrets (now : Nat) (peers : List Hit) :
    (engine.withSecrets issuer entropy).visitAll now peers =
      ((engine.visitAll now peers).1.withSecrets issuer entropy,
        (engine.visitAll now peers).2) := by
  induction peers generalizing engine with
  | nil => rfl
  | cons peer rest ih =>
    simp only [visitAll, visit_withSecrets]
    rw [ih]

theorem resendAll_withSecrets (peers : List Hit) :
    (engine.withSecrets issuer entropy).resendAll peers =
      ((engine.resendAll peers).1.withSecrets issuer entropy, (engine.resendAll peers).2) := by
  induction peers generalizing engine with
  | nil => rfl
  | cons peer rest ih =>
    unfold resendAll
    rw [show (engine.withSecrets issuer entropy).table = engine.table from rfl]
    cases (engine.table.find? peer).bind Connection.retransmit? with
    | none => exact ih engine
    | some pair =>
      have hrest := ih { engine with table := engine.table.put pair.1 }
      exact congrArg (fun swept => (swept.1, pair.2 :: swept.2)) hrest

theorem sweep_withSecrets (peers : List Hit) (now : Nat) :
    (engine.withSecrets issuer entropy).sweep peers now =
      ((engine.sweep peers now).1.withSecrets issuer entropy, (engine.sweep peers now).2) := by
  unfold sweep
  rw [show (engine.withSecrets issuer entropy).retransmissionTimer =
    engine.retransmissionTimer from rfl]
  dsimp only
  split
  · have hresend := resendAll_withSecrets
      { engine with retransmissionTimer := (engine.retransmissionTimer.fire now).2 } issuer
        entropy peers
    exact congrArg (fun swept => (swept.1, swept.2 ++ [.swept swept.2.length])) hresend
  · rfl

theorem sweepAndVisit_withSecrets (peers : List Hit) (now : Nat) :
    (engine.withSecrets issuer entropy).sweepAndVisit peers now =
      (engine.sweepAndVisit peers now).withSecrets issuer entropy := by
  unfold sweepAndVisit
  rw [sweep_withSecrets, visitAll_withSecrets]

end WithSecrets

/-- The engine with its rotation timer as it is once `now` was seen. -/
def ticked (engine : Engine) (now : Nat) : Engine :=
  { engine with rotationTimer := (engine.rotationTimer.fire now).2 }

/-- A rotation that is due asks the source for one secret, however long it was due. The issuer with
    it is the new one if there is one, and stays otherwise. -/
theorem rotateSecret_eq (engine : Engine) (now : Nat) :
    ∃ entropy, (engine.rotateSecret now).1 = (engine.ticked now).withSecrets
        (if (engine.rotationTimer.fire now).1 then
          (engine.issuer.rotate engine.entropy).1.toOption.getD engine.issuer
        else engine.issuer) entropy := by
  unfold rotateSecret
  dsimp only
  cases (engine.rotationTimer.fire now).1 with
  | false => exact ⟨engine.entropy, rfl⟩
  | true =>
    cases engine.issuer.rotate engine.entropy with
    | mk outcome entropy => cases outcome <;> exact ⟨entropy, rfl⟩

/-- After the rotation a timeout does the same whatever the source answered. -/
theorem handleTimeoutIn_withSecrets {engine : Engine} (hopen : engine.closed = false)
    (source : EntropySource) (peers : List Hit) (now : Nat) :
    ∃ entropy, ((engine.withSecrets engine.issuer source).handleTimeoutIn peers now).engine =
      (((engine.advance now).ticked now).sweepAndVisit peers now).withSecrets
        (if (engine.rotationTimer.fire now).1 then
          (engine.issuer.rotate source).1.toOption.getD engine.issuer
        else engine.issuer) entropy := by
  have hstays : (engine.withSecrets engine.issuer source).closed = false := hopen
  obtain ⟨entropy, hrotate⟩ :=
    ((engine.withSecrets engine.issuer source).advance now).rotateSecret_eq now
  refine ⟨entropy, ?_⟩
  rw [engine_handleTimeoutIn hstays, hrotate, sweepAndVisit_withSecrets]
  change ((((engine.advance now).ticked now).withSecrets engine.issuer source).sweepAndVisit
    peers now).withSecrets _ entropy = _
  rw [sweepAndVisit_withSecrets]
  rfl

/-- A rotation that fails is told to nobody but the log: the timeout succeeds, the secrets stay
    exactly as they are, and all the rest of the engine is as it is after a rotation that succeeds,
    which puts one secret in front if it is due. The rotation timer is armed anew in both. -/
theorem isolated_handleTimeoutIn {engine : Engine} (hopen : engine.closed = false)
    {winning losing : EntropySource} {secret : Block} {reason : String}
    (hwins : winning.draw.1 = .ok secret) (hloses : losing.draw.1 = .error reason)
    (peers : List Hit) (now : Nat) :
    let rotating := (engine.withSecrets engine.issuer winning).handleTimeoutIn peers now
    let failing := (engine.withSecrets engine.issuer losing).handleTimeoutIn peers now
    let due := (engine.rotationTimer.fire now).1
    rotating.result = .ok () ∧ failing.result = .ok () ∧
      failing.engine = rotating.engine.withSecrets engine.issuer failing.engine.entropy ∧
      rotating.engine.issuer = (if due then { engine.issuer with
        window := engine.issuer.window.push secret
        generation := engine.issuer.generation + 1 } else engine.issuer) ∧
      failing.engine.rotationTimer =
        (if due then engine.rotationTimer.arm now else engine.rotationTimer) := by
  obtain ⟨rest, hrotating⟩ := handleTimeoutIn_withSecrets hopen winning peers now
  obtain ⟨spent, hfailing⟩ := handleTimeoutIn_withSecrets hopen losing peers now
  have hwon : (engine.issuer.rotate winning).1.toOption.getD engine.issuer = { engine.issuer with
      window := engine.issuer.window.push secret
      generation := engine.issuer.generation + 1 } := by
    rw [PuzzleIssuer.toOption_rotate, hwins]
    rfl
  have hlost : (engine.issuer.rotate losing).1.toOption.getD engine.issuer = engine.issuer := by
    rw [PuzzleIssuer.toOption_rotate, hloses]
    rfl
  rw [hwon] at hrotating
  rw [hlost, ite_self] at hfailing
  have hwinningOpen : (engine.withSecrets engine.issuer winning).closed = false := hopen
  have hlosingOpen : (engine.withSecrets engine.issuer losing).closed = false := hopen
  refine ⟨result_handleTimeoutIn hwinningOpen peers now,
    result_handleTimeoutIn hlosingOpen peers now, ?_, ?_, ?_⟩
  · rw [hrotating, hfailing]
    rfl
  · rw [hrotating]
    rfl
  · obtain ⟨-, hrotation, -⟩ := timers_handleTimeoutIn hlosingOpen peers now
    exact hrotation.trans (Timer.fire_snd _ _)

/-- Two timeouts at which a rotation is due while an I1 is sent again and again, one with a source
    that answers and one with a source that does not. -/
theorem exists_isolated : ∃ (engine : Engine) (winning losing : EntropySource) (now : Nat),
    engine.Reachable ∧ engine.state? (SampleHost.identity 2).hit = some .i1Sent ∧
    ((engine.withSecrets engine.issuer winning).handleTimeout now).engine.puzzleGeneration =
      engine.puzzleGeneration + 1 ∧
    ((engine.withSecrets engine.issuer losing).handleTimeout now).engine.issuer =
      engine.issuer := by
  obtain ⟨engine, hreachable, hopen, -, conn, hfind, hawaits⟩ := SampleHost.exists_waiting
  let winning := EntropySource.scripted [.ok [7]] 0
  let losing := EntropySource.scripted [.error "out of entropy"] 0
  obtain ⟨deadline, hdeadline⟩ := Option.isSome_iff_exists.mp
    (hreachable.hasTimers.armed hopen)
  have hdue : (engine.rotationTimer.fire deadline).1 = true :=
    Timer.fire_fst.mpr ⟨deadline, hdeadline, Nat.le_refl _⟩
  have hwins : winning.draw.1 = .ok (EntropySource.fill [7]) := rfl
  have hloses : losing.draw.1 = .error "out of entropy" := rfl
  obtain ⟨-, -, hfailing, hrotating, -⟩ := isolated_handleTimeoutIn hopen hwins hloses
    engine.table.peers deadline
  rw [hdue, if_pos rfl] at hrotating
  refine ⟨engine, winning, losing, deadline, hreachable,
    state?_of_find? hfind hawaits.state, ?_, ?_⟩
  · exact congrArg PuzzleIssuer.generation hrotating
  · have hkept := congrArg Engine.issuer hfailing
    exact hkept

end Engine

end DietExchange
