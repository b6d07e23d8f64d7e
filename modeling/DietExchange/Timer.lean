/-!
A timer with a fixed period. There is no backoff: when it fires it is set to one period after the
time at which that was observed, however many periods have passed.
-/

namespace DietExchange

/-- A periodic timer; without a deadline it is disarmed. -/
structure Timer where
  period : Nat
  deadline : Option Nat
  deriving DecidableEq

namespace Timer

/-- A disarmed timer. -/
def ofPeriod (period : Nat) : Timer := ⟨period, none⟩

/-- Due one period from `now`. -/
def arm (timer : Timer) (now : Nat) : Timer := { timer with deadline := some (now + timer.period) }

def disarm (timer : Timer) : Timer := { timer with deadline := none }

def isArmed (timer : Timer) : Bool := timer.deadline.isSome

/-- Whether the deadline has come by `now`, and the timer armed anew if it has. -/
def fire (timer : Timer) (now : Nat) : Bool × Timer :=
  match timer.deadline with
  | some deadline => if now < deadline then (false, timer) else (true, timer.arm now)
  | none => (false, timer)

theorem fire_fst {timer : Timer} {now : Nat} :
    (timer.fire now).1 = true ↔ ∃ deadline, timer.deadline = some deadline ∧ deadline ≤ now := by
  unfold fire
  cases timer.deadline with
  | none => simp
  | some deadline =>
    by_cases hdue : now < deadline
    · simp [hdue]
    · simp [hdue, Nat.not_lt.mp hdue]

theorem fire_snd_of_not {timer : Timer} {now : Nat} (hquiet : (timer.fire now).1 = false) :
    (timer.fire now).2 = timer := by
  unfold fire at hquiet ⊢
  cases hdeadline : timer.deadline with
  | none => rfl
  | some deadline =>
    by_cases hdue : now < deadline
    · simp [hdue]
    · simp [hdeadline, hdue] at hquiet

end Timer

end DietExchange
