import DietExchange.Proofs.Engine.Bystander
import DietExchange.Proofs.Engine.Invariant

namespace DietExchange

/-- What is done with an engine short of closing it. A timeout visits the connections in the order
    of `peers`. -/
inductive Action where
  | connect (peer : Hit) (address : Address) (now : Nat)
  | handlePacket (datagram : List UInt8) (source : Address) (now : Nat)
  | handleTimeout (peers : List Hit) (now : Nat)
  | pollOutput (room : Nat)

/-- What is told in answer to an action. -/
inductive Answer where
  | reply (result : Except Error Unit) (log : List Log.Event)
  | output (output : Output)

namespace Engine

/-- The answer to an action, and the engine after it. -/
def perform (engine : Engine) : Action → Answer × Engine
  | .connect peer address now =>
    let reply := engine.connect peer address now
    (.reply reply.result reply.log, reply.engine)
  | .handlePacket datagram source now =>
    let reply := engine.handlePacket datagram source now
    (.reply reply.result reply.log, reply.engine)
  | .handleTimeout peers now =>
    let reply := engine.handleTimeoutIn peers now
    (.reply reply.result reply.log, reply.engine)
  | .pollOutput room =>
    let (output, engine) := engine.pollOutput room
    (.output output, engine)

def act (engine : Engine) (action : Action) : Engine := (engine.perform action).2

def actAll (engine : Engine) (actions : List Action) : Engine := actions.foldl act engine

/-- Whether an action fits an engine: a timeout visits every connection once. -/
def Allows (engine : Engine) : Action → Prop
  | .handleTimeout peers _ => peers.Perm engine.table.peers
  | .connect .. | .handlePacket .. | .pollOutput .. => True

/-- Whether each of several actions fits the engine that it finds. -/
def AllowsAll (engine : Engine) : List Action → Prop
  | [] => True
  | action :: rest => engine.Allows action ∧ (engine.act action).AllowsAll rest

theorem continues_act (engine : Engine) (action : Action) :
    Continues engine (engine.act action) := by
  cases action with
  | connect peer address now => exact engine.continues_connect peer address now
  | handlePacket datagram source now => exact engine.continues_handlePacket datagram source now
  | handleTimeout peers now => exact engine.continues_handleTimeoutIn peers now
  | pollOutput room => exact engine.continues_pollOutput room

theorem continues_actAll (engine : Engine) (actions : List Action) :
    Continues engine (engine.actAll actions) := by
  induction actions generalizing engine with
  | nil => exact .refl engine
  | cons action rest ih => exact (engine.continues_act action).trans (ih _)

section Act

variable {engine : Engine} {action : Action} {actions : List Action}

/-- An action leads where some call leads. -/
theorem Reachable.act (hreachable : Reachable engine)
    (hallows : engine.Allows action) : Reachable (engine.act action) := by
  cases action with
  | connect peer address now => exact hreachable.after (.connect peer address now)
  | handlePacket datagram source now => exact hreachable.after (.handlePacket datagram source now)
  | handleTimeout peers now => exact hreachable.timeout hallows now
  | pollOutput room => exact hreachable.after (.pollOutput room)

theorem closed_act (hopen : engine.closed = false) (hallows : engine.Allows action) :
    (engine.act action).closed = false := by
  cases action with
  | connect peer address now =>
    have hcall : Call.connect peer address now ≠ .close := by simp
    exact closed_after hopen hcall
  | handlePacket datagram source now =>
    have hcall : Call.handlePacket datagram source now ≠ .close := by simp
    exact closed_after hopen hcall
  | handleTimeout peers now =>
    obtain ⟨elapsed, helapsed⟩ := elapsed_handleTimeoutIn hopen hallows now
    exact helapsed.closed.trans hopen
  | pollOutput room =>
    have hcall : Call.pollOutput room ≠ .close := by simp
    exact closed_after hopen hcall

theorem Reachable.actAll (hreachable : Reachable engine)
    (hallows : engine.AllowsAll actions) : Reachable (engine.actAll actions) := by
  induction actions generalizing engine with
  | nil => exact hreachable
  | cons action rest ih => exact ih (hreachable.act hallows.1) hallows.2

theorem closed_actAll (hopen : engine.closed = false) (hallows : engine.AllowsAll actions) :
    (engine.actAll actions).closed = false := by
  induction actions generalizing engine with
  | nil => exact hopen
  | cons action rest ih => exact ih (closed_act hopen hallows.1) hallows.2

/-- Every call but closing is an action. -/
theorem exists_action (engine : Engine) {call : Call} (hcall : call ≠ .close) :
    ∃ action, engine.Allows action ∧ engine.act action = engine.after call := by
  cases call with
  | connect peer address now => exact ⟨.connect peer address now, trivial, rfl⟩
  | handlePacket datagram source now => exact ⟨.handlePacket datagram source now, trivial, rfl⟩
  | handleTimeout order now =>
    exact ⟨.handleTimeout (engine.table.visits order) now, engine.table.visits_perm order, rfl⟩
  | pollOutput room => exact ⟨.pollOutput room, trivial, rfl⟩
  | close => exact absurd rfl hcall

end Act

end Engine

end DietExchange
