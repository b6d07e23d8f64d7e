import DietExchange.Engine.Calls

namespace DietExchange

/-- A call that may change an engine. A timeout visits the connections in the order that is given;
    those that the order does not name come last, as they were opened. -/
inductive Call where
  | connect (peer : Hit) (address : Address) (now : Nat)
  | handlePacket (datagram : List UInt8) (source : Address) (now : Nat)
  | handleTimeout (order : List Hit) (now : Nat)
  | pollOutput (room : Nat)
  | close

namespace Engine

/-- The engine after a call. -/
def after (engine : Engine) : Call → Engine
  | .connect peer address now => (engine.connect peer address now).engine
  | .handlePacket datagram source now => (engine.handlePacket datagram source now).engine
  | .handleTimeout order now => (engine.handleTimeoutIn (engine.table.visits order) now).engine
  | .pollOutput room => (engine.pollOutput room).2
  | .close => engine.close.1

/-- The engine after several calls. -/
def run (engine : Engine) (calls : List Call) : Engine := calls.foldl after engine

/-- The engines that there are: those created, and what calls make of them. -/
inductive Reachable : Engine → Prop where
  | create {config : Config} {identity : HostIdentity} {source rest : EntropySource}
      {systemSeed : UInt64} {now : Nat} {engine : Engine} {log : List Log.Event}
      (hcreate : create config identity source systemSeed now = (.ok (engine, log), rest)) :
      Reachable engine
  | after {engine : Engine} (hreachable : Reachable engine) (call : Call) :
      Reachable (engine.after call)

theorem Reachable.run {engine : Engine} (hreachable : Reachable engine) (calls : List Call) :
    Reachable (engine.run calls) := by
  induction calls generalizing engine with
  | nil => exact hreachable
  | cons call calls ih => exact ih (hreachable.after call)

/-- What holds of an engine and any later state of it. -/
structure Continues (old new : Engine) : Prop where
  config : new.config = old.config
  identity : new.identity = old.identity
  lastNow : old.lastNow ≤ new.lastNow
  closed : old.closed → new.closed

theorem Continues.refl (engine : Engine) : Continues engine engine := ⟨rfl, rfl, Nat.le_refl _, id⟩

theorem Continues.trans {first second third : Engine} (hold : Continues first second)
    (hnew : Continues second third) : Continues first third :=
  ⟨hnew.config.trans hold.config, hnew.identity.trans hold.identity,
    Nat.le_trans hold.lastNow hnew.lastNow, hnew.closed ∘ hold.closed⟩

theorem continues_advance (engine : Engine) (now : Nat) : Continues engine (engine.advance now) :=
  ⟨rfl, rfl, Nat.le_max_left _ _, id⟩

theorem continues_obey (engine : Engine) (peer : Hit) (address : Address) (signal : Signal) :
    Continues engine (engine.obey peer address signal).1 := by
  cases signal with
  | transmit | connected => exact ⟨rfl, rfl, Nat.le_refl _, id⟩
  | startRetransmission =>
    unfold obey beginRetransmission
    dsimp only
    split <;> exact ⟨rfl, rfl, Nat.le_refl _, id⟩
  | stopRetransmission =>
    unfold obey endRetransmission
    dsimp only
    split <;> exact ⟨rfl, rfl, Nat.le_refl _, id⟩

theorem continues_obeyAll (engine : Engine) (peer : Hit) (address : Address)
    (signals : List Signal) : Continues engine (engine.obeyAll peer address signals).1 := by
  induction signals generalizing engine with
  | nil => exact .refl engine
  | cons signal rest ih => exact (engine.continues_obey peer address signal).trans (ih _)

theorem continues_settle (engine : Engine) (conn : Connection) :
    Continues engine (engine.settle conn).1 :=
  (engine.continues_obeyAll conn.peer conn.address conn.outbox).trans ⟨rfl, rfl, Nat.le_refl _, id⟩

theorem continues_deliver (engine : Engine) (conn : Connection) (isNew : Bool) (packet : Packet) :
    Continues engine (engine.deliver conn isNew packet).engine := by
  unfold deliver
  split
  · exact .refl engine
  · rename_i turn _
    have hdrawn : Continues engine { engine with rng := turn.rng } := ⟨rfl, rfl, Nat.le_refl _, id⟩
    dsimp only
    split
    · exact hdrawn.trans (continues_obeyAll _ _ _ _)
    · exact hdrawn.trans (continues_settle _ _)

theorem continues_accept (engine : Engine) (packet : Packet) (source : Address) :
    Continues engine (engine.accept packet source).engine := by
  unfold accept
  split
  · exact continues_deliver ..
  · split
    · exact .refl engine
    · split
      · exact .refl engine
      · exact continues_deliver ..

theorem continues_handlePacket (engine : Engine) (datagram : List UInt8) (source : Address)
    (now : Nat) : Continues engine (engine.handlePacket datagram source now).engine := by
  unfold handlePacket
  split
  · exact .refl engine
  · have hadvance := engine.continues_advance now
    dsimp only
    split
    · exact hadvance
    · split
      · exact hadvance
      · exact hadvance.trans (continues_accept ..)

theorem continues_initiate (engine : Engine) (conn : Connection) :
    Continues engine (engine.initiate conn).engine := by
  unfold initiate
  split
  · exact .refl engine
  · rename_i turn _
    have hdrawn : Continues engine { engine with rng := turn.rng } := ⟨rfl, rfl, Nat.le_refl _, id⟩
    exact hdrawn.trans (continues_settle _ _)

theorem continues_connect (engine : Engine) (peer : Hit) (address : Address) (now : Nat) :
    Continues engine (engine.connect peer address now).engine := by
  unfold connect
  split
  · exact .refl engine
  · have hadvance := engine.continues_advance now
    dsimp only
    split
    · exact hadvance
    · split
      · exact hadvance.trans (continues_initiate ..)
      · split
        · exact hadvance
        · exact hadvance.trans (continues_initiate ..)

theorem continues_rotateSecret (engine : Engine) (now : Nat) :
    Continues engine (engine.rotateSecret now).1 := by
  unfold rotateSecret
  dsimp only
  split
  · split <;> exact ⟨rfl, rfl, Nat.le_refl _, id⟩
  · exact ⟨rfl, rfl, Nat.le_refl _, id⟩

theorem continues_resendAll (engine : Engine) (peers : List Hit) :
    Continues engine (engine.resendAll peers).1 := by
  induction peers generalizing engine with
  | nil => exact .refl engine
  | cons peer rest ih =>
    unfold resendAll
    split
    · rename_i conn _ _
      have hput : Continues engine { engine with table := engine.table.put conn } :=
        ⟨rfl, rfl, Nat.le_refl _, id⟩
      exact hput.trans (ih _)
    · exact ih engine

theorem continues_sweep (engine : Engine) (peers : List Hit) (now : Nat) :
    Continues engine (engine.sweep peers now).1 := by
  have hfired : Continues engine
      { engine with retransmissionTimer := (engine.retransmissionTimer.fire now).2 } :=
    ⟨rfl, rfl, Nat.le_refl _, id⟩
  unfold sweep
  dsimp only
  split
  · exact hfired.trans (continues_resendAll _ _)
  · exact hfired

theorem continues_visit (engine : Engine) (now : Nat) (peer : Hit) :
    Continues engine (engine.visit now peer).1 := by
  unfold visit
  split
  · exact .refl engine
  · rename_i conn _
    have hdrawn : Continues engine
        { engine with rng := (Turn.timeout ⟨conn, engine.rng, []⟩ (engine.context now)).1.rng } :=
      ⟨rfl, rfl, Nat.le_refl _, id⟩
    exact hdrawn.trans (continues_settle _ _)

theorem continues_visitAll (engine : Engine) (now : Nat) (peers : List Hit) :
    Continues engine (engine.visitAll now peers).1 := by
  induction peers generalizing engine with
  | nil => exact .refl engine
  | cons peer rest ih => exact (engine.continues_visit now peer).trans (ih _)

/-- The order in which the connections are visited does not matter for this. -/
theorem continues_handleTimeoutIn (engine : Engine) (peers : List Hit) (now : Nat) :
    Continues engine (engine.handleTimeoutIn peers now).engine := by
  unfold handleTimeoutIn
  split
  · exact .refl engine
  · exact (engine.continues_advance now).trans ((continues_rotateSecret _ now).trans
      ((continues_sweep _ peers now).trans (continues_visitAll _ now peers)))

/-- A poll takes from the front of the queues at most, and changes nothing else. -/
theorem pollOutput_eq (engine : Engine) (room : Nat) : ∃ datagrams established,
    datagrams <:+ engine.datagrams ∧ established <:+ engine.established ∧
    (engine.pollOutput room).2 =
      { engine with datagrams := datagrams, established := established } := by
  unfold pollOutput
  split
  · rename_i peer rest hqueue
    rw [hqueue]
    exact ⟨_, rest, List.suffix_rfl, List.suffix_cons _ _, rfl⟩
  · split
    · rename_i address datagram rest hqueue
      rw [hqueue]
      exact ⟨rest, _, List.suffix_cons _ _, List.suffix_rfl, rfl⟩
    · exact ⟨_, _, List.suffix_rfl, List.suffix_rfl, rfl⟩

theorem continues_pollOutput (engine : Engine) (room : Nat) :
    Continues engine (engine.pollOutput room).2 := by
  obtain ⟨datagrams, established, -, -, heq⟩ := engine.pollOutput_eq room
  rw [heq]
  exact ⟨rfl, rfl, Nat.le_refl _, id⟩

theorem continues_close (engine : Engine) : Continues engine engine.close.1 := by
  unfold close
  split
  · exact .refl engine
  · exact ⟨rfl, rfl, Nat.le_refl _, fun _ => rfl⟩

theorem continues_after (engine : Engine) (call : Call) : Continues engine (engine.after call) := by
  cases call with
  | connect peer address now => exact engine.continues_connect peer address now
  | handlePacket datagram source now => exact engine.continues_handlePacket datagram source now
  | handleTimeout order now =>
      exact engine.continues_handleTimeoutIn (engine.table.visits order) now
  | pollOutput room => exact engine.continues_pollOutput room
  | close => exact engine.continues_close

/-- Whatever is called, an engine keeps its configuration and identity, its time never goes back,
    and once closed it stays closed. -/
theorem continues_run (engine : Engine) (calls : List Call) :
    Continues engine (engine.run calls) := by
  induction calls generalizing engine with
  | nil => exact .refl engine
  | cons call calls ih => exact (engine.continues_after call).trans (ih _)

end Engine

end DietExchange
