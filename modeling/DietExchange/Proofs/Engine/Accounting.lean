import DietExchange.Proofs.Engine.Fresh
import DietExchange.Proofs.Engine.Tally

namespace DietExchange

namespace Engine

/-- What the count and the connections of an engine come to: the connections that wait are counted,
    and none has anything to tell of that. -/
structure Accounts (engine : Engine) : Prop where
  counts : engine.Counts engine.table.waiting
  reports : ∀ conn ∈ engine.table.connections, conn.Reports conn.state.needsRetransmission

/-- The engine in the course of a call, when it is about to do what a connection asks for. The
    connections may be visited in any order. -/
inductive Drains (engine : Engine) : Call → Engine → Connection → Prop where
  | connect {peer : Hit} {address : Address} {now : Nat} {conn moved : Connection}
      {rng : RandomStream} (hoffers : (engine.advance now).Offers peer address conn)
    (hmove : conn.Move ((engine.advance now).context (engine.advance now).lastNow)
      .initiate moved) :
    Drains engine (.connect peer address now) { engine.advance now with rng := rng } moved
  | handlePacket {datagram : List UInt8} {source : Address} {now : Nat} {packet : Packet}
    {conn moved : Connection} {rng : RandomStream}
    (hoffers : (engine.advance now).Offers packet.sender source conn)
    (hmove : conn.Move ((engine.advance now).context (engine.advance now).lastNow) (.packet packet)
      moved) :
    Drains engine (.handlePacket datagram source now) { engine.advance now with rng := rng } moved
  | handleTimeout {order peers front : List Hit} {now : Nat} {peer : Hit} {visited : Engine}
    {conn : Connection} {turn : Turn}
    (hvisited : visited =
      ((((engine.advance now).rotateSecret now).1.sweep peers now).1.visitAll now front).1)
    (hfind : visited.table.find? peer = some conn)
    (hturn : turn = (Turn.timeout ⟨conn, visited.rng, []⟩ (visited.context now)).1) :
    Drains engine (.handleTimeout order now) { visited with rng := turn.rng } turn.conn

section Exists

variable {engine : Engine}

theorem Turned.exists_changes {after : Engine} {stimulus : Stimulus} {peer : Hit}
    {address : Address} (hturned : engine.Turned stimulus peer address after)
    (hchanged : after.retransmitting ≠ engine.retransmitting) :
    ∃ conn moved rng, engine.Offers peer address conn ∧
      conn.Move (engine.context engine.lastNow) stimulus moved ∧
      ({ engine with rng := rng }.obeyAll moved.peer moved.address moved.outbox).1.retransmitting ≠
        engine.retransmitting := by
  cases hturned with
  | quiet => exact absurd rfl hchanged
  | kept hoffers _ hmove | forgotten hoffers _ hmove => exact ⟨_, _, _, hoffers, hmove, hchanged⟩

theorem visitAll_append (engine : Engine) (now : Nat) (front back : List Hit) :
    (engine.visitAll now (front ++ back)).1 =
      ((engine.visitAll now front).1.visitAll now back).1 := by
  induction front generalizing engine with
  | nil => rfl
  | cons peer rest ih => exact ih (engine.visit now peer).1

theorem retransmitting_resendAll (engine : Engine) (peers : List Hit) :
    (engine.resendAll peers).1.retransmitting = engine.retransmitting := by
  induction peers generalizing engine with
  | nil => rfl
  | cons peer rest ih =>
    unfold resendAll
    split
    · exact ih _
    · exact ih engine

theorem retransmitting_sweep (engine : Engine) (peers : List Hit) (now : Nat) :
    (engine.sweep peers now).1.retransmitting = engine.retransmitting := by
  unfold sweep
  dsimp only
  split
  · exact retransmitting_resendAll _ peers
  · rfl

/-- The first visit that changes the count does so by what the connection asks for. -/
theorem exists_drains_visitAll {now : Nat} {peers : List Hit} (front : List Hit) {visited : Engine}
    (hvisited : visited =
      ((((engine.advance now).rotateSecret now).1.sweep peers now).1.visitAll now front).1)
    {rest : List Hit}
    (hchanged : (visited.visitAll now rest).1.retransmitting ≠ visited.retransmitting)
    (order : List Hit) : ∃ draining conn, engine.Drains (.handleTimeout order now) draining conn ∧
      (draining.obeyAll conn.peer conn.address conn.outbox).1.retransmitting ≠
        draining.retransmitting := by
  induction rest generalizing front visited with
  | nil => exact absurd rfl hchanged
  | cons peer rest ih =>
    by_cases hfirst : (visited.visit now peer).1.retransmitting = visited.retransmitting
    · refine ih (front ++ [peer]) ?_ fun heq => hchanged (heq.trans hfirst)
      rw [visitAll_append, ← hvisited]
      rfl
    · unfold visit at hfirst
      cases hfind : visited.table.find? peer with
      | none =>
        rw [hfind] at hfirst
        exact absurd rfl hfirst
      | some conn =>
        rw [hfind] at hfirst
        exact ⟨_, _, .handleTimeout hvisited hfind rfl, hfirst⟩

/-- Nothing but what connections ask for changes the count, unless the engine is closed. -/
theorem exists_drains {call : Call} (hcall : call ≠ .close)
    (hchanged : (engine.after call).retransmitting ≠ engine.retransmitting) :
    ∃ draining conn, engine.Drains call draining conn ∧
      (draining.obeyAll conn.peer conn.address conn.outbox).1.retransmitting ≠
        draining.retransmitting := by
  have hbecomes := engine.becomes_after call
  generalize hafter : engine.after call = after at hbecomes hchanged
  cases hbecomes with
  | idle | polled | dropped => exact absurd rfl hchanged
  | connected _ hturned =>
    obtain ⟨conn, moved, rng, hoffers, hmove, hobeyed⟩ := hturned.exists_changes hchanged
    exact ⟨_, moved, .connect hoffers hmove, hobeyed⟩
  | received _ _ _ hturned =>
    obtain ⟨conn, moved, rng, hoffers, hmove, hobeyed⟩ := hturned.exists_changes hchanged
    exact ⟨_, moved, .handlePacket hoffers hmove, hobeyed⟩
  | @elapsed order now _ _ _ hopen _ =>
    obtain ⟨issuer, entropy, timer, hrotate, -⟩ := (engine.advance now).rotateSecret_spec now
    let peers := engine.table.visits order
    have hswept : (((engine.advance now).rotateSecret now).1.sweep peers now).1.retransmitting =
        engine.retransmitting := by
      rw [retransmitting_sweep, hrotate]
      rfl
    rw [← hafter, show engine.after (.handleTimeout order now) =
      _ from engine_handleTimeoutIn hopen peers now, ← hswept] at hchanged
    exact exists_drains_visitAll [] rfl hchanged order
  | closed => exact absurd rfl hcall

end Exists

/-- Whether an engine counts nothing, waits for nothing and has nothing left. -/
structure IsReleased (engine : Engine) : Prop where
  retransmitting : engine.retransmitting = 0
  retransmissionTimer : engine.retransmissionTimer.isArmed = false
  rotationTimer : engine.rotationTimer.isArmed = false
  table : engine.table = .empty
  datagrams : engine.datagrams = []
  established : engine.established = []

theorem released_close {engine : Engine} (hopen : engine.closed = false) :
    (engine.after .close).IsReleased := by
  have heq : engine.after .close = engine.close.1 := rfl
  rw [heq, close, hopen]
  exact ⟨rfl, rfl, rfl, rfl, rfl, rfl⟩

theorem IsReleased.accounts {engine : Engine} (hreleased : engine.IsReleased) :
    engine.Accounts := by
  have hnone : engine.isRetransmissionArmed = false := hreleased.retransmissionTimer
  constructor
  · rw [hreleased.table]
    exact ⟨hreleased.retransmitting,
      by simp [hnone, ConnectionTable.waiting, ConnectionTable.empty]⟩
  · rw [hreleased.table]
    exact fun _ hmem => absurd hmem List.not_mem_nil

section Accounts

variable {engine : Engine} (haccounts : engine.Accounts)
include haccounts

theorem Accounts.reports_found {peer : Hit} {conn : Connection}
    (hfind : engine.table.find? peer = some conn) : conn.Reports (engine.table.waitsFor peer) := by
  rw [ConnectionTable.waitsFor, hfind]
  exact haccounts.reports conn (ConnectionTable.find?_eq_some_iff.mp hfind).1

theorem Accounts.reports_offered {peer : Hit} {address : Address} {conn : Connection}
    (hoffers : engine.Offers peer address conn) : conn.Reports (engine.table.waitsFor peer) := by
  rcases hoffers with hfind | ⟨hnone, -, rfl⟩
  · exact haccounts.reports_found hfind
  · rw [ConnectionTable.waitsFor, hnone]
    exact .nil false

theorem Accounts.reports_moved {peer : Hit} {address : Address} {conn moved : Connection}
    {ctx : Context} {stimulus : Stimulus} (hoffers : engine.Offers peer address conn)
    (hmove : conn.Move ctx stimulus moved) : moved.Reports (engine.table.waitsFor moved.peer) := by
  rw [hmove.peer_eq, hoffers.peer_eq]
  exact (haccounts.reports_offered hoffers).move hmove

theorem Accounts.advance (now : Nat) : (engine.advance now).Accounts :=
  ⟨haccounts.counts, haccounts.reports⟩

theorem Accounts.drawn (rng : RandomStream) : { engine with rng := rng }.Accounts :=
  ⟨haccounts.counts, haccounts.reports⟩

section Settle

variable {conn : Connection} (hreports : conn.Reports (engine.table.waitsFor conn.peer))

include hreports

theorem Accounts.obeyAll : (engine.obeyAll conn.peer conn.address conn.outbox).1.Counts
    (engine.table.waitingBeside conn.peer + conn.state.needsRetransmission.toNat) := by
  have hcounts := haccounts.counts
  rw [engine.table.waiting_eq conn.peer] at hcounts
  exact hcounts.obeyAll hreports _ _

/-- An engine that does what a connection asks for and keeps it has counted it. -/
theorem Accounts.settle : (engine.settle conn).1.Accounts := by
  have hput := engine.table_settle conn
  constructor
  · rw [hput, ConnectionTable.waiting_put]
    exact haccounts.obeyAll hreports
  · intro other hmem
    rcases ConnectionTable.mem_put (hput ▸ hmem) with rfl | hold
    · exact .nil _
    · exact haccounts.reports other hold

/-- One that does not keep it has not, if it does not wait. -/
theorem Accounts.forget (hnone : engine.table.find? conn.peer = none)
    (hstate : conn.state = .unassociated) : (engine.forget conn).1.Accounts := by
  have htable := engine.table_obeyAll conn.peer conn.address conn.outbox
  have hcounts := haccounts.obeyAll hreports
  have hbeside : engine.table.waitingBeside conn.peer = engine.table.waiting := by
    rw [engine.table.waiting_eq conn.peer, ConnectionTable.waitsFor, hnone]
    rfl
  rw [hbeside, hstate] at hcounts
  constructor
  · rw [show (engine.forget conn).1.table = _ from htable]
    exact hcounts
  · rw [show (engine.forget conn).1.table = _ from htable]
    exact haccounts.reports

/-- Whoever stops to wait was counted. -/
theorem Accounts.retransmitting_pos {front rest : List Signal}
    (houtbox : conn.outbox = front ++ .stopRetransmission :: rest) :
    0 < (engine.obeyAll conn.peer conn.address front).1.retransmitting := by
  rw [Connection.Reports, houtbox] at hreports
  have hcounts := haccounts.counts
  rw [engine.table.waiting_eq conn.peer] at hcounts
  obtain ⟨hcount, -⟩ := hcounts.obeyAll hreports.of_append_stop conn.peer conn.address
  rw [hcount]
  exact Nat.succ_pos _

end Settle

theorem Accounts.turned {after : Engine} {stimulus : Stimulus} {peer : Hit} {address : Address}
    (hturned : engine.Turned stimulus peer address after) : after.Accounts := by
  cases hturned with
  | quiet => exact haccounts
  | kept hoffers _ hmove => exact (haccounts.drawn _).settle (haccounts.reports_moved hoffers hmove)
  | forgotten hoffers hnone hmove hstate =>
    refine (haccounts.drawn _).forget (haccounts.reports_moved hoffers hmove) ?_ hstate
    rw [hmove.peer_eq, hoffers.peer_eq]
    exact hnone

/-- The count goes with whether the connection that moves waits for an answer. -/
theorem Accounts.retransmitting_turned {after : Engine} {stimulus : Stimulus} {peer : Hit}
    {address : Address} (hturned : engine.Turned stimulus peer address after)
    {conn moved : Connection} (hfind : engine.table.find? peer = some conn)
    (hafter : after.table.find? peer = some moved) :
    after.retransmitting + conn.state.needsRetransmission.toNat =
      engine.retransmitting + moved.state.needsRetransmission.toNat := by
  have hbefore : engine.retransmitting =
      engine.table.waitingBeside peer + conn.state.needsRetransmission.toNat := by
    rw [haccounts.counts.1, engine.table.waiting_eq peer, ConnectionTable.waitsFor, hfind,
      Option.any_some]
  have hcount := (haccounts.turned hturned).counts.1
  cases hturned with
  | quiet =>
    obtain rfl := Option.some.inj (hfind.symm.trans hafter)
    rfl
  | @kept _ turned rng hoffers _ hmove =>
    obtain rfl : turned.peer = peer := hmove.peer_eq.trans hoffers.peer_eq
    have htable := { engine with rng := rng }.table_settle turned
    have hown : turned.settled.peer = turned.peer := rfl
    rw [htable, ConnectionTable.find?_put, if_pos hown] at hafter
    obtain rfl := Option.some.inj hafter
    rw [htable, ConnectionTable.waiting_put] at hcount
    rw [hcount, hbefore]
    exact Nat.add_right_comm _ _ _
  | forgotten _ hnone => cases hnone.symm.trans hfind

theorem Accounts.retransmitting_handlePacket (hopen : engine.closed = false) {datagram : List UInt8}
    {packet : Packet} (hparse : Packet.parse datagram = .ok packet) {source : Address} {now : Nat}
    {conn moved : Connection} (hfind : engine.table.find? packet.sender = some conn)
    (hafter : (engine.after (.handlePacket datagram source now)).table.find? packet.sender =
      some moved) : (engine.after (.handlePacket datagram source now)).retransmitting +
        conn.state.needsRetransmission.toNat =
      engine.retransmitting + moved.state.needsRetransmission.toNat := by
  rcases handlePacket_cases hopen datagram source now with heq | ⟨found, hfound, -, hturned⟩
  · rw [show engine.after (.handlePacket datagram source now) =
      engine.advance now from heq] at hafter ⊢
    obtain rfl := Option.some.inj (hfind.symm.trans hafter)
    rfl
  · obtain rfl := Except.ok.inj (hparse.symm.trans hfound)
    exact (haccounts.advance now).retransmitting_turned hturned hfind hafter

/-- The sweep asks for nothing that concerns the count. -/
theorem Accounts.resendAll (peers : List Hit) : (engine.resendAll peers).1.Accounts := by
  induction peers generalizing engine with
  | nil => exact haccounts
  | cons peer rest ih =>
    unfold Engine.resendAll
    cases hresend : (engine.table.find? peer).bind Connection.retransmit? with
    | none => exact ih haccounts
    | some pair =>
      obtain ⟨resent, event⟩ := pair
      obtain ⟨conn, hfind, hresent⟩ := Option.bind_eq_some_iff.mp hresend
      obtain rfl := ConnectionTable.peer_of_find? hfind
      have hmove := Connection.move_of_retransmit? (engine.context 0) hresent
      have hreports := (haccounts.reports_found hfind).move hmove
      have hwaits : engine.table.waitsFor conn.peer = resent.state.needsRetransmission := by
        rw [ConnectionTable.waitsFor, hfind]
        cases hmove
        rfl
      refine ih ⟨?_, fun other hmem => ?_⟩
      · change engine.Counts (engine.table.put resent).waiting
        rw [ConnectionTable.waiting_put, ← hwaits, hmove.peer_eq, ← ConnectionTable.waiting_eq]
        exact haccounts.counts
      · rcases ConnectionTable.mem_put hmem with rfl | hold
        · exact hwaits ▸ hreports
        · exact haccounts.reports other hold

theorem Accounts.sweep (peers : List Hit) (now : Nat) : (engine.sweep peers now).1.Accounts := by
  have hfired : { engine with
      retransmissionTimer := (engine.retransmissionTimer.fire now).2 }.Accounts := by
    refine ⟨⟨haccounts.counts.1, ?_⟩, haccounts.reports⟩
    rw [isRetransmissionArmed, Timer.isArmed_fire]
    exact haccounts.counts.2
  unfold Engine.sweep
  dsimp only
  split
  · exact hfired.resendAll peers
  · exact hfired

theorem Accounts.reports_visited {peer : Hit} {conn : Connection}
    (hfind : engine.table.find? peer = some conn) (now : Nat) {turn : Turn}
    (hturn : turn = (Turn.timeout ⟨conn, engine.rng, []⟩ (engine.context now)).1) :
    turn.conn.Reports (engine.table.waitsFor turn.conn.peer) := by
  obtain rfl := ConnectionTable.peer_of_find? hfind
  rw [hturn, peer_timeout]
  exact (haccounts.reports_found hfind).timeout _ _ _

theorem Accounts.visit (now : Nat) (peer : Hit) : (engine.visit now peer).1.Accounts := by
  unfold Engine.visit
  split
  · exact haccounts
  · rename_i conn hfind
    exact (haccounts.drawn _).settle (haccounts.reports_visited hfind now rfl)

theorem Accounts.visitAll (now : Nat) (peers : List Hit) :
    (engine.visitAll now peers).1.Accounts := by
  induction peers generalizing engine with
  | nil => exact haccounts
  | cons peer rest ih => exact ih (haccounts.visit now peer)

theorem Accounts.rotateSecret (now : Nat) : ((engine.advance now).rotateSecret now).1.Accounts := by
  obtain ⟨issuer, entropy, timer, heq, -⟩ := (engine.advance now).rotateSecret_spec now
  rw [heq]
  exact ⟨haccounts.counts, haccounts.reports⟩

/-- The time is seen with the connections visited in whatever order. -/
theorem Accounts.handleTimeoutIn (peers : List Hit) (now : Nat) :
    (engine.handleTimeoutIn peers now).engine.Accounts := by
  unfold Engine.handleTimeoutIn
  split
  · exact haccounts
  · exact ((haccounts.rotateSecret now).sweep peers now).visitAll now peers

/-- Whatever is called, the count stays right. -/
theorem Accounts.after (call : Call) : (engine.after call).Accounts := by
  have hbecomes := engine.becomes_after call
  generalize hafter : engine.after call = after at hbecomes ⊢
  cases hbecomes with
  | idle => exact haccounts
  | polled => exact ⟨haccounts.counts, haccounts.reports⟩
  | dropped => exact haccounts.advance _
  | connected _ hturned | received _ _ _ hturned => exact (haccounts.advance _).turned hturned
  | elapsed => exact hafter ▸ haccounts.handleTimeoutIn _ _
  | closed hopen => exact hafter ▸ (released_close hopen).accounts

/-- Whoever is drained in the course of a call was counted right before. -/
theorem Accounts.drains {call : Call} {draining : Engine} {conn : Connection}
    (hdrains : engine.Drains call draining conn) :
    draining.Accounts ∧ conn.Reports (draining.table.waitsFor conn.peer) := by
  cases hdrains with
  | @connect _ _ now _ _ rng hoffers hmove | @handlePacket _ _ now _ _ _ rng hoffers hmove =>
    exact ⟨(haccounts.advance now).drawn rng, (haccounts.advance now).reports_moved hoffers hmove⟩
  | @handleTimeout _ peers front now _ visited _ turn hvisited hfind hturn =>
    have hstill : visited.Accounts :=
      hvisited ▸ ((haccounts.rotateSecret now).sweep peers now).visitAll now front
    exact ⟨hstill.drawn turn.rng, hstill.reports_visited hfind now hturn⟩

end Accounts

theorem accounts_create {config : Config} {identity : HostIdentity} {source rest : EntropySource}
    {systemSeed : UInt64} {now : Nat} {engine : Engine} {log : List Log.Event}
    (hcreate : create config identity source systemSeed now = (.ok (engine, log), rest)) :
    engine.Accounts := by
  unfold create at hcreate
  repeat' split at hcreate
  all_goals simp only [Prod.mk.injEq, reduceCtorEq, false_and] at hcreate
  obtain ⟨hpair, -⟩ := hcreate
  obtain ⟨rfl, -⟩ := Prod.mk.inj (Except.ok.inj hpair)
  have hnone : ConnectionTable.empty.waiting = 0 := rfl
  refine ⟨⟨rfl, ?_⟩, fun _ hmem => absurd hmem List.not_mem_nil⟩
  rw [hnone]
  exact iff_of_false Bool.false_ne_true (Nat.lt_irrefl 0)

theorem Reachable.accounts {engine : Engine} (hreachable : Reachable engine) : engine.Accounts := by
  induction hreachable with
  | create hcreate => exact accounts_create hcreate
  | after _ call ih => exact ih.after call

/-- A closed engine has let go of everything. -/
theorem Reachable.isReleased {engine : Engine} (hreachable : Reachable engine)
    (hclosed : engine.closed = true) : engine.IsReleased := by
  induction hreachable with
  | create hcreate =>
    obtain ⟨-, -, -, -, -, hopen, -⟩ := create_spec hcreate
    cases hclosed.symm.trans hopen
  | @after engine _ call ih =>
    have hbecomes := engine.becomes_after call
    generalize hafter : engine.after call = after at hbecomes hclosed ⊢
    cases hbecomes with
    | idle hbefore => exact ih hbefore
    | polled hdatagrams hestablished =>
      have hreleased := ih hclosed
      exact { hreleased with
        datagrams := List.suffix_nil.mp (hreleased.datagrams ▸ hdatagrams)
        established := List.suffix_nil.mp (hreleased.established ▸ hestablished) }
    | dropped hopen => cases hopen.symm.trans hclosed
    | connected hopen hturned | received hopen _ _ hturned =>
      cases (hturned.effect.1.closed.trans hopen).symm.trans hclosed
    | elapsed hopen helapsed => cases (helapsed.closed.trans hopen).symm.trans hclosed
    | closed hopen => exact hafter ▸ released_close hopen

/-- In every engine that there is, the count is that of the connections that wait, and the timer of
    the sweep is armed exactly while it is positive. In the course of a call, a connection that
    stops to wait finds a positive count. Once closed, an engine counts nothing, its timers are
    disarmed, and its table and queues are empty, whatever is called later. -/
theorem retransmission_accounting {engine : Engine} (hreachable : Reachable engine) :
    engine.retransmitting = engine.table.waiting ∧
    (engine.isRetransmissionArmed = true ↔ 0 < engine.retransmitting) ∧
    (∀ call draining conn front rest, engine.Drains call draining conn →
      conn.outbox = front ++ .stopRetransmission :: rest →
      0 < (draining.obeyAll conn.peer conn.address front).1.retransmitting) ∧
    ∀ calls, ((engine.after .close).run calls).IsReleased := by
  have haccounts := hreachable.accounts
  obtain ⟨hcount, harmed⟩ := haccounts.counts
  refine ⟨hcount, hcount ▸ harmed, fun call draining conn front rest hdrains houtbox => ?_,
    fun calls => ?_⟩
  · obtain ⟨hstill, hreports⟩ := haccounts.drains hdrains
    exact hstill.retransmitting_pos hreports houtbox
  · have hclosed : (engine.after .close).closed = true := by
      change engine.close.1.closed = true
      unfold close
      split
      · assumption
      · rfl
    exact ((hreachable.after .close).run calls).isReleased
      (((engine.after .close).continues_run calls).closed hclosed)

/-- A sample host that connects to another counts that, until it is closed. -/
theorem exists_accounted : ∃ engine : Engine, engine.Reachable ∧
    engine.retransmitting = engine.table.waiting ∧ 0 < engine.retransmitting ∧
    engine.isRetransmissionArmed = true ∧
    ∀ calls, ((engine.after .close).run calls).IsReleased := by
  obtain ⟨engine, hreachable, -, -, conn, hfind, hawaits⟩ := SampleHost.exists_asking
  obtain ⟨hcount, harmed, -, hreleased⟩ := retransmission_accounting hreachable
  have hwaits : engine.table.waitsFor (SampleHost.identity 2).hit = true := by
    rw [ConnectionTable.waitsFor, hfind, Option.any_some, hawaits.state]
    rfl
  have hpositive : 0 < engine.retransmitting := by
    rw [hcount, ConnectionTable.waiting_eq _ (SampleHost.identity 2).hit, hwaits]
    exact Nat.succ_pos _
  exact ⟨engine, hreachable, hcount, hpositive, harmed.mpr hpositive, hreleased⟩

end Engine

end DietExchange
