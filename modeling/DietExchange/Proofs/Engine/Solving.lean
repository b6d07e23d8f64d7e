import DietExchange.Proofs.Connection.Answer
import DietExchange.Proofs.Engine.Accounting
import DietExchange.Proofs.Engine.Completion

namespace DietExchange

/-! ### Steps of the search -/

namespace Connection

variable {ctx : Context} {conn : Connection}

/-- What a connection asks for when its puzzle is looked at: to send an I2 or nothing. -/
theorem Move.outbox_of_search {after : Connection} (hmove : conn.Move ctx .search after)
    (hstate : conn.state = .i1Sent) :
    (after.state = .i1Sent ∧ after.outbox = conn.outbox) ∨
    ∃ datagram, after.state = .i2Sent ∧ after.lastSent = some ⟨.i2, datagram⟩ ∧
      after.outbox = conn.outbox ++ [.transmit datagram] := by
  cases hmove with
  | rest | search | lose => exact .inl ⟨hstate, rfl⟩
  | @solve _ _ _ _ _ datagram =>
    refine .inr ⟨datagram, state_moveTo _ _, by simp [conclude, transmit], ?_⟩
    simp [conclude, moveTo, transmit, hstate, sweepSignals, State.needsRetransmission]

/-- So what it leaves tells what it asked for. -/
theorem eq_of_settled_eq {other : Context} {left right : Connection}
    (hleft : conn.Move ctx .search left) (hright : conn.Move other .search right)
    (hstate : conn.state = .i1Sent) (hsettled : left.settled = right.settled) : left = right := by
  have hstates : left.settled.state = right.settled.state := congrArg Connection.state hsettled
  have hsent : left.settled.lastSent = right.settled.lastSent :=
    congrArg Connection.lastSent hsettled
  have houtbox : left.outbox = right.outbox := by
    rcases hleft.outbox_of_search hstate with ⟨hi1, hnone⟩ | ⟨datagram, hi2, hlast, hone⟩
    · rcases hright.outbox_of_search hstate with ⟨-, hsame⟩ | ⟨_, hother, -⟩
      · rw [hnone, hsame]
      · cases hi1.symm.trans (hstates.trans hother)
    · rcases hright.outbox_of_search hstate with ⟨hother, -⟩ | ⟨found, -, hfound, hsame⟩
      · cases hi2.symm.trans (hstates.trans hother)
      · cases (hlast.symm.trans hsent).trans hfound
        rw [hone, hsame]
  calc left = { left.settled with outbox := left.outbox } := rfl
    _ = { right.settled with outbox := right.outbox } := by rw [hsettled, houtbox]
    _ = right := rfl

theorem keys_conclude (conn : Connection) (keys : KeySet) (datagram : List UInt8) :
    (conn.conclude keys datagram).keys = some keys := by
  simp [conclude]

theorem outgoing_conclude {keys : KeySet} {datagram : List UInt8} (houtbox : conn.outbox = [])
    (hstate : conn.state = .i1Sent) :
    (conn.conclude keys datagram).outgoing = [⟨conn.address, datagram⟩] := by
  simp [outgoing, conclude, moveTo, transmit, houtbox, hstate, sweepSignals,
    State.needsRetransmission, Signal.outgoing?]

end Connection

theorem Turn.endHold_of_none {turn : Turn} (hnone : turn.conn.holdUntil = none) (ctx : Context) :
    turn.endHold ctx = turn := by
  rw [endHold, hnone]

/-- Keys that were derived have the length that was asked for. -/
theorem Context.isKeyLength_of_sessionKeys {ctx : Context} {publicKey : List UInt8}
    {initiator responder : Hit} {challenge : Block} {isInitiator : Bool} {keys : KeySet}
    (haccepted : ctx.config.IsAccepted)
    (hkeys : ctx.sessionKeys publicKey initiator responder challenge isInitiator = .ok keys) :
    Config.IsKeyLength keys.initiator.integrity.length := by
  obtain ⟨secret, -, hderive⟩ := sessionKeys_eq_ok_iff.mp hkeys
  rw [(KeyDerivation.length_integrity_of_derive hderive).1]
  exact haccepted.integrity

namespace Engine

variable {engine : Engine} {peer : Hit}

/-! ### While a puzzle is being solved -/

/-- Whether the puzzle of an R1 of this peer is being solved. -/
def IsSolving (engine : Engine) (peer : Hit) : Prop :=
  ∃ conn, engine.table.find? peer = some conn ∧ conn.isSolving

/-- The engines that one becomes by calls while it solves the puzzle of this peer all the time. -/
inductive Solving (peer : Hit) (first : Engine) : Engine → Prop where
  | start (hsolving : first.IsSolving peer) : Solving peer first first
  | after {engine : Engine} (hbefore : Solving peer first engine) (call : Call)
      (hsolving : (engine.after call).IsSolving peer) : Solving peer first (engine.after call)

theorem Offers.eq_of_find? {address : Address} {conn before : Connection}
    (hoffers : engine.Offers peer address before) (hfind : engine.table.find? peer = some conn) :
    before = conn := by
  rcases hoffers with hbefore | ⟨hnone, -⟩
  · exact Option.some.inj (hbefore.symm.trans hfind)
  · cases hnone.symm.trans hfind

theorem eq_of_mem_of_peer {conn before : Connection} (hfind : engine.table.find? peer = some conn)
    (hmem : before ∈ engine.table.connections) (hpeer : before.peer = peer) : before = conn :=
  Option.some.inj ((ConnectionTable.find?_eq_some_iff.mpr ⟨hmem, hpeer⟩).symm.trans hfind)

/-- A call that leaves the connection with a peer as it is or else moves it moves that one. -/
theorem move_of_after {call : Call} {conn later : Connection}
    (hreachable : Reachable engine) (hfind : engine.table.find? peer = some conn)
    (hlater : (engine.after call).table.find? peer = some later) :
    later = conn ∨ ∃ ctx stimulus moved, later = moved.settled ∧ conn.Move ctx stimulus moved := by
  obtain ⟨hmem, hpeer⟩ := ConnectionTable.find?_eq_some_iff.mp hlater
  rcases (engine.after_spec call).connections later hmem with hold | ⟨before, moved, hmoves, rfl⟩
  · exact .inl (eq_of_mem_of_peer hfind hold hpeer)
  right
  cases hmoves with
  | connect hoffers hmove | handlePacket _ _ _ hoffers hmove =>
    have hsame := hoffers.peer_eq.symm.trans (hmove.peer_eq.symm.trans hpeer)
    obtain rfl := (hsame ▸ hoffers).eq_of_find? hfind
    exact ⟨_, _, moved, rfl, hmove⟩
  | handleTimeout hold helapses =>
    obtain rfl := eq_of_mem_of_peer hfind hold (helapses.peer_eq.symm.trans hpeer)
    obtain ⟨stimulus, -, hmove⟩ := helapses.exists_move (hreachable.wellFormed hold)
    exact ⟨_, stimulus, moved, rfl, hmove⟩

/-- As long as a puzzle is being solved it is the one that was taken up. -/
theorem Solving.works {first : Engine} {conn : Connection} {puzzle : Puzzle} {keys : KeySet}
    {echo : Option (List UInt8)} (hsolving : Solving peer first engine)
    (hreachable : Reachable first) (hfind : first.table.find? peer = some conn)
    (hworks : conn.Works puzzle keys echo) :
    engine.Reachable ∧ first.Continues engine ∧
      ∃ later, engine.table.find? peer = some later ∧ later.Works puzzle keys echo := by
  have hstep : ∀ before later : Connection, before.Works puzzle keys echo → later.isSolving →
      (later = before ∨ ∃ ctx stimulus moved, later = moved.settled ∧
        before.Move ctx stimulus moved) →
      later.Works puzzle keys echo := by
    rintro before later hbefore hstill (rfl | ⟨ctx, stimulus, moved, rfl, hmove⟩)
    · exact hbefore
    · exact (hbefore.move hmove hstill).settled
  induction hsolving with
  | start => exact ⟨hreachable, .refl first, conn, hfind, hworks⟩
  | @after engine _ call hstill ih =>
    obtain ⟨hengine, hcontinues, before, hbefore, hold⟩ := ih
    obtain ⟨later, hlater, hsolves⟩ := hstill
    exact ⟨hengine.after call, hcontinues.trans (engine.continues_after call), later, hlater,
      hstep before later hold hsolves (move_of_after hengine hbefore hlater)⟩

/-- What solving began with was valid, and is what is being solved. -/
theorem works_of_handlePacket {datagram : List UInt8} {source : Address} {now : Nat} {r1 : Packet}
    {conn later : Connection} (hparse : Packet.parse datagram = .ok r1)
    (hfind : engine.table.find? r1.sender = some conn) (hawaits : conn.AwaitsR1)
    (hlater : (engine.handlePacket datagram source now).engine.table.find? r1.sender = some later)
    (hsolving : later.isSolving) :
    ∃ puzzle keys, (engine.context (max engine.lastNow now)).validateR1 conn.host conn.peer r1 =
      .ok (puzzle, keys) ∧ later.Works puzzle keys r1.echoRequest? := by
  obtain ⟨hmem, hpeer⟩ := ConnectionTable.find?_eq_some_iff.mp hlater
  rcases (engine.after_spec (.handlePacket datagram source now)).connections later hmem with
    hold | ⟨before, moved, hmoves, rfl⟩
  · obtain rfl := eq_of_mem_of_peer hfind hold hpeer
    rw [Connection.isSolving, hawaits.pending] at hsolving
    cases hsolving
  · cases hmoves with
    | handlePacket hfound _ _ hoffers hmove =>
      obtain rfl := Except.ok.inj (hparse.symm.trans hfound)
      obtain rfl := hoffers.eq_of_find? hfind
      obtain ⟨puzzle, keys, hvalid, hworks⟩ := hawaits.works hmove hsolving
      exact ⟨puzzle, keys, hvalid, hworks.settled⟩

/-! ### The timeout in which a J is found -/

/-- The engine in the course of a timeout, when the connections with these peers have seen the
    time. -/
def midTimeout (engine : Engine) (peers front : List Hit) (now : Nat) : Engine :=
  ((((engine.advance now).rotateSecret now).1.sweep peers now).1.visitAll now front).1

/-- Whether the search for this peer comes upon this J in the course of a timeout. -/
def Finds (engine : Engine) (peers : List Hit) (now : Nat) (peer : Hit) (answer : Block) : Prop :=
  engine.closed = false ∧ ∃ front back conn pending, peers = front ++ peer :: back ∧
    (engine.midTimeout peers front now).table.find? peer = some conn ∧ conn.pending = some pending ∧
    (pending.search.step engine.config.solveBatch (engine.midTimeout peers front now).rng).answer =
      some answer

/-- Whether these datagrams, and no others for this peer, were queued since. -/
def QueuesFor (engine after : Engine) (peer : Hit) (new : List Outgoing) : Prop :=
  ∃ front back, after.datagrams = engine.datagrams ++ (front ++ new ++ back) ∧
    ∀ out ∈ front ++ back, ¬out.IsFor peer

section Visits

variable {now : Nat} {peers front back : List Hit} {conn : Connection}

theorem find?_visitAll_of_not_mem (hnodup : peers.Nodup) (hpeer : peer ∉ peers) :
    (engine.visitAll now peers).1.table.find? peer = engine.table.find? peer := by
  obtain ⟨visited, hvisits⟩ := engine.exists_visits now hnodup
  rw [hvisits.find, if_neg hpeer]

/-- What becomes of a connection is what its own visit makes of it. -/
theorem find?_visitAll_of_split (hnodup : (front ++ peer :: back).Nodup)
    (hfind : (engine.visitAll now front).1.table.find? peer = some conn) :
    (engine.visitAll now (front ++ peer :: back)).1.table.find? peer =
      some (Turn.timeout ⟨conn, (engine.visitAll now front).1.rng, []⟩
        ((engine.visitAll now front).1.context now)).1.conn.settled := by
  obtain ⟨-, hrest, -⟩ := List.nodup_append.mp hnodup
  obtain ⟨hpeer, hback⟩ := List.nodup_cons.mp hrest
  have hvisits : ((engine.visitAll now front).1.visitAll now (peer :: back)).1 =
      (((engine.visitAll now front).1.visit now peer).1.visitAll now back).1 := rfl
  rw [visitAll_append, hvisits, find?_visitAll_of_not_mem hback hpeer, find?_visit hfind,
    if_pos rfl]

/-- The sweep leaves a connection alone whose puzzle is being solved. -/
theorem find?_sweep_iff (hnodup : peers.Nodup) (hsolving : conn.isSolving) :
    (engine.sweep peers now).1.table.find? peer = some conn ↔
    engine.table.find? peer = some conn := by
  obtain ⟨swept, hswept, -, hsweptFind, -⟩ := engine.sweep_spec hnodup now
  have hfixed : ∀ before : Connection, before.isSolving ∨ (swept before).isSolving →
      swept before = before := by
    intro before heither
    rcases hswept (engine.context now) before with hsame | hmove
    · exact hsame
    · generalize swept before = resent at hmove heither
      cases hmove with
      | resend _ hidle => simp [Connection.isSolving, Connection.emit, hidle] at heither
  rw [hsweptFind]
  split
  · rw [Option.map_eq_some_iff]
    constructor
    · rintro ⟨before, hbefore, rfl⟩
      rw [hfixed before (.inr hsolving)]
      exact hbefore
    · exact fun hfind => ⟨conn, hfind, hfixed conn (.inl hsolving)⟩
  · exact Iff.rfl

/-- So it is still as it was when its turn comes. -/
theorem find?_of_midway (hnodup : (front ++ peer :: back).Nodup) (hsolving : conn.isSolving)
    (hfind : ((engine.sweep (front ++ peer :: back) now).1.visitAll now front).1.table.find? peer =
      some conn) : engine.table.find? peer = some conn := by
  obtain ⟨hpeer, hothers⟩ := List.nodup_cons.mp (List.nodup_middle.mp hnodup)
  obtain ⟨hpeerFront, -⟩ := not_or.mp (mt List.mem_append.mpr hpeer)
  have hswept : (engine.sweep (front ++ peer :: back) now).1.table.find? peer = some conn :=
    (find?_visitAll_of_not_mem hothers.of_append_left hpeerFront).symm.trans hfind
  exact (find?_sweep_iff hnodup hsolving).mp hswept

end Visits

section Finds

variable {peers : List Hit} {now : Nat} {answer : Block}

/-- What connections with other peers ask for is not for this one. -/
theorem not_isFor_of_elapses (hreachable : Reachable engine)
    (hkey : engine.identity.HasCurveKey) {ctx : Context}
    (hidentity : ctx.identity = engine.identity) {elapsed : Connection → Connection}
    (helapses : ∀ conn : Connection, conn.Elapses ctx (elapsed conn)) (hpeer : peer ∉ peers)
    {out : Outgoing} (hout : out ∈ (peers.filterMap engine.table.find?).flatMap fun conn =>
      (elapsed conn).outgoing) : ¬out.IsFor peer := by
  intro hfor
  obtain ⟨conn, hconn, hsent⟩ := List.mem_flatMap.mp hout
  obtain ⟨other, hother, hfind⟩ := List.mem_filterMap.mp hconn
  obtain ⟨hmem, rfl⟩ := ConnectionTable.find?_eq_some_iff.mp hfind
  have hsame :=
    (hreachable.kept hkey hmem).peer_of_elapses hidentity hkey (helapses conn) hsent hfor
  exact hpeer (hsame ▸ hother)

/-- What the sweep and the visits queue for a peer whose puzzle is being solved is what the step of
    its search asks for. -/
theorem queuesFor_sweepAndVisit {other : Engine} {front back : List Hit} {ctx : Context}
    {conn done : Connection} {pending : PendingAnswer} (hreachable : Reachable engine)
    (hkey : engine.identity.HasCurveKey) (hidentity : other.identity = engine.identity)
    (htable : other.table = engine.table) (horder : (front ++ peer :: back).Perm engine.table.peers)
    (hfind : engine.table.find? peer = some conn) (hpending : conn.pending = some pending)
    (hmove : conn.Move ctx .search done)
    (hvisited : (other.sweepAndVisit (front ++ peer :: back) now).table.find? peer =
      some done.settled) :
    other.QueuesFor (other.sweepAndVisit (front ++ peer :: back) now) peer done.outgoing := by
  have hform := hreachable.wellFormed (ConnectionTable.find?_eq_some_iff.mp hfind).1
  obtain ⟨hsame, elapsed, helapses, hafter, hdatagrams, -⟩ :=
    other.sweepAndVisit_spec (htable ▸ horder) now
  have hsettled : (elapsed conn).settled = done.settled := by
    rw [hafter, htable, hfind] at hvisited
    exact Option.some.inj hvisited
  have helapsed : elapsed conn = done :=
    Connection.eq_of_settled_eq ((helapses conn).of_solving hform hpending) hmove
      (hform.pending pending hpending).1 hsettled
  refine ⟨(front.filterMap engine.table.find?).flatMap fun conn => (elapsed conn).outgoing,
    (back.filterMap engine.table.find?).flatMap fun conn => (elapsed conn).outgoing, ?_, ?_⟩
  · rw [hdatagrams, htable, List.filterMap_append, List.filterMap_cons, hfind, List.flatMap_append,
      List.flatMap_cons, helapsed, List.append_assoc]
  · intro out hmem
    have hnodup : (front ++ peer :: back).Nodup := horder.nodup_iff.mpr engine.table.nodup
    obtain ⟨hpeer, -⟩ := List.nodup_cons.mp (List.nodup_middle.mp hnodup)
    obtain ⟨hpeerFront, hpeerBack⟩ := not_or.mp (mt List.mem_append.mpr hpeer)
    have hours := hsame.identity.trans hidentity
    rcases List.mem_append.mp hmem with hout | hout
    · exact not_isFor_of_elapses hreachable hkey hours helapses hpeerFront hout
    · exact not_isFor_of_elapses hreachable hkey hours helapses hpeerBack hout

/-- The timeout whose search comes upon a J makes of the connection what that step of the search
    makes of it, and queues what the step asks for. -/
theorem handleTimeoutIn_of_finds (hreachable : Reachable engine)
    (hkey : engine.identity.HasCurveKey) (horder : peers.Perm engine.table.peers)
    (hfinds : engine.Finds peers now peer answer) :
    ∃ (ctx : Context) (turn : Turn) (pending : PendingAnswer), ctx.config = engine.config ∧
      ctx.identity = engine.identity ∧ engine.table.find? peer = some turn.conn ∧
      turn.conn.pending = some pending ∧
      (pending.search.step ctx.config.solveBatch turn.rng).answer = some answer ∧
      (engine.handleTimeoutIn peers now).engine.table.find? peer =
        some (turn.solveStep ctx).1.conn.settled ∧
      engine.QueuesFor (engine.handleTimeoutIn peers now).engine peer
        (turn.solveStep ctx).1.conn.outgoing := by
  obtain ⟨hopen, front, back, conn, pending, rfl, hfind, hpending, hanswer⟩ := hfinds
  obtain ⟨issuer, entropy, timer, hrotate, -⟩ := (engine.advance now).rotateSecret_spec now
  rw [engine_handleTimeoutIn hopen]
  unfold midTimeout at hfind hanswer
  generalize ((engine.advance now).rotateSecret now).1 = rotated at hrotate hfind hanswer ⊢
  have hrotated : rotated.config = engine.config ∧ rotated.identity = engine.identity ∧
      rotated.table = engine.table ∧ rotated.datagrams = engine.datagrams := by
    rw [hrotate]
    exact ⟨rfl, rfl, rfl, rfl⟩
  obtain ⟨hconfig, hidentity, htable, hqueue⟩ := hrotated
  have hnodup : (front ++ peer :: back).Nodup := horder.nodup_iff.mpr engine.table.nodup
  let middle := ((rotated.sweep (front ++ peer :: back) now).1.visitAll now front).1
  let turn : Turn := ⟨conn, middle.rng, []⟩
  -- The connection is still as it was when its turn comes.
  have hbefore : engine.table.find? peer = some conn := by
    rw [← htable]
    exact find?_of_midway hnodup (by rw [Connection.isSolving, hpending]; rfl) hfind
  have hform := hreachable.wellFormed (ConnectionTable.find?_eq_some_iff.mp hbefore).1
  have hhold : conn.holdUntil = none := by
    rw [← Option.not_isSome_iff_eq_none, hform.hold, (hform.pending pending hpending).1]
    exact State.noConfusion
  -- Its visit is the step of the search, and nothing else happens to it.
  have hvisited : (rotated.sweepAndVisit (front ++ peer :: back) now).table.find? peer =
      some (turn.solveStep (middle.context now)).1.conn.settled := by
    rw [sweepAndVisit, find?_visitAll_of_split hnodup hfind, Turn.timeout,
      Turn.endHold_of_none hhold]
  have hqueues := queuesFor_sweepAndVisit hreachable hkey hidentity htable horder hbefore hpending
    (turn.move_of_solveStep _) hvisited
  have hmiddle := (rotated.continues_sweep (front ++ peer :: back) now).trans
    (continues_visitAll _ now front)
  have hours : middle.config = engine.config := hmiddle.config.trans hconfig
  refine ⟨middle.context now, turn, pending, hours, hmiddle.identity.trans hidentity, hbefore,
    hpending, ?_, hvisited, ?_⟩
  · rw [show (middle.context now).config = engine.config from hours]
    exact hanswer
  · rwa [QueuesFor, hqueue] at hqueues

/-- A puzzle of complexity 0 is solved in the next timeout. -/
theorem exists_finds (hopen : engine.closed = false) (horder : peers.Perm engine.table.peers)
    (hbatch : 0 < engine.config.solveBatch) {conn : Connection} {puzzle : Puzzle} {keys : KeySet}
    {echo : Option (List UInt8)} (hfind : engine.table.find? peer = some conn)
    (hworks : conn.Works puzzle keys echo) (hzero : puzzle.k = 0) (now : Nat) :
    ∃ answer, engine.Finds peers now peer answer := by
  obtain ⟨search, hfor, hpending⟩ := hworks.pending
  have hmem : peer ∈ peers := by
    rw [horder.mem_iff, ← ConnectionTable.find?_isSome_iff, hfind]
    rfl
  obtain ⟨front, back, rfl⟩ := List.append_of_mem hmem
  have hnodup : (front ++ peer :: back).Nodup := horder.nodup_iff.mpr engine.table.nodup
  obtain ⟨hpeer, hothers⟩ := List.nodup_cons.mp (List.nodup_middle.mp hnodup)
  have hpeerFront : peer ∉ front := mt (List.mem_append_left back) hpeer
  obtain ⟨answer, hanswer⟩ := PuzzleSearch.exists_answer_of_k_eq_zero (hfor.k.trans hzero) hbatch
    (engine.midTimeout (front ++ peer :: back) front now).rng
  refine ⟨answer, hopen, front, back, conn, _, rfl, ?_, hpending, hanswer⟩
  obtain ⟨issuer, entropy, timer, hrotate, -⟩ := (engine.advance now).rotateSecret_spec now
  rw [midTimeout, find?_visitAll_of_not_mem hothers.of_append_left hpeerFront,
    find?_sweep_iff hnodup (Connection.isSolving_of_works hworks), hrotate]
  exact hfind

end Finds

end Engine

end DietExchange
