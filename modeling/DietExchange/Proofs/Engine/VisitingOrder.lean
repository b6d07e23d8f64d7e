import DietExchange.Proofs.Engine.Calm
import DietExchange.Proofs.Engine.Sweeps
import DietExchange.Proofs.Engine.Waiting
import Mathlib.Data.List.Perm.Subperm

namespace DietExchange

namespace Turn

section Idle

variable {turn : Turn} (ctx : Context)

theorem endHold_withRng (turn : Turn) (rng : RandomStream) :
    (turn.withRng rng).endHold ctx = (turn.endHold ctx).withRng rng := by
  unfold endHold
  rw [conn_withRng]
  split
  · split
    · rfl
    · dsimp only
      split <;> rfl
  · rfl

theorem rng_endHold (turn : Turn) : (turn.endHold ctx).rng = turn.rng := by
  have hsame := congrArg Turn.rng (endHold_withRng ctx turn turn.rng)
  exact hsame

theorem pending_endHold (hidle : turn.conn.pending = none) : (turn.endHold ctx).conn.pending =
    none := by
  have hmove := turn.move_of_endHold ctx
  generalize (turn.endHold ctx).conn = held at hmove
  cases hmove with
  | wait => exact hidle
  | establish => simp [Connection.emit, Connection.pending_moveTo, hidle]
  | giveUp => simp [Connection.pending_moveTo, hidle]

/-- Where no puzzle is being solved there is no more to a timeout than the end of the hold. -/
theorem timeout_of_idle (hidle : turn.conn.pending = none) :
    turn.timeout ctx = (turn.endHold ctx, none) := by
  rw [timeout, solveStep, pending_endHold ctx hidle]

end Idle

end Turn

namespace Engine

variable {engine : Engine} {now : Nat} {peer : Hit} {peers : List Hit} {conn : Connection}

/-- What the passing of time makes of a connection that finds the engine as it is now. -/
def timed (engine : Engine) (now : Nat) (conn : Connection) : Turn :=
  (Turn.timeout ⟨conn, engine.rng, []⟩ (engine.context now)).1

theorem visit_of_calm (hfind : engine.table.find? peer = some conn)
    (hcalm : (engine.timed now conn).conn.IsCalm) : (engine.visit now peer).1 = { engine with
      rng := (engine.timed now conn).rng
      table := engine.table.put (engine.timed now conn).conn.settled
      datagrams := engine.datagrams ++ (engine.timed now conn).conn.outgoing
      established := engine.established ++ (engine.timed now conn).conn.completions } := by
  unfold visit
  rw [hfind]
  exact settle_of_calm { engine with rng := (engine.timed now conn).rng } hcalm

/-- Whether the connections with some peers can be visited in any order. At most one of them has its
    puzzle being solved. -/
structure Visitable (engine : Engine) (peers : List Hit) : Prop where
  nodup : peers.Nodup
  wellFormed : ∀ peer ∈ peers, ∀ conn, engine.table.find? peer = some conn → conn.WellFormed
  isCalm : ∀ peer ∈ peers, ∀ conn, engine.table.find? peer = some conn → conn.IsCalm
  oneSolver : ∀ peer ∈ peers, ∀ other ∈ peers, ∀ conn found, engine.table.find? peer = some conn →
    engine.table.find? other = some found → conn.isSolving → found.isSolving → peer = other

/-- What visits come to: the queues grow in the order of the visits, and all else is as each
    connection makes of the engine as it was before the first of them. -/
structure VisitedBy (engine after : Engine) (now : Nat) (peers : List Hit) : Prop where
  eq : after = { engine with
    rng := after.rng
    table := after.table
    datagrams := engine.datagrams ++ (peers.filterMap engine.table.find?).flatMap
      fun conn => (engine.timed now conn).conn.outgoing
    established := engine.established ++ (peers.filterMap engine.table.find?).flatMap
      fun conn => (engine.timed now conn).conn.completions }
  inTable : after.table.peers = engine.table.peers
  find : ∀ peer, after.table.find? peer =
    if peer ∈ peers then (engine.table.find? peer).map fun conn =>
      (engine.timed now conn).conn.settled
    else engine.table.find? peer
  drawn : ∀ peer ∈ peers, ∀ conn, engine.table.find? peer = some conn → conn.isSolving →
    after.rng = (engine.timed now conn).rng
  undrawn : (∀ peer ∈ peers, ∀ conn, engine.table.find? peer = some conn → conn.isSolving = false) →
    after.rng = engine.rng

theorem peer_timed (engine : Engine) (now : Nat) (conn : Connection) :
    (engine.timed now conn).conn.peer = conn.peer := peer_timeout _ _

theorem isCalm_timed (hform : conn.WellFormed) (hcalm : conn.IsCalm) :
    (engine.timed now conn).conn.IsCalm := by
  have hhold := Turn.move_of_endHold ⟨conn, engine.rng, []⟩ (engine.context now)
  exact (hcalm.move hform (.inr (.inl rfl)) hhold).move (hform.move hhold) (.inr (.inr rfl))
    (Turn.move_of_solveStep _ _)

theorem timed_of_idle (hidle : conn.isSolving = false) : engine.timed now conn =
    Turn.endHold ⟨conn, engine.rng, []⟩ (engine.context now) := by
  rw [timed, Turn.timeout_of_idle _ (Connection.isSolving_eq_false_iff.mp hidle)]

theorem rng_timed_of_idle (hidle : conn.isSolving = false) : (engine.timed now conn).rng =
    engine.rng := by
  rw [timed_of_idle hidle, Turn.rng_endHold]

/-- A connection with nothing to solve does not see what is left of the random stream. -/
theorem conn_timed_of_idle (hidle : conn.isSolving = false) (rng : RandomStream) :
    ((engine.withRng rng).timed now conn).conn = (engine.timed now conn).conn := by
  have hheld := congrArg Turn.conn
    (Turn.endHold_withRng (engine.context now) ⟨conn, engine.rng, []⟩ rng)
  rw [timed_of_idle hidle, timed_of_idle hidle]
  exact hheld

section Cons

variable {first : Hit} {rest : List Hit} (hvisitable : engine.Visitable (first :: rest))
include hvisitable

/-- The first visit spares the connections that are visited behind it. -/
theorem Visitable.find?_visit_of_mem (hmem : peer ∈ rest) :
    (engine.visit now first).1.table.find? peer = engine.table.find? peer := by
  cases hfind : engine.table.find? first with
  | none => rw [visit, hfind]
  | some conn =>
    rw [find?_visit hfind, if_neg]
    rintro rfl
    exact (List.nodup_cons.mp hvisitable.nodup).1 hmem

theorem Visitable.tail (now : Nat) : (engine.visit now first).1.Visitable rest where
  nodup := (List.nodup_cons.mp hvisitable.nodup).2
  wellFormed peer hmem conn hfind :=
    hvisitable.wellFormed peer (List.mem_cons_of_mem _ hmem) conn
      ((hvisitable.find?_visit_of_mem hmem).symm.trans hfind)
  isCalm peer hmem conn hfind :=
    hvisitable.isCalm peer (List.mem_cons_of_mem _ hmem) conn
      ((hvisitable.find?_visit_of_mem hmem).symm.trans hfind)
  oneSolver peer hmem other hother conn found hconn hfound :=
    hvisitable.oneSolver peer (List.mem_cons_of_mem _ hmem) other (List.mem_cons_of_mem _ hother)
      conn found ((hvisitable.find?_visit_of_mem hmem).symm.trans hconn)
      ((hvisitable.find?_visit_of_mem hother).symm.trans hfound)

theorem Visitable.visit_eq (now : Nat) (hfind : engine.table.find? first = some conn) :
    (engine.visit now first).1 = { engine with
      rng := (engine.timed now conn).rng
      table := engine.table.put (engine.timed now conn).conn.settled
      datagrams := engine.datagrams ++ (engine.timed now conn).conn.outgoing
      established := engine.established ++ (engine.timed now conn).conn.completions } :=
  visit_of_calm hfind (isCalm_timed (hvisitable.wellFormed first List.mem_cons_self conn hfind)
    (hvisitable.isCalm first List.mem_cons_self conn hfind))

/-- If the first connection has its puzzle being solved, those behind it have not. -/
theorem Visitable.isSolving_of_mem {other : Connection} (hmem : peer ∈ rest)
    (hfind : engine.table.find? first = some conn) (hother : engine.table.find? peer = some other)
    (hsolving : conn.isSolving) : other.isSolving = false := by
  rw [Bool.eq_false_iff]
  intro hsolves
  have hsame := hvisitable.oneSolver first List.mem_cons_self peer (List.mem_cons_of_mem _ hmem)
    conn other hfind hother hsolving hsolves
  exact (List.nodup_cons.mp hvisitable.nodup).1 (hsame ▸ hmem)

/-- The connections that are visited behind the first find the engine as it did, as far as they
    look. -/
theorem Visitable.timed_visit {other : Connection} (hmem : peer ∈ rest)
    (hother : engine.table.find? peer = some other) :
    ((engine.visit now first).1.timed now other).conn = (engine.timed now other).conn ∧
      (other.isSolving → (engine.visit now first).1.timed now other = engine.timed now other) := by
  cases hfind : engine.table.find? first with
  | none =>
    rw [show (engine.visit now first).1 = engine by rw [visit, hfind]]
    exact ⟨rfl, fun _ => rfl⟩
  | some conn =>
    have hvisit : (engine.visit now first).1.timed now other =
        (engine.withRng (engine.timed now conn).rng).timed now other := by
      rw [hvisitable.visit_eq now hfind]
      rfl
    cases hsolving : other.isSolving with
    | false =>
      refine ⟨?_, fun htrue => by cases htrue⟩
      rw [hvisit, conn_timed_of_idle hsolving]
    | true =>
      have hidle : conn.isSolving = false := by
        rw [Bool.eq_false_iff]
        intro hsolves
        cases hsolving.symm.trans (hvisitable.isSolving_of_mem hmem hfind hother hsolves)
      rw [hvisit, rng_timed_of_idle hidle]
      exact ⟨rfl, fun _ => rfl⟩

/-- So they ask for what they would have asked for without it. -/
theorem Visitable.flatMap_visit {α : Type} (told : Connection → List α) :
    (rest.filterMap (engine.visit now first).1.table.find?).flatMap
        (fun conn => told ((engine.visit now first).1.timed now conn).conn) =
      (rest.filterMap engine.table.find?).flatMap fun conn =>
        told (engine.timed now conn).conn := by
  rw [List.filterMap_congr fun peer hmem => hvisitable.find?_visit_of_mem hmem]
  apply List.flatMap_congr
  intro conn hmem
  obtain ⟨peer, hpeer, hfind⟩ := List.mem_filterMap.mp hmem
  rw [(hvisitable.timed_visit hpeer hfind).1]

theorem Visitable.cons_of_none {after : Engine} (hfind : engine.table.find? first = none)
    (hrest : engine.VisitedBy after now rest) : engine.VisitedBy after now (first :: rest) where
  eq := by
    rw [List.filterMap_cons, hfind]
    exact hrest.eq
  inTable := hrest.inTable
  find peer := by
    rw [hrest.find peer]
    by_cases hmem : peer = first
    · subst hmem
      rw [if_neg (List.nodup_cons.mp hvisitable.nodup).1, if_pos List.mem_cons_self, hfind]
      rfl
    · simp [hmem]
  drawn peer hmem conn hconn := by
    rcases List.mem_cons.mp hmem with rfl | hmem
    · cases hfind.symm.trans hconn
    · exact hrest.drawn peer hmem conn hconn
  undrawn hidle := hrest.undrawn fun peer hmem => hidle peer (List.mem_cons_of_mem _ hmem)

theorem Visitable.cons_of_some {after : Engine} (hfind : engine.table.find? first = some conn)
    (hrest : (engine.visit now first).1.VisitedBy after now rest) :
    engine.VisitedBy after now (first :: rest) := by
  have hvisit := hvisitable.visit_eq now hfind
  have hpeer : conn.peer = first := ConnectionTable.peer_of_find? hfind
  constructor
  case eq =>
    have heq := hrest.eq
    rw [hvisitable.flatMap_visit Connection.outgoing,
      hvisitable.flatMap_visit Connection.completions, hvisit] at heq
    rw [List.filterMap_cons, hfind, List.flatMap_cons, List.flatMap_cons, ← List.append_assoc,
      ← List.append_assoc]
    exact heq
  case inTable =>
    rw [hrest.inTable, hvisit]
    refine ConnectionTable.peers_put ?_
    rw [Connection.peer_settled, peer_timed, hpeer]
    exact ConnectionTable.mem_peers_of_find? hfind
  case find =>
    intro peer
    rw [hrest.find peer]
    by_cases hrestMem : peer ∈ rest
    · rw [if_pos hrestMem, if_pos (List.mem_cons_of_mem _ hrestMem),
        hvisitable.find?_visit_of_mem hrestMem]
      apply Option.map_congr
      intro other hother
      rw [(hvisitable.timed_visit hrestMem hother).1]
    · rw [if_neg hrestMem, find?_visit hfind]
      by_cases heq : first = peer
      · subst heq
        rw [if_pos rfl, if_pos List.mem_cons_self, hfind]
        rfl
      · rw [if_neg heq, if_neg (by simp [Ne.symm heq, hrestMem])]
  case drawn =>
    intro peer hmem other hother hsolving
    rcases List.mem_cons.mp hmem with rfl | hmem
    · obtain rfl := Option.some.inj (hfind.symm.trans hother)
      have hidle : ∀ later ∈ rest, ∀ found, (engine.visit now peer).1.table.find? later =
          some found → found.isSolving = false := by
        intro later hlater found hfound
        rw [hvisitable.find?_visit_of_mem hlater] at hfound
        exact hvisitable.isSolving_of_mem hlater hfind hfound hsolving
      rw [hrest.undrawn hidle, hvisit]
    · rw [hrest.drawn peer hmem other ((hvisitable.find?_visit_of_mem hmem).trans hother) hsolving,
        (hvisitable.timed_visit hmem hother).2 hsolving]
  case undrawn =>
    intro hidle
    have hlater : ∀ peer ∈ rest, ∀ found, (engine.visit now first).1.table.find? peer = some found →
        found.isSolving = false := fun peer hmem found hfound =>
      hidle peer (List.mem_cons_of_mem _ hmem) found
        ((hvisitable.find?_visit_of_mem hmem).symm.trans hfound)
    rw [hrest.undrawn hlater, hvisit]
    exact rng_timed_of_idle (hidle first List.mem_cons_self conn hfind)

end Cons

/-- Each visit makes of the engine what it would have made of it without the others. -/
theorem Visitable.visitedBy (hvisitable : engine.Visitable peers) (now : Nat) :
    engine.VisitedBy (engine.visitAll now peers).1 now peers := by
  induction peers generalizing engine with
  | nil =>
    exact ⟨by simp [visitAll], rfl, fun peer => by simp [visitAll],
      fun _ hmem => absurd hmem List.not_mem_nil, fun _ => rfl⟩
  | cons first rest ih =>
    have hrest := ih (hvisitable.tail now)
    cases hfind : engine.table.find? first with
    | none =>
      rw [show (engine.visit now first).1 = engine by rw [visit, hfind]] at hrest
      have hsame : (engine.visitAll now (first :: rest)).1 = (engine.visitAll now rest).1 := by
        change ((engine.visit now first).1.visitAll now rest).1 = _
        rw [visit, hfind]
      rw [hsame]
      exact hvisitable.cons_of_none hfind hrest
    | some conn => exact hvisitable.cons_of_some hfind hrest

/-- Whether two engines are the same but for the order of what is queued for different peers. -/
structure SameButQueues (one other : Engine) : Prop where
  eq : other = { one with datagrams := other.datagrams, established := other.established }
  datagrams : other.datagrams.Perm one.datagrams
  established : other.established.Perm one.established
  mail : ∀ peer, mailTo peer other.datagrams = mailTo peer one.datagrams
  told : ∀ peer, other.established.filter (· = peer) = one.established.filter (· = peer)

section Orders

variable {one other : Engine} {second : List Hit}

/-- Visits in two orders draw the same, and leave the same connections. -/
theorem VisitedBy.eq_of_perm (hone : engine.VisitedBy one now peers)
    (hother : engine.VisitedBy other now second) (hperm : second.Perm peers) :
    other = { one with datagrams := other.datagrams, established := other.established } := by
  have htable : other.table = one.table := by
    refine ConnectionTable.eq_of_find? (hother.inTable.trans hone.inTable.symm) fun peer => ?_
    rw [hone.find, hother.find]
    simp only [hperm.mem_iff]
  have hrng : other.rng = one.rng := by
    by_cases hsolver : ∃ peer ∈ peers, ∃ conn, engine.table.find? peer = some conn ∧ conn.isSolving
    · obtain ⟨peer, hmem, conn, hfind, hsolving⟩ := hsolver
      rw [hone.drawn peer hmem conn hfind hsolving,
        hother.drawn peer (hperm.mem_iff.mpr hmem) conn hfind hsolving]
    · have hidle : ∀ peer ∈ peers, ∀ conn, engine.table.find? peer = some conn →
          conn.isSolving = false :=
        fun peer hmem conn hfind => Bool.eq_false_iff.mpr fun hsolving =>
          hsolver ⟨peer, hmem, conn, hfind, hsolving⟩
      rw [hone.undrawn hidle, hother.undrawn fun peer hmem => hidle peer (hperm.mem_iff.mp hmem)]
  rw [hone.eq, hother.eq]
  simp only [htable, hrng]

/-- What connections ask for is the same for each peer, in whatever order they ask. -/
theorem mailTo_flatMap_of_perm {connections others : List Connection}
    (hperm : others.Perm connections) {asked : Connection → List Outgoing}
    (hnodup : (connections.map Connection.peer).Nodup)
    (hnames : ∀ conn ∈ connections, ∀ out ∈ asked conn, out.Names conn.peer) (peer : Hit) :
    mailTo peer (others.flatMap asked) = mailTo peer (connections.flatMap asked) := by
  have hothers : ∀ conn ∈ others, ∀ out ∈ asked conn, out.Names conn.peer := fun conn hmem =>
    hnames conn (hperm.mem_iff.mp hmem)
  have hpeers := hperm.map Connection.peer
  by_cases hmem : peer ∈ connections.map Connection.peer
  · obtain ⟨conn, hconn, rfl⟩ := List.mem_map.mp hmem
    rw [mailTo_flatMap_of_mem hnames hnodup hconn,
      mailTo_flatMap_of_mem hothers (hpeers.nodup_iff.mpr hnodup) (hperm.mem_iff.mpr hconn)]
  · rw [mailTo_flatMap_of_not_mem hnames hmem,
      mailTo_flatMap_of_not_mem hothers fun hother => hmem (hpeers.mem_iff.mp hother)]

theorem filter_eq_of_perm {first second : List Hit} (hperm : second.Perm first) (peer : Hit) :
    second.filter (· = peer) = first.filter (· = peer) := by
  have hcount := hperm.count_eq peer
  simp only [List.filter_eq, hcount]

theorem VisitedBy.sameButQueues (hone : engine.VisitedBy one now peers)
    (hother : engine.VisitedBy other now second) (horder : peers.Perm engine.table.peers)
    (hsecond : second.Perm engine.table.peers)
    (hnames : ∀ conn ∈ engine.table.connections,
      ∀ out ∈ (engine.timed now conn).conn.outgoing, out.Names conn.peer) :
    SameButQueues one other := by
  have hperm : second.Perm peers := hsecond.trans horder.symm
  have hfound := hperm.filterMap engine.table.find?
  have hall : (peers.filterMap engine.table.find?).Perm engine.table.connections := by
    have hconnections := horder.filterMap engine.table.find?
    rwa [ConnectionTable.filterMap_find?_peers] at hconnections
  have hestablished : other.established.Perm one.established := by
    rw [hone.eq, hother.eq]
    exact List.Perm.append_left _ (hfound.flatMap_right _)
  constructor
  case eq => exact hone.eq_of_perm hother hperm
  case datagrams =>
    rw [hone.eq, hother.eq]
    exact List.Perm.append_left _ (hfound.flatMap_right _)
  case established => exact hestablished
  case mail =>
    intro peer
    rw [hone.eq, hother.eq]
    simp only [mailTo_append]
    rw [mailTo_flatMap_of_perm hfound ((hall.map _).nodup_iff.mpr engine.table.nodup)
      fun conn hmem => hnames conn (hall.mem_iff.mp hmem)]
  case told => exact filter_eq_of_perm hestablished

end Orders

section Sweep

/-- A sweep sets its timer and changes connections where they are. -/
theorem exists_resendAll_eq (engine : Engine) (peers : List Hit) :
    ∃ table, (engine.resendAll peers).1 = { engine with table := table } ∧
      table.peers = engine.table.peers := by
  induction peers generalizing engine with
  | nil => exact ⟨engine.table, rfl, rfl⟩
  | cons first rest ih =>
    unfold resendAll
    split
    · rename_i later event hresend
      obtain ⟨conn, hfind, hretransmit⟩ := Option.bind_eq_some_iff.mp hresend
      have hlater : resent conn = later := by rw [resent, hretransmit]; rfl
      have hpeer : later.peer = first := by
        rw [← hlater, peer_resent, ConnectionTable.peer_of_find? hfind]
      obtain ⟨table, heq, hpeers⟩ := ih { engine with table := engine.table.put later }
      refine ⟨table, heq, hpeers.trans (ConnectionTable.peers_put ?_)⟩
      rw [hpeer]
      exact ConnectionTable.mem_peers_of_find? hfind
    · exact ih engine

theorem exists_sweep_eq (engine : Engine) (peers : List Hit) (now : Nat) :
    ∃ table, (engine.sweep peers now).1 = { engine with
        retransmissionTimer := (engine.retransmissionTimer.fire now).2, table := table } ∧
      table.peers = engine.table.peers := by
  unfold sweep
  dsimp only
  split
  · exact exists_resendAll_eq
      { engine with retransmissionTimer := (engine.retransmissionTimer.fire now).2 } peers
  · exact ⟨engine.table, rfl, rfl⟩

/-- In whatever order a sweep reaches the connections, it comes to the same. -/
theorem sweep_of_perm (engine : Engine) {second : List Hit} (hperm : second.Perm peers)
    (hnodup : peers.Nodup) (now : Nat) : (engine.sweep second now).1 =
      (engine.sweep peers now).1 := by
  obtain ⟨hone, -⟩ := engine.sweep_effect hnodup now
  obtain ⟨hother, -⟩ := engine.sweep_effect (hperm.nodup_iff.mpr hnodup) now
  obtain ⟨table, heq, hpeers⟩ := engine.exists_sweep_eq peers now
  obtain ⟨swept, hswept, hsweptPeers⟩ := engine.exists_sweep_eq second now
  rw [heq] at hone
  rw [hswept] at hother
  have hsame : swept = table := by
    refine ConnectionTable.eq_of_find? (hsweptPeers.trans hpeers.symm) fun peer => ?_
    have hfind := hone peer
    have hfound := hother peer
    simp only [hperm.mem_iff] at hfound
    exact hfound.trans hfind.symm
  rw [heq, hswept, hsame]

/-- The connections behind a sweep are those before it, each swept if that is due. -/
theorem mem_sweep (horder : peers.Perm engine.table.peers)
    (hmem : conn ∈ (engine.sweep peers now).1.table.connections) :
    ∃ before ∈ engine.table.connections,
      sweptIf (engine.retransmissionTimer.fire now).1 before = conn := by
  obtain ⟨hfind, -⟩ := engine.sweep_effect (horder.nodup_iff.mpr engine.table.nodup) now
  obtain ⟨table, heq, hpeers⟩ := engine.exists_sweep_eq peers now
  have hpeer : conn.peer ∈ peers := by
    rw [horder.mem_iff, ← hpeers]
    rw [heq] at hmem
    exact List.mem_map_of_mem hmem
  have hconn := ConnectionTable.find?_eq_some_iff.mpr ⟨hmem, rfl⟩
  rw [hfind, if_pos hpeer, Option.map_eq_some_iff] at hconn
  obtain ⟨before, hbefore, hswept⟩ := hconn
  exact ⟨before, (ConnectionTable.find?_eq_some_iff.mp hbefore).1, hswept⟩

theorem isSolving_sweptIf (due : Bool) (conn : Connection) :
    (sweptIf due conn).isSolving = conn.isSolving := by
  cases due with
  | false => rfl
  | true =>
    change (resent conn).isSolving = conn.isSolving
    unfold resent Connection.retransmit?
    split
    · cases conn.lastSent <;> rfl
    · rfl

end Sweep

/-- Whether at most one connection has its puzzle being solved. -/
def SolvesAtMostOne (engine : Engine) : Prop :=
  ∀ conn ∈ engine.table.connections, ∀ other ∈ engine.table.connections,
    conn.isSolving → other.isSolving → conn = other

section Timeout

variable (hform : ∀ conn ∈ engine.table.connections, conn.WellFormed)
  (houtbox : ∀ conn ∈ engine.table.connections, conn.outbox = [])
include hform houtbox

/-- The connections as a sweep leaves them can be visited in any order. -/
theorem visitable_sweep (hsolver : engine.SolvesAtMostOne) (horder : peers.Perm engine.table.peers)
    (now : Nat) : (engine.sweep peers now).1.Visitable peers := by
  have hswept : ∀ peer conn, (engine.sweep peers now).1.table.find? peer = some conn →
      ∃ before ∈ engine.table.connections,
        sweptIf (engine.retransmissionTimer.fire now).1 before = conn := fun peer conn hconn =>
    mem_sweep horder (ConnectionTable.find?_eq_some_iff.mp hconn).1
  refine ⟨horder.nodup_iff.mpr engine.table.nodup, ?_, ?_, ?_⟩
  · intro peer _ conn hconn
    obtain ⟨before, hbefore, rfl⟩ := hswept peer conn hconn
    rcases sweptIf_cases _ (engine.context now) before with hsame | hmove
    · rw [hsame]
      exact hform before hbefore
    · exact (hform before hbefore).move hmove
  · intro peer _ conn hconn
    obtain ⟨before, hbefore, rfl⟩ := hswept peer conn hconn
    have hcalm := Connection.isCalm_of_outbox (houtbox before hbefore)
    rcases sweptIf_cases _ (engine.context now) before with hsame | hmove
    · rw [hsame]
      exact hcalm
    · exact hcalm.move (hform before hbefore) (.inl rfl) hmove
  · intro peer _ other _ conn found hconn hfound hsolving hsolves
    obtain ⟨before, hbefore, rfl⟩ := hswept peer conn hconn
    obtain ⟨former, hformer, rfl⟩ := hswept other found hfound
    rw [isSolving_sweptIf] at hsolving hsolves
    obtain rfl := hsolver before hbefore former hformer hsolving hsolves
    exact (ConnectionTable.peer_of_find? hconn).symm.trans (ConnectionTable.peer_of_find? hfound)

/-- What they ask for when they see the time is for their peers. -/
theorem names_of_timed (hmarks : ∀ conn ∈ engine.table.connections, conn.Marks)
    (horder : peers.Perm engine.table.peers)
    (hmem : conn ∈ (engine.sweep peers now).1.table.connections) {out : Outgoing}
    (hout : out ∈ ((engine.sweep peers now).1.timed now conn).conn.outgoing) :
      out.Names conn.peer := by
  obtain ⟨before, hbefore, rfl⟩ := mem_sweep horder hmem
  let timed := fun conn => ((engine.sweep peers now).1.timed now conn).conn
  have hvisited : ∀ conn, ∃ rng, timed conn =
      (Turn.timeout ⟨conn, rng, []⟩ ((engine.sweep peers now).1.context now)).1.conn :=
    fun _ => ⟨(engine.sweep peers now).1.rng, rfl⟩
  have helapses := elapses_visited hvisited (engine.retransmissionTimer.fire now).1 before
  obtain ⟨stimulus, -, hmove⟩ := helapses.exists_move (hform before hbefore)
  rw [peer_sweptIf]
  exact hmove.names_of_outgoing (houtbox before hbefore) (hmarks before hbefore) out hout

/-- A sweep and the visits behind it, in one order or in another. -/
theorem sameButQueues_sweepAndVisit (hmarks : ∀ conn ∈ engine.table.connections, conn.Marks)
    (hsolver : engine.SolvesAtMostOne) {first second : List Hit}
    (hfirst : first.Perm engine.table.peers) (hsecond : second.Perm engine.table.peers)
    (now : Nat) :
    SameButQueues (engine.sweepAndVisit first now) (engine.sweepAndVisit second now) := by
  have hswept := engine.sweep_of_perm (hsecond.trans hfirst.symm)
    (hfirst.nodup_iff.mpr engine.table.nodup) now
  obtain ⟨table, heq, hpeers⟩ := engine.exists_sweep_eq first now
  have horder : (engine.sweep first now).1.table.peers = engine.table.peers := by
    rw [heq]
    exact hpeers
  have hone := (visitable_sweep hform houtbox hsolver hfirst now).visitedBy now
  have hother := (visitable_sweep hform houtbox hsolver hsecond now).visitedBy now
  rw [hswept] at hother
  rw [sweepAndVisit, sweepAndVisit, hswept]
  refine hone.sameButQueues hother (by rwa [horder]) (by rwa [horder]) fun conn hmem out hout => ?_
  exact names_of_timed hform houtbox hmarks hfirst hmem hout

end Timeout

/-- The order in which a timeout visits the connections matters for nothing but the order of what is
    queued for different peers, if at most one of them has its puzzle being solved: with two, the
    first to come would have the front of the random stream. -/
theorem handleTimeoutIn_order_irrelevant {engine : Engine} (hreachable : Reachable engine)
    (hopen : engine.closed = false) (hsolver : engine.SolvesAtMostOne) {first second : List Hit}
    (hfirst : first.Perm engine.table.peers) (hsecond : second.Perm engine.table.peers)
    (now : Nat) : (engine.handleTimeoutIn first now).result = .ok () ∧
      (engine.handleTimeoutIn second now).result = .ok () ∧
      SameButQueues (engine.handleTimeoutIn first now).engine
        (engine.handleTimeoutIn second now).engine := by
  refine ⟨result_handleTimeoutIn hopen first now, result_handleTimeoutIn hopen second now, ?_⟩
  obtain ⟨issuer, entropy, timer, hrotate, -⟩ := (engine.advance now).rotateSecret_spec now
  rw [engine_handleTimeoutIn hopen, engine_handleTimeoutIn hopen, hrotate]
  let rotated : Engine := { engine.advance now with
    issuer := issuer, entropy := entropy, rotationTimer := timer }
  have hform : ∀ conn ∈ rotated.table.connections, conn.WellFormed := fun _ => hreachable.wellFormed
  have houtbox : ∀ conn ∈ rotated.table.connections, conn.outbox = [] :=
    fun _ => hreachable.outbox_eq_nil
  exact sameButQueues_sweepAndVisit hform houtbox (fun _ => hreachable.marks) hsolver hfirst
    hsecond now

theorem perm_pair_peers {table : ConnectionTable} {near far : Hit}
    (hdistinct : near ≠ far) (hnear : (table.find? near).isSome) (hfar : (table.find? far).isSome)
    (hsize : table.connections.length ≤ 2) : [near, far].Perm table.peers := by
  have hsubset : [near, far] ⊆ table.peers := by
    simp only [List.cons_subset, List.nil_subset, and_true, ← ConnectionTable.find?_isSome_iff]
    exact ⟨hnear, hfar⟩
  have hlength : table.peers.length ≤ 2 := by
    rwa [ConnectionTable.peers, List.length_map]
  exact (List.Nodup.subperm (by simpa using hdistinct) hsubset).perm_of_length_le hlength

/-- A host that begins two handshakes waits for two R1s. -/
theorem exists_begun_twice : ∃ (engine : Engine) (near far : Hit), Reachable engine ∧
    engine.closed = false ∧ near ≠ far ∧ [near, far].Perm engine.table.peers ∧
    ∀ conn ∈ engine.table.connections, conn.AwaitsR1 := by
  obtain ⟨start, hnew⟩ := SampleHost.exists_isNew 1
  let near := (SampleHost.identity 2).hit
  let far := Hit.zero
  have hdistinct : near ≠ far := by decide +kernel
  have hnear : near ≠ start.hit := hnew.hit_eq ▸ SampleHost.distinct.symm
  have hfar : far ≠ start.hit :=
    hnew.hit_eq ▸ (by decide +kernel : Hit.zero ≠ (SampleHost.identity 1).hit)
  have hkey : start.identity.HasCurveKey := hnew.identity ▸ SampleHost.hasCurveKey 1
  have hroom := hnew.room
  -- the first of them
  let first : Call := .connect near (.ofHost 2) 0
  let begun := start.after first
  have hbegun : Reachable begun := hnew.reachable.after first
  have hcontinues := start.continues_after first
  obtain ⟨-, -, -, one, -, -, -, -, -, hone, honeAwaits, hbegunOpen, -⟩ :=
    connect_sends_i1 hnew.isOpen hnear (hnew.find?_eq_none near) (by omega) (.ofHost 2) 0
  have hcount : begun.connectionCount ≤ start.connectionCount + 1 :=
    start.connectionCount_after_le first
  obtain ⟨hnone, -⟩ := find?_run_eq_none hnew.reachable hkey hnew.isOpen
    (show ∀ call ∈ [first], call.Spares start.hit far by simpa [first, Call.Spares] using hdistinct)
    (hnew.find?_eq_none far)
  -- the second of them
  let second : Call := .connect far (.ofHost 3) 0
  let engine := begun.after second
  have hbegunRoom : begun.connectionCount < begun.config.maxConnections := by
    rw [hcontinues.config]
    omega
  obtain ⟨-, -, -, other, -, -, -, -, -, hother, hotherAwaits, hopen, -⟩ :=
    connect_sends_i1 hbegunOpen (hcontinues.hit ▸ hfar) hnone hbegunRoom (.ofHost 3) 0
  obtain ⟨later, hlater, hlaterAwaits, -⟩ := awaitsR1_run hbegun (hcontinues.identity ▸ hkey)
    hbegunOpen (show ∀ call ∈ [second], call.Spares begun.hit near by
      simpa [second, Call.Spares] using hdistinct.symm) hone honeAwaits
  have hsize : engine.connectionCount ≤ 2 := by
    have hempty : start.connectionCount = 0 := by rw [connectionCount, hnew.table]; rfl
    have hmore : engine.connectionCount ≤ begun.connectionCount + 1 :=
      begun.connectionCount_after_le second
    omega
  have horder : [near, far].Perm engine.table.peers :=
    perm_pair_peers hdistinct (Option.isSome_of_eq_some hlater) (Option.isSome_of_eq_some hother)
      hsize
  refine ⟨engine, near, far, hbegun.after second, hopen, hdistinct, horder, fun conn hmem => ?_⟩
  have hfind := ConnectionTable.find?_eq_some_iff.mpr ⟨hmem, rfl⟩
  rcases List.mem_pair.mp (horder.mem_iff.mpr (List.mem_map_of_mem hmem)) with hpeer | hpeer
  · rw [hpeer] at hfind
    exact Option.some.inj (hlater.symm.trans hfind) ▸ hlaterAwaits
  · rw [hpeer] at hfind
    exact Option.some.inj (hother.symm.trans hfind) ▸ hotherAwaits

/-- The sweep of a host that begins two handshakes, in the two orders that there are. -/
theorem exists_two_orders : ∃ (engine : Engine) (first second : List Hit) (now : Nat),
    Reachable engine ∧ engine.closed = false ∧ engine.SolvesAtMostOne ∧
    first.Perm engine.table.peers ∧ second.Perm engine.table.peers ∧ first ≠ second ∧
    engine.SweepsAt now ∧ (∀ conn ∈ engine.table.connections, conn.AwaitsAnswer) ∧
    SameButQueues (engine.handleTimeoutIn first now).engine
      (engine.handleTimeoutIn second now).engine := by
  obtain ⟨engine, near, far, hreachable, hopen, hdistinct, horder, hawaits⟩ := exists_begun_twice
  have hidle : ∀ conn ∈ engine.table.connections, conn.isSolving = false := fun conn hmem =>
    Connection.isSolving_eq_false_iff.mpr (hawaits conn hmem).pending
  have hsolver : engine.SolvesAtMostOne := fun conn hmem _ _ hsolving _ =>
    absurd hsolving (by simp [hidle conn hmem])
  have hanswers : ∀ conn ∈ engine.table.connections, conn.AwaitsAnswer := fun conn hmem =>
    .inr ⟨(hawaits conn hmem).state, hidle conn hmem⟩
  obtain ⟨conn, hmem, -⟩ := List.mem_map.mp (horder.subset List.mem_cons_self)
  have harmed : engine.isRetransmissionArmed = true :=
    hreachable.accounts.counts.2.mpr
      (List.countP_pos_iff.mpr ⟨conn, hmem, by rw [(hawaits conn hmem).state]; rfl⟩)
  obtain ⟨now, hnow⟩ := Option.isSome_iff_exists.mp harmed
  have hsweeps : engine.SweepsAt now := Timer.fire_fst.mpr ⟨now, hnow, Nat.le_refl _⟩
  have hswapped : [far, near].Perm engine.table.peers := (List.Perm.swap near far []).trans horder
  exact ⟨engine, [near, far], [far, near], now, hreachable, hopen, hsolver, horder, hswapped,
    fun heq => hdistinct (List.cons.inj heq).1, hsweeps, hanswers,
    (handleTimeoutIn_order_irrelevant hreachable hopen hsolver horder hswapped now).2.2⟩

end Engine

end DietExchange
