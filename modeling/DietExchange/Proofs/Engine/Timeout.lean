import DietExchange.Proofs.Engine.Effect

namespace DietExchange.Engine

/-- The connection as the sweep leaves it. -/
def resent (conn : Connection) : Connection := (conn.retransmit?.map Prod.fst).getD conn

theorem resent_cases (ctx : Context) (conn : Connection) :
    resent conn = conn ∨ conn.Move ctx .sweep (resent conn) := by
  unfold resent
  cases hresend : conn.retransmit? with
  | none => exact .inl rfl
  | some pair =>
    obtain ⟨later, event⟩ := pair
    exact .inr (Connection.move_of_retransmit? ctx hresend)

theorem peer_resent (conn : Connection) : (resent conn).peer = conn.peer := by
  unfold resent Connection.retransmit?
  split
  · cases conn.lastSent <;> rfl
  · rfl

/-- The sweep changes the outbox of each connection that it reaches and nothing else. -/
theorem resendAll_spec (engine : Engine) {peers : List Hit} (hnodup : peers.Nodup) :
    (∀ peer, (engine.resendAll peers).1.table.find? peer =
      if peer ∈ peers then (engine.table.find? peer).map resent else engine.table.find? peer) ∧
    SameHost engine (engine.resendAll peers).1 ∧
    (engine.resendAll peers).1.datagrams = engine.datagrams ∧
    (engine.resendAll peers).1.established = engine.established := by
  induction peers generalizing engine with
  | nil => exact ⟨fun peer => by simp [resendAll], .refl engine, rfl, rfl⟩
  | cons first rest ih =>
    obtain ⟨hfirst, hrest⟩ := List.nodup_cons.mp hnodup
    unfold resendAll
    split
    · rename_i later event hresend
      obtain ⟨conn, hfind, hretransmit⟩ := Option.bind_eq_some_iff.mp hresend
      have hpeer : conn.peer = first := ConnectionTable.peer_of_find? hfind
      have hlater : resent conn = later := by rw [resent, hretransmit]; rfl
      have hlaterPeer : later.peer = first := by rw [← hlater, peer_resent, hpeer]
      obtain ⟨hother, hsame, hdatagrams, hestablished⟩ :=
        ih { engine with table := engine.table.put later } hrest
      have hstored : SameHost engine { engine with table := engine.table.put later } :=
        ⟨rfl, rfl, rfl, rfl, rfl, rfl⟩
      refine ⟨fun peer => ?_, hstored.trans hsame, hdatagrams, hestablished⟩
      have hput := ConnectionTable.find?_put engine.table later peer
      by_cases hmem : peer = first
      · subst hmem
        rw [if_pos hlaterPeer] at hput
        have hnew := hother peer
        rw [if_neg hfirst] at hnew
        rw [if_pos List.mem_cons_self, hfind, Option.map_some, hlater]
        exact hnew.trans hput
      · rw [if_neg fun heq => hmem (heq.symm.trans hlaterPeer)] at hput
        have hnew := hother peer
        rw [hput] at hnew
        simpa [hmem] using hnew
    · rename_i hquiet
      obtain ⟨hother, hsame⟩ := ih engine hrest
      refine ⟨fun peer => ?_, hsame⟩
      rw [hother peer]
      by_cases hmem : peer = first
      · subst hmem
        rw [if_neg hfirst, if_pos List.mem_cons_self]
        cases hfind : engine.table.find? peer with
        | none => rfl
        | some conn =>
          rw [hfind, Option.bind_some] at hquiet
          rw [Option.map_some, resent, hquiet]
          rfl
      · simp [hmem]

/-- The connection as the sweep leaves it, which may be due or not. -/
def sweptIf (due : Bool) (conn : Connection) : Connection := if due then resent conn else conn

theorem sweptIf_cases (due : Bool) (ctx : Context) (conn : Connection) :
    sweptIf due conn = conn ∨ conn.Move ctx .sweep (sweptIf due conn) := by
  cases due with
  | true => exact resent_cases ctx conn
  | false => exact .inl rfl

theorem peer_sweptIf (due : Bool) (conn : Connection) : (sweptIf due conn).peer = conn.peer := by
  cases due with
  | true => exact peer_resent conn
  | false => rfl

/-- The sweep puts every connection that it reaches in its place as the timer says. -/
theorem sweep_effect (engine : Engine) {peers : List Hit} (hnodup : peers.Nodup) (now : Nat) :
    (∀ peer, (engine.sweep peers now).1.table.find? peer =
      if peer ∈ peers then
        (engine.table.find? peer).map (sweptIf (engine.retransmissionTimer.fire now).1)
      else engine.table.find? peer) ∧
    SameHost engine (engine.sweep peers now).1 ∧
    (engine.sweep peers now).1.datagrams = engine.datagrams ∧
    (engine.sweep peers now).1.established = engine.established := by
  unfold sweep
  dsimp only
  cases (engine.retransmissionTimer.fire now).1 with
  | true =>
    obtain ⟨hfind, hsame, hqueues⟩ := resendAll_spec
      { engine with retransmissionTimer := (engine.retransmissionTimer.fire now).2 } hnodup
    have hfired : SameHost engine
        { engine with retransmissionTimer := (engine.retransmissionTimer.fire now).2 } :=
      ⟨rfl, rfl, rfl, rfl, rfl, rfl⟩
    exact ⟨hfind, hfired.trans hsame, hqueues⟩
  | false =>
    refine ⟨fun peer => ?_, ⟨rfl, rfl, rfl, rfl, rfl, rfl⟩, rfl, rfl⟩
    change engine.table.find? peer = _
    rw [show sweptIf false = id from rfl, Option.map_id, id, ite_self]

theorem sweep_spec (engine : Engine) {peers : List Hit} (hnodup : peers.Nodup) (now : Nat) :
    ∃ swept : Connection → Connection,
      (∀ ctx conn, swept conn = conn ∨ conn.Move ctx .sweep (swept conn)) ∧
      (∀ conn, (swept conn).peer = conn.peer) ∧
      (∀ peer, (engine.sweep peers now).1.table.find? peer =
        if peer ∈ peers then (engine.table.find? peer).map swept else engine.table.find? peer) ∧
      SameHost engine (engine.sweep peers now).1 ∧
      (engine.sweep peers now).1.datagrams = engine.datagrams ∧
      (engine.sweep peers now).1.established = engine.established :=
  ⟨_, sweptIf_cases _, peer_sweptIf _, engine.sweep_effect hnodup now⟩

theorem peer_timeout (turn : Turn) (ctx : Context) : (turn.timeout ctx).1.conn.peer =
    turn.conn.peer :=
  (Turn.move_of_solveStep _ ctx).peer_eq.trans (turn.move_of_endHold ctx).peer_eq

/-- The connection that is visited is put in its place with what it asks for done. -/
theorem visit_eq {engine : Engine} {peer : Hit} {conn : Connection}
    (hfind : engine.table.find? peer = some conn) (now : Nat) :
    ∃ turn count timer, turn = (Turn.timeout ⟨conn, engine.rng, []⟩ (engine.context now)).1 ∧
      (engine.visit now peer).1 = { engine with
        rng := turn.rng
        table := engine.table.put turn.conn.settled
        datagrams := engine.datagrams ++ turn.conn.outgoing
        established := engine.established ++ turn.conn.completions
        retransmitting := count
        retransmissionTimer := timer } := by
  let turn := (Turn.timeout ⟨conn, engine.rng, []⟩ (engine.context now)).1
  obtain ⟨count, timer, hsettle⟩ := settle_eq { engine with rng := turn.rng } turn.conn
  refine ⟨turn, count, timer, rfl, ?_⟩
  unfold visit
  rw [hfind]
  exact hsettle

theorem find?_visit {engine : Engine} {first : Hit} {conn : Connection}
    (hfind : engine.table.find? first = some conn) (now : Nat) (peer : Hit) :
    (engine.visit now first).1.table.find? peer =
      if first = peer then
        some (Turn.timeout ⟨conn, engine.rng, []⟩ (engine.context now)).1.conn.settled
      else engine.table.find? peer := by
  obtain ⟨turn, count, timer, hturn, hvisit⟩ := visit_eq hfind now
  have hpeer : turn.conn.settled.peer = first := by
    rw [show turn.conn.settled.peer = turn.conn.peer from rfl, hturn, peer_timeout]
    exact ConnectionTable.peer_of_find? hfind
  rw [hvisit, ← hturn]
  refine (ConnectionTable.find?_put _ _ _).trans ?_
  rw [hpeer]

/-- The engine after some peers were visited, given what that made of each connection. The random
    stream that a connection finds depends on those before it. -/
structure Visits (engine after : Engine) (now : Nat) (peers : List Hit)
    (visited : Connection → Connection) : Prop where
  turn : ∀ conn, ∃ rng, visited conn = (Turn.timeout ⟨conn, rng, []⟩ (engine.context now)).1.conn
  find : ∀ peer, after.table.find? peer =
    if peer ∈ peers then (engine.table.find? peer).map fun conn => (visited conn).settled
    else engine.table.find? peer
  same : SameHost engine after
  datagrams : after.datagrams = engine.datagrams ++
    (peers.filterMap engine.table.find?).flatMap (fun conn => (visited conn).outgoing)
  established : after.established = engine.established ++
    (peers.filterMap engine.table.find?).flatMap (fun conn => (visited conn).completions)

theorem visits_nil (engine : Engine) (now : Nat) : engine.Visits engine now []
    fun conn => (Turn.timeout ⟨conn, engine.rng, []⟩ (engine.context now)).1.conn where
  turn _ := ⟨_, rfl⟩
  find _ := by simp
  same := .refl engine
  datagrams := by simp
  established := by simp

/-- A peer that there is no connection with is passed over. -/
theorem Visits.cons_of_none {engine after : Engine} {now : Nat} {first : Hit} {rest : List Hit}
    {visited : Connection → Connection} (hfirst : first ∉ rest)
    (hfind : engine.table.find? first = none) (hvisits : engine.Visits after now rest visited) :
    engine.Visits after now (first :: rest) visited where
  turn := hvisits.turn
  find peer := by
    rw [hvisits.find peer]
    by_cases hmem : peer = first
    · subst hmem
      rw [if_neg hfirst, if_pos List.mem_cons_self, hfind]
      rfl
    · simp [hmem]
  same := hvisits.same
  datagrams := by rw [List.filterMap_cons, hfind, hvisits.datagrams]
  established := by rw [List.filterMap_cons, hfind, hvisits.established]

/-- The first connection is visited with the stream as it is, the others as in the rest. -/
def visitFirst (engine : Engine) (now : Nat) (first : Hit) (visited : Connection → Connection)
    (conn : Connection) : Connection :=
  if conn.peer = first then (Turn.timeout ⟨conn, engine.rng, []⟩ (engine.context now)).1.conn
  else visited conn

section VisitFirst

variable {engine : Engine} {now : Nat} {first : Hit} {rest : List Hit}
  {visited : Connection → Connection}

theorem visitFirst_of_mem (hfirst : first ∉ rest) {peer : Hit} (hmem : peer ∈ rest)
    {conn : Connection} (hfind : engine.table.find? peer = some conn) :
    engine.visitFirst now first visited conn = visited conn := by
  have hpeer : conn.peer = peer := ConnectionTable.peer_of_find? hfind
  apply if_neg
  intro heq
  rw [← heq, hpeer] at hfirst
  exact hfirst hmem

/-- The first visit leaves the other connections as they are. -/
theorem filterMap_find?_visit (hfirst : first ∉ rest) {conn : Connection}
    (hfind : engine.table.find? first = some conn) :
    rest.filterMap (engine.visit now first).1.table.find? = rest.filterMap engine.table.find? := by
  apply List.filterMap_congr
  intro peer hmem
  rw [find?_visit hfind, if_neg]
  rintro rfl
  exact hfirst hmem

/-- What is asked for by all is what the first asks for and then what the rest do. -/
theorem flatMap_visitFirst {α : Type} (told : Connection → List α) (hfirst : first ∉ rest)
    {conn : Connection} (hfind : engine.table.find? first = some conn) :
    ((first :: rest).filterMap engine.table.find?).flatMap
      (fun conn => told (engine.visitFirst now first visited conn)) =
    told (Turn.timeout ⟨conn, engine.rng, []⟩ (engine.context now)).1.conn ++
      (rest.filterMap (engine.visit now first).1.table.find?).flatMap
        (fun conn => told (visited conn)) := by
  have hpeer : conn.peer = first := ConnectionTable.peer_of_find? hfind
  have hjoined : engine.visitFirst now first visited conn =
      (Turn.timeout ⟨conn, engine.rng, []⟩ (engine.context now)).1.conn := if_pos hpeer
  rw [filterMap_find?_visit hfirst hfind, List.filterMap_cons, hfind, List.flatMap_cons, hjoined]
  congr 1
  apply List.flatMap_congr
  intro other hmem
  obtain ⟨peer, hpeerMem, hpeerFind⟩ := List.mem_filterMap.mp hmem
  rw [visitFirst_of_mem hfirst hpeerMem hpeerFind]

theorem Visits.cons_of_some {after : Engine} (hfirst : first ∉ rest) {conn : Connection}
    (hfind : engine.table.find? first = some conn)
    (hvisits : (engine.visit now first).1.Visits after now rest visited) :
    engine.Visits after now (first :: rest) (engine.visitFirst now first visited) := by
  have hpeer : conn.peer = first := ConnectionTable.peer_of_find? hfind
  obtain ⟨turn, count, timer, hturn, hvisit⟩ := visit_eq hfind now
  have hsame : SameHost engine (engine.visit now first).1 := by
    rw [hvisit]
    exact ⟨rfl, rfl, rfl, rfl, rfl, rfl⟩
  constructor
  case turn =>
    intro other
    by_cases hother : other.peer = first
    · exact ⟨engine.rng, if_pos hother⟩
    · obtain ⟨rng, hrng⟩ := hvisits.turn other
      rw [hsame.context_eq] at hrng
      exact ⟨rng, (if_neg hother).trans hrng⟩
  case find =>
    intro peer
    rw [hvisits.find peer, find?_visit hfind]
    by_cases hmem : first = peer
    · subst hmem
      rw [if_neg hfirst, if_pos rfl, if_pos List.mem_cons_self, hfind, Option.map_some, visitFirst,
        if_pos hpeer]
    · rw [if_neg hmem]
      by_cases hrest : peer ∈ rest
      · rw [if_pos hrest, if_pos (List.mem_cons_of_mem _ hrest)]
        apply Option.map_congr
        intro other hother
        rw [visitFirst_of_mem hfirst hrest hother]
      · rw [if_neg hrest, if_neg (by simp [Ne.symm hmem, hrest])]
  case same => exact hsame.trans hvisits.same
  case datagrams =>
    rw [hvisits.datagrams, flatMap_visitFirst Connection.outgoing hfirst hfind, hvisit,
      List.append_assoc, hturn]
  case established =>
    rw [hvisits.established, flatMap_visitFirst Connection.completions hfirst hfind, hvisit,
      List.append_assoc, hturn]

end VisitFirst

/-- Each connection that is visited sees the time on its own. -/
theorem exists_visits (engine : Engine) (now : Nat) {peers : List Hit} (hnodup : peers.Nodup) :
    ∃ visited, engine.Visits (engine.visitAll now peers).1 now peers visited := by
  induction peers generalizing engine with
  | nil => exact ⟨_, engine.visits_nil now⟩
  | cons first rest ih =>
    obtain ⟨hfirst, hrest⟩ := List.nodup_cons.mp hnodup
    have hvisitAll : (engine.visitAll now (first :: rest)).1 =
        ((engine.visit now first).1.visitAll now rest).1 := rfl
    obtain ⟨visited, hvisits⟩ := ih (engine.visit now first).1 hrest
    rw [← hvisitAll] at hvisits
    cases hfind : engine.table.find? first with
    | none =>
      have hvisit : (engine.visit now first).1 = engine := by rw [visit, hfind]
      rw [hvisit] at hvisits
      exact ⟨visited, hvisits.cons_of_none hfirst hfind⟩
    | some conn => exact ⟨_, hvisits.cons_of_some hfirst hfind⟩

/-- The engine after a timeout at `now`, given the order in which the connections saw the time and
    what it made of each of them. -/
structure Elapsed (engine after : Engine) (now : Nat) (visited : List Connection)
    (elapsed : Connection → Connection) : Prop where
  config : after.config = engine.config
  identity : after.identity = engine.identity
  closed : after.closed = engine.closed
  lastNow : after.lastNow = max engine.lastNow now
  /-- The secrets stay or are rotated once. -/
  issuer : after.issuer = engine.issuer ∨ ∃ secret, after.issuer = { engine.issuer with
    window := engine.issuer.window.push secret
    generation := engine.issuer.generation + 1 }
  elapses : ∀ conn : Connection, conn.Elapses (after.context now) (elapsed conn)
  find : ∀ peer, after.table.find? peer =
    (engine.table.find? peer).map fun conn => (elapsed conn).settled
  perm : visited.Perm engine.table.connections
  datagrams : after.datagrams = engine.datagrams ++ visited.flatMap fun conn =>
    (elapsed conn).outgoing
  established : after.established = engine.established ++
    visited.flatMap fun conn => (elapsed conn).completions

theorem rotateSecret_spec (engine : Engine) (now : Nat) :
    ∃ issuer entropy timer, (engine.rotateSecret now).1 = { engine with
        issuer := issuer, entropy := entropy, rotationTimer := timer } ∧
      (issuer = engine.issuer ∨ ∃ secret, issuer = { engine.issuer with
        window := engine.issuer.window.push secret
        generation := engine.issuer.generation + 1 }) := by
  unfold rotateSecret
  dsimp only
  split
  · unfold PuzzleIssuer.rotate
    cases PuzzleIssuer.freshSecret engine.entropy with
    | mk drawn entropy =>
      cases drawn with
      | ok secret => exact ⟨_, _, _, rfl, .inr ⟨secret, rfl⟩⟩
      | error => exact ⟨_, _, _, rfl, .inl rfl⟩
  · exact ⟨_, _, _, rfl, .inl rfl⟩

/-- The sweep and then the visits, over the peers in this order. -/
def sweepAndVisit (engine : Engine) (peers : List Hit) (now : Nat) : Engine :=
  ((engine.sweep peers now).1.visitAll now peers).1

/-- In whatever order the peers come, each connection is swept if that is due, and then sees the
    time. The random stream that it finds then depends on those before it. -/
theorem sweepAndVisit_effect (engine : Engine) {peers : List Hit}
    (horder : peers.Perm engine.table.peers) (now : Nat) :
    let due := (engine.retransmissionTimer.fire now).1
    SameHost engine (engine.sweepAndVisit peers now) ∧ ∃ visited : Connection → Connection,
      (∀ conn, ∃ rng, visited conn =
        (Turn.timeout ⟨conn, rng, []⟩ ((engine.sweepAndVisit peers now).context now)).1.conn) ∧
      (∀ peer, (engine.sweepAndVisit peers now).table.find? peer =
        (engine.table.find? peer).map fun conn => (visited (sweptIf due conn)).settled) ∧
      (engine.sweepAndVisit peers now).datagrams = engine.datagrams ++
        (peers.filterMap engine.table.find?).flatMap
          (fun conn => (visited (sweptIf due conn)).outgoing) ∧
      (engine.sweepAndVisit peers now).established = engine.established ++
        (peers.filterMap engine.table.find?).flatMap
          (fun conn => (visited (sweptIf due conn)).completions) := by
  intro due
  have hnodup : peers.Nodup := horder.nodup_iff.mpr engine.table.nodup
  have hnone : ∀ peer, peer ∉ peers → engine.table.find? peer = none := by
    intro peer hmem
    exact ConnectionTable.find?_eq_none_of_not_mem fun hpeer => hmem (horder.mem_iff.mpr hpeer)
  obtain ⟨hsweptFind, hsweptSame, hsweptDatagrams, hsweptEstablished⟩ :=
    engine.sweep_effect hnodup now
  obtain ⟨visited, hvisits⟩ := (engine.sweep peers now).1.exists_visits now hnodup
  have hsweptAll : ∀ peer, (engine.sweep peers now).1.table.find? peer =
      (engine.table.find? peer).map (sweptIf due) := by
    intro peer
    rw [hsweptFind peer]
    split
    · rfl
    · rename_i hmem
      rw [hnone peer hmem, Option.map_none]
  have hconnections : peers.filterMap (engine.sweep peers now).1.table.find? =
      (peers.filterMap engine.table.find?).map (sweptIf due) := by
    rw [List.map_filterMap]
    exact List.filterMap_congr fun peer _ => hsweptAll peer
  refine ⟨hsweptSame.trans hvisits.same, visited, ?_, ?_, ?_, ?_⟩
  · intro conn
    rw [sweepAndVisit, hvisits.same.context_eq]
    exact hvisits.turn conn
  · intro peer
    rw [sweepAndVisit, hvisits.find peer, hsweptAll peer, Option.map_map]
    split
    · rfl
    · rename_i hmem
      rw [hnone peer hmem, Option.map_none, Option.map_none]
  · rw [sweepAndVisit, hvisits.datagrams, hconnections, hsweptDatagrams, List.flatMap_map]
  · rw [sweepAndVisit, hvisits.established, hconnections, hsweptEstablished, List.flatMap_map]

/-- A connection that is swept, if that is due, and then sees the time elapses. -/
theorem elapses_visited {ctx : Context} {visited : Connection → Connection}
    (hvisited : ∀ conn, ∃ rng, visited conn = (Turn.timeout ⟨conn, rng, []⟩ ctx).1.conn)
    (due : Bool) (conn : Connection) : conn.Elapses ctx (visited (sweptIf due conn)) := by
  obtain ⟨rng, hrng⟩ := hvisited (sweptIf due conn)
  refine ⟨sweptIf due conn, _, sweptIf_cases due ctx conn,
    Turn.move_of_endHold ⟨_, rng, []⟩ ctx, ?_⟩
  rw [hrng]
  exact Turn.move_of_solveStep _ _

/-- So what becomes of each connection is its own affair. -/
theorem sweepAndVisit_spec (engine : Engine) {peers : List Hit}
    (horder : peers.Perm engine.table.peers) (now : Nat) :
    SameHost engine (engine.sweepAndVisit peers now) ∧ ∃ elapsed : Connection → Connection,
      (∀ conn : Connection, conn.Elapses ((engine.sweepAndVisit peers now).context now)
        (elapsed conn)) ∧ (∀ peer, (engine.sweepAndVisit peers now).table.find? peer =
        (engine.table.find? peer).map fun conn => (elapsed conn).settled) ∧
      (engine.sweepAndVisit peers now).datagrams = engine.datagrams ++
        (peers.filterMap engine.table.find?).flatMap (fun conn => (elapsed conn).outgoing) ∧
      (engine.sweepAndVisit peers now).established = engine.established ++
        (peers.filterMap engine.table.find?).flatMap (fun conn => (elapsed conn).completions) := by
  obtain ⟨hsame, visited, hvisited, heffect⟩ := engine.sweepAndVisit_effect horder now
  exact ⟨hsame, _, elapses_visited hvisited _, heffect⟩

theorem engine_handleTimeoutIn {engine : Engine} (hopen : engine.closed = false) (peers : List Hit)
    (now : Nat) : (engine.handleTimeoutIn peers now).engine =
      ((engine.advance now).rotateSecret now).1.sweepAndVisit peers now := by
  unfold handleTimeoutIn sweepAndVisit
  rw [hopen, if_neg Bool.false_ne_true]

/-- A timeout has each connection swept, if that is due, and then see the time, whatever becomes of
    the puzzle secret. -/
theorem handleTimeoutIn_effect {engine : Engine} (hopen : engine.closed = false) {peers : List Hit}
    (horder : peers.Perm engine.table.peers) (now : Nat) :
    let due := (engine.retransmissionTimer.fire now).1
    let after := (engine.handleTimeoutIn peers now).engine
    ∃ visited : Connection → Connection,
      (∀ conn, ∃ rng, visited conn = (Turn.timeout ⟨conn, rng, []⟩ (after.context now)).1.conn) ∧
      (∀ peer, after.table.find? peer =
        (engine.table.find? peer).map fun conn => (visited (sweptIf due conn)).settled) ∧
      after.datagrams = engine.datagrams ++
        (peers.filterMap engine.table.find?).flatMap fun conn =>
          (visited (sweptIf due conn)).outgoing := by
  obtain ⟨issuer, entropy, timer, hrotate, -⟩ := (engine.advance now).rotateSecret_spec now
  rw [engine_handleTimeoutIn hopen, hrotate]
  obtain ⟨-, visited, hvisited, hfind, hdatagrams, -⟩ := sweepAndVisit_effect
    { engine.advance now with issuer := issuer, entropy := entropy, rotationTimer := timer }
      horder now
  exact ⟨visited, hvisited, hfind, hdatagrams⟩

theorem handleTimeoutIn_of_closed {engine : Engine} (hclosed : engine.closed = true)
    (peers : List Hit) (now : Nat) : (engine.handleTimeoutIn peers now).engine = engine := by
  unfold handleTimeoutIn
  rw [if_pos hclosed]

/-- No timeout of an open engine is refused. -/
theorem result_handleTimeoutIn {engine : Engine} (hopen : engine.closed = false) (peers : List Hit)
    (now : Nat) : (engine.handleTimeoutIn peers now).result = .ok () := by
  unfold handleTimeoutIn
  rw [hopen, if_neg Bool.false_ne_true]

/-- A timeout makes of each connection what it makes of it alone, and what they ask for is queued in
    the order in which they are visited. -/
theorem elapsed_handleTimeoutIn {engine : Engine} (hopen : engine.closed = false) {peers : List Hit}
    (horder : peers.Perm engine.table.peers) (now : Nat) :
    ∃ elapsed, engine.Elapsed (engine.handleTimeoutIn peers now).engine now
      (peers.filterMap engine.table.find?) elapsed := by
  obtain ⟨issuer, entropy, timer, hrotate, hissuer⟩ := (engine.advance now).rotateSecret_spec now
  rw [engine_handleTimeoutIn hopen, hrotate]
  obtain ⟨hsame, elapsed, helapses, hfind, hdatagrams, hestablished⟩ := sweepAndVisit_spec
    { engine.advance now with issuer := issuer, entropy := entropy, rotationTimer := timer }
      horder now
  exact ⟨elapsed, hsame.config, hsame.identity, hsame.closed, hsame.lastNow, hsame.issuer ▸ hissuer,
    helapses, hfind, ConnectionTable.filterMap_find?_perm horder, hdatagrams, hestablished⟩

/-- A timeout that names every peer once visits them in that order. -/
theorem after_handleTimeout {engine : Engine} {peers : List Hit}
    (horder : peers.Perm engine.table.peers) (now : Nat) : engine.after (.handleTimeout peers now) =
      (engine.handleTimeoutIn peers now).engine := by
  rw [after, ConnectionTable.visits_of_perm horder]

theorem elapsed_handleTimeout {engine : Engine} (hopen : engine.closed = false) (order : List Hit)
    (now : Nat) : ∃ visited elapsed,
      engine.Elapsed (engine.after (.handleTimeout order now)) now visited elapsed :=
  ⟨_, elapsed_handleTimeoutIn hopen (engine.table.visits_perm order) now⟩

end DietExchange.Engine
