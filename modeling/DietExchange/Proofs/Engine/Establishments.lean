import DietExchange.Proofs.Connection.Role
import DietExchange.Proofs.Engine.Actions
import DietExchange.Proofs.Engine.Completion

namespace DietExchange

namespace Connection

@[simp]
theorem completions_moveTo (conn : Connection) (next : State) :
    (conn.moveTo next).completions = conn.completions := by
  have hsweep : (sweepSignals conn.state next).filterMap (Signal.completion? conn.peer) = [] := by
    unfold sweepSignals
    split <;> rfl
  unfold completions moveTo
  split
  · rfl
  · rw [List.filterMap_append, hsweep, List.append_nil]

@[simp]
theorem completions_transmit (conn : Connection) (kind : PacketKind) (datagram : List UInt8) :
    (conn.transmit kind datagram).completions = conn.completions := by
  simp [transmit, completions, Signal.completion?]

@[simp]
theorem completions_emit_transmit (conn : Connection) (datagram : List UInt8) :
    (conn.emit (.transmit datagram)).completions = conn.completions := by
  simp [emit, completions, Signal.completion?]

@[simp]
theorem completions_emit_connected (conn : Connection) :
    (conn.emit .connected).completions = conn.completions ++ [conn.peer] := by
  simp [emit, completions, Signal.completion?]

/-- The peer, if the connection gets to ESTABLISHED. -/
def entrance (conn moved : Connection) : List Hit :=
  if conn.state ≠ .established ∧ moved.state = .established then [conn.peer] else []

/-- Whether a connection tells that its handshake is complete exactly if it gets to ESTABLISHED. -/
def TellsEntrance (conn moved : Connection) : Prop :=
  moved.completions = conn.completions ++ conn.entrance moved

variable {ctx : Context} {stimulus : Stimulus} {conn moved : Connection}

theorem TellsEntrance.of_stays (hstate : moved.state = conn.state)
    (htold : moved.completions = conn.completions) : conn.TellsEntrance moved := by
  have hnone : conn.entrance moved = [] := if_neg fun henters => henters.1 (hstate ▸ henters.2)
  rw [TellsEntrance, hnone, List.append_nil, htold]

theorem TellsEntrance.of_elsewhere (hstate : moved.state ≠ .established)
    (htold : moved.completions = conn.completions) : conn.TellsEntrance moved := by
  have hnone : conn.entrance moved = [] := if_neg fun henters => hstate henters.2
  rw [TellsEntrance, hnone, List.append_nil, htold]

theorem TellsEntrance.of_enters (hbefore : conn.state ≠ .established)
    (hstate : moved.state = .established)
    (htold : moved.completions = conn.completions ++ [conn.peer]) : conn.TellsEntrance moved := by
  have hsome : conn.entrance moved = [conn.peer] := if_pos ⟨hbefore, hstate⟩
  rw [TellsEntrance, hsome, htold]

/-- There are two ways into ESTABLISHED, an R2 that is accepted and a hold that ends with keys, and
    both tell. Nothing else does, an I2 that leads out of it included. -/
theorem Move.tellsEntrance (hform : conn.WellFormed) (hmove : conn.Move ctx stimulus moved) :
    conn.TellsEntrance moved := by
  cases hmove with
  | ignore | wait | rest | takeUpR1 | search | lose => exact .of_stays rfl rfl
  | answerI1 => exact .of_stays rfl (completions_transmit _ _ _)
  | resend => exact .of_stays rfl (completions_emit_transmit _ _)
  | resendR2 => exact .of_stays rfl (completions_emit_transmit conn _)
  | initiate => exact .of_elsewhere (by simp) (by simp)
  | giveUp =>
    apply TellsEntrance.of_elsewhere (by simp)
    exact completions_moveTo _ _
  | answerI2AsI1 =>
    apply TellsEntrance.of_elsewhere (by simp [holdTo])
    exact (completions_moveTo _ _).trans (completions_transmit _ _ _)
  | answerI2 =>
    apply TellsEntrance.of_elsewhere (by simp [respond, holdTo])
    exact (completions_moveTo _ _).trans (completions_transmit conn .r2 _)
  | solve =>
    apply TellsEntrance.of_elsewhere (by simp [conclude])
    exact (completions_moveTo _ _).trans (completions_transmit { conn with pending := none } .i2 _)
  | acceptR2 hstate => exact .of_enters (by simp [hstate]) (by simp [emit]) (by simp)
  | establish hhold =>
    have hstate : conn.state = .r2Sent := hform.hold.mp (Option.isSome_of_eq_some hhold)
    apply TellsEntrance.of_enters (by simp [hstate]) (by simp [emit])
    simp only [completions_emit_connected, completions_moveTo, peer_moveTo]
    rfl

/-- What a connection that had nothing to tell tells after a move. -/
theorem TellsEntrance.length_completions (htells : conn.TellsEntrance moved)
    (houtbox : conn.outbox = []) : moved.completions.length =
      if conn.state ≠ .established ∧ moved.state = .established then 1 else 0 := by
  have hnothing : conn.completions = [] := by rw [completions, houtbox, List.filterMap_nil]
  rw [htells, hnothing, List.nil_append, entrance]
  split <;> rfl

end Connection

/-- The peer that is told of in what is handed out. -/
def Output.completion : Output → List Hit
  | .connected peer => [peer]
  | .datagram .. | .timeout _ | .noRoom .. => []

namespace Engine

/-- Whether the connection with a peer gets to ESTABLISHED. -/
def Enters (engine after : Engine) (peer : Hit) : Prop :=
  engine.state? peer ≠ some .established ∧ after.state? peer = some .established

instance (engine after : Engine) (peer : Hit) : Decidable (engine.Enters after peer) :=
  inferInstanceAs (Decidable (_ ∧ _))

/-- The peers that an action has told of. -/
def announcedBy (engine : Engine) (action : Action) : List Hit :=
  (engine.act action).established.drop engine.established.length

/-- The peers that are told of in the course of several actions. -/
def announcedIn (engine : Engine) : List Action → List Hit
  | [] => []
  | action :: rest => engine.announcedBy action ++ (engine.act action).announcedIn rest

/-- How often the connection with a peer gets to ESTABLISHED in the course of several actions. -/
def entries (engine : Engine) (peer : Hit) : List Action → Nat
  | [] => 0
  | action :: rest =>
    (if engine.Enters (engine.act action) peer then 1 else 0) +
      (engine.act action).entries peer rest

/-- The peer that is handed out, if that is what an action asks for. -/
def polledBy (engine : Engine) : Action → List Hit
  | .pollOutput room => (engine.pollOutput room).1.completion
  | .connect .. | .handlePacket .. | .handleTimeout .. => []

/-- The peers that are handed out in the course of several actions. -/
def polledIn (engine : Engine) : List Action → List Hit
  | [] => []
  | action :: rest => engine.polledBy action ++ (engine.act action).polledIn rest

/-- What an engine tells when it becomes another: of each peer that gets to ESTABLISHED, once. -/
structure Announces (engine after : Engine) (told : List Hit) : Prop where
  once : ∀ peer, told.count peer = if engine.Enters after peer then 1 else 0
  keys : ∀ peer, (engine.keys? peer).isSome → (after.keys? peer).isSome

/-- Whether an engine shows a connection to its caller: it is the one with that peer, or there is
    none and it would show nothing. -/
def Shows (engine : Engine) (conn : Connection) : Prop :=
  engine.table.find? conn.peer = some conn ∨
    (engine.table.find? conn.peer = none ∧ conn.state ≠ .established ∧ conn.keys = none)

section Shows

variable {engine after : Engine} {conn moved : Connection}

theorem Shows.state_iff (hshows : engine.Shows conn) :
    engine.state? conn.peer = some .established ↔ conn.state = .established := by
  rcases hshows with hfind | ⟨hnone, hstate, -⟩
  · rw [state?_of_find? hfind rfl, Option.some.injEq]
  · rw [state?, hnone, Option.map_none]
    exact iff_of_false (by simp) hstate

theorem Shows.keys_eq (hshows : engine.Shows conn) : engine.keys? conn.peer = conn.keys := by
  rcases hshows with hfind | ⟨hnone, -, hkeys⟩
  · exact keys?_of_find? hfind rfl
  · rw [keys?, hnone, hkeys]
    rfl

theorem Offers.shows {peer : Hit} {address : Address} (hoffers : engine.Offers peer address conn) :
    engine.Shows conn := by
  have hpeer : conn.peer = peer := hoffers.peer_eq
  rcases hoffers with hfind | ⟨hnone, -, rfl⟩
  · exact .inl (hpeer ▸ hfind)
  · exact .inr ⟨hnone, by simp [Connection.fresh], rfl⟩

/-- What a move of one connection tells of its peer. -/
theorem announces_of_move {ctx : Context} {stimulus : Stimulus} (hbefore : engine.Shows conn)
    (hafter : after.Shows moved.settled) (hform : conn.WellFormed) (houtbox : conn.outbox = [])
    (hmove : conn.Move ctx stimulus moved) :
    moved.completions.length = (if engine.Enters after conn.peer then 1 else 0) ∧
      ((engine.keys? conn.peer).isSome → (after.keys? conn.peer).isSome) := by
  have hpeer : moved.settled.peer = conn.peer := hmove.peer_eq
  have hkeys : after.keys? conn.peer = moved.keys := hpeer ▸ hafter.keys_eq
  have henters : engine.Enters after conn.peer ↔
      conn.state ≠ .established ∧ moved.state = .established :=
    and_congr (not_congr hbefore.state_iff) (hpeer ▸ hafter.state_iff)
  constructor
  · rw [(hmove.tellsEntrance hform).length_completions houtbox]
    exact (if_congr henters rfl rfl).symm
  · rw [hbefore.keys_eq, hkeys]
    exact hmove.isSome_keys hform

theorem not_enters_of_find? {peer : Hit}
    (hfind : after.table.find? peer = engine.table.find? peer) : ¬engine.Enters after peer := by
  rw [Enters, state?, state?, hfind]
  exact fun henters => henters.1 henters.2

/-- Where the connection with a peer stays as it is, nothing is told of it. -/
theorem announces_of_find? {peer : Hit} {told : List Hit}
    (hfind : after.table.find? peer = engine.table.find? peer) (htold : peer ∉ told) :
    told.count peer = (if engine.Enters after peer then 1 else 0) ∧
      ((engine.keys? peer).isSome → (after.keys? peer).isSome) := by
  constructor
  · rw [if_neg (not_enters_of_find? hfind), List.count_eq_zero]
    exact htold
  · rw [keys?, keys?, hfind]
    exact id

/-- Where no connection changes, nothing is told. -/
theorem announces_nil (htable : after.table = engine.table) : engine.Announces after [] := by
  have hall : ∀ peer, ([] : List Hit).count peer = (if engine.Enters after peer then 1 else 0) ∧
      ((engine.keys? peer).isSome → (after.keys? peer).isSome) :=
    fun peer => announces_of_find? (congrArg (·.find? peer) htable) List.not_mem_nil
  exact ⟨fun peer => (hall peer).1, fun peer => (hall peer).2⟩

end Shows

/-- A peer that is handed out was at the head of the line. -/
theorem established_pollOutput (engine : Engine) (room : Nat) : engine.established =
    (engine.pollOutput room).1.completion ++ (engine.pollOutput room).2.established := by
  unfold pollOutput
  split
  · rename_i hqueue
    exact hqueue
  · split
    · dsimp only
      split <;> rfl
    · rfl

section Act

variable {engine : Engine} (hreachable : Reachable engine)
include hreachable

/-- A call that concerns one connection. -/
theorem announces_of_turned {after : Engine} {stimulus : Stimulus} {peer : Hit} {address : Address}
    {now : Nat} (hturned : (engine.advance now).Turned stimulus peer address after) :
    ∃ told, after.established = engine.established ++ told ∧ engine.Announces after told := by
  obtain ⟨-, ⟨htable, -, hestablished⟩ |
    ⟨conn, moved, hoffers, hmove, -, hestablished, htable⟩⟩ := hturned.effect
  · exact ⟨[], hestablished.trans (List.append_nil _).symm, announces_nil htable⟩
  · have hpeer : conn.peer = peer := hoffers.peer_eq
    have hbefore : engine.Shows conn := hoffers.shows
    have hform : conn.WellFormed := hoffers.preserves (fun _ => hreachable.wellFormed)
      (fun _ _ => Connection.wellFormed_fresh _ _ _)
    have houtbox : conn.outbox = [] := hoffers.preserves (P := fun conn => conn.outbox = [])
      (fun _ => hreachable.outbox_eq_nil) (fun _ _ => rfl)
    have hmovedPeer : moved.settled.peer = peer := hmove.peer_eq.trans hpeer
    have hafter : after.Shows moved.settled := by
      rcases htable with ⟨hput, -⟩ | ⟨hsame, hnone, hstate⟩
      · left
        rw [hput, ConnectionTable.find?_put, if_pos rfl]
      · right
        rw [hsame, hmovedPeer]
        exact ⟨hnone, by simp [Connection.settled, hstate],
          (hform.move hmove).keyless (.inl hstate)⟩
    refine ⟨moved.completions, hestablished, ?_⟩
    have hall : ∀ other, moved.completions.count other =
        (if engine.Enters after other then 1 else 0) ∧
          ((engine.keys? other).isSome → (after.keys? other).isSome) := by
      intro other
      by_cases hother : other = conn.peer
      · rw [hother, Connection.count_completions, if_pos hmove.peer_eq]
        exact announces_of_move hbefore hafter hform houtbox hmove
      · apply announces_of_find?
        · rcases htable with ⟨hput, -⟩ | ⟨hsame, -⟩
          · rw [hput, ConnectionTable.find?_put, if_neg]
            · rfl
            · rw [hmovedPeer, ← hpeer]
              exact Ne.symm hother
          · rw [hsame]
            rfl
        · intro hmem
          apply hother
          rw [Connection.eq_peer_of_mem_completions hmem, hmove.peer_eq]
    exact ⟨fun other => (hall other).1, fun other => (hall other).2⟩

/-- A timeout, in whatever order it visits the connections. -/
theorem announces_of_elapses {after : Engine} {now : Nat} {visited : List Connection}
    {elapsed : Connection → Connection} (helapsed : engine.Elapsed after now visited elapsed) :
    engine.Announces after (visited.flatMap fun conn => (elapsed conn).completions) := by
  have hnodup : (visited.map Connection.peer).Nodup :=
    (helapsed.perm.map Connection.peer).nodup_iff.mpr engine.table.nodup
  have hpeers : ∀ conn, (elapsed conn).peer = conn.peer :=
    fun conn => (helapsed.elapses conn).peer_eq
  have hall : ∀ peer, (visited.flatMap fun conn => (elapsed conn).completions).count peer =
      (if engine.Enters after peer then 1 else 0) ∧
        ((engine.keys? peer).isSome → (after.keys? peer).isSome) := by
    intro peer
    cases hfind : engine.table.find? peer with
    | none =>
      apply announces_of_find?
      · rw [helapsed.find, hfind, Option.map_none]
      · intro hmem
        obtain ⟨conn, hconn, hcompletion⟩ := List.mem_flatMap.mp hmem
        have hknown := ConnectionTable.find?_eq_some_iff.mpr ⟨helapsed.perm.mem_iff.mp hconn, rfl⟩
        rw [← hpeers conn, ← Connection.eq_peer_of_mem_completions hcompletion, hfind] at hknown
        cases hknown
    | some conn =>
      obtain ⟨hmem, rfl⟩ := ConnectionTable.find?_eq_some_iff.mp hfind
      have hform := hreachable.wellFormed hmem
      obtain ⟨stimulus, -, hmove⟩ := (helapsed.elapses conn).exists_move hform
      have hafter : after.Shows (elapsed conn).settled := by
        left
        rw [Connection.peer_settled, hpeers, helapsed.find, hfind, Option.map_some]
      rw [Connection.count_flatMap_completions hnodup hpeers (helapsed.perm.mem_iff.mpr hmem)]
      exact announces_of_move (.inl hfind) hafter hform (hreachable.outbox_eq_nil hmem) hmove
  exact ⟨fun peer => (hall peer).1, fun peer => (hall peer).2⟩

/-- An action tells of a peer once if it brings the connection into ESTABLISHED and not at all
    otherwise. What is told waits in line to be handed out. -/
theorem announces_act (hopen : engine.closed = false) {action : Action}
    (hallows : engine.Allows action) :
    engine.Announces (engine.act action) (engine.announcedBy action) ∧
      engine.established ++ engine.announcedBy action =
        engine.polledBy action ++ (engine.act action).established := by
  have hqueued : ∀ told, (engine.act action).established = engine.established ++ told →
      engine.Announces (engine.act action) told → engine.polledBy action = [] →
      engine.Announces (engine.act action) (engine.announcedBy action) ∧
        engine.established ++ engine.announcedBy action =
          engine.polledBy action ++ (engine.act action).established := by
    intro told hestablished hannounces hnone
    have htold : engine.announcedBy action = told := by
      rw [announcedBy, hestablished, List.drop_left]
    rw [htold, hestablished, hnone]
    exact ⟨hannounces, rfl⟩
  cases action with
  | connect peer address now =>
    obtain ⟨told, hestablished, hannounces⟩ :=
      announces_of_turned hreachable (connect_cases hopen peer address now)
    exact hqueued told hestablished hannounces rfl
  | handlePacket datagram source now =>
    rcases handlePacket_cases hopen datagram source now with hadvance | ⟨packet, -, -, hturned⟩
    · have hact : engine.act (.handlePacket datagram source now) = engine.advance now := hadvance
      apply hqueued [] ?_ (announces_nil ?_) rfl
      · rw [hact, List.append_nil]
        rfl
      · rw [hact]
        rfl
    · obtain ⟨told, hestablished, hannounces⟩ := announces_of_turned hreachable hturned
      exact hqueued told hestablished hannounces rfl
  | handleTimeout peers now =>
    obtain ⟨elapsed, helapsed⟩ := elapsed_handleTimeoutIn hopen hallows now
    exact hqueued _ helapsed.established (announces_of_elapses hreachable helapsed) rfl
  | pollOutput room =>
    have hpolled := engine.established_pollOutput room
    have hnone : engine.announcedBy (.pollOutput room) = [] :=
      List.drop_eq_nil_of_le (hpolled ▸ (List.suffix_append _ _).length_le)
    rw [hnone, List.append_nil]
    exact ⟨announces_nil (engine.pollOutput_spec room).1, hpolled⟩

/-- The keys of a handshake that is complete are there. -/
theorem isSome_keys?_of_established {peer : Hit} (hstate : engine.state? peer = some .established) :
    (engine.keys? peer).isSome := by
  rw [state?, Option.map_eq_some_iff] at hstate
  obtain ⟨conn, hfind, hdone⟩ := hstate
  rw [keys?_of_find? hfind rfl]
  exact (hreachable.wellFormed (ConnectionTable.find?_eq_some_iff.mp hfind).1).established hdone

end Act

section Run

variable {engine : Engine} {actions : List Action} (hreachable : Reachable engine)
  (hopen : engine.closed = false) (hallows : engine.AllowsAll actions)
include hreachable hopen hallows

/-- A peer is told of as often as its connection gets to ESTABLISHED. -/
theorem count_announcedIn (peer : Hit) :
    (engine.announcedIn actions).count peer = engine.entries peer actions := by
  induction actions generalizing engine with
  | nil => rfl
  | cons action rest ih =>
    obtain ⟨hannounces, -⟩ := announces_act hreachable hopen hallows.1
    rw [announcedIn, entries, List.count_append, hannounces.once,
      ih (hreachable.act hallows.1) (closed_act hopen hallows.1) hallows.2]

/-- Nobody who is told of is lost, and nobody else is handed out. -/
theorem established_actAll : engine.established ++ engine.announcedIn actions =
    engine.polledIn actions ++ (engine.actAll actions).established := by
  induction actions generalizing engine with
  | nil => exact List.append_nil _
  | cons action rest ih =>
    obtain ⟨-, hqueue⟩ := announces_act hreachable hopen hallows.1
    have hrest := ih (hreachable.act hallows.1) (closed_act hopen hallows.1) hallows.2
    calc engine.established ++ engine.announcedIn (action :: rest)
        = (engine.established ++ engine.announcedBy action) ++
            (engine.act action).announcedIn rest := by rw [announcedIn, List.append_assoc]
      _ = engine.polledBy action ++
            ((engine.act action).established ++ (engine.act action).announcedIn rest) := by
          rw [hqueue, List.append_assoc]
      _ = engine.polledIn (action :: rest) ++ (engine.actAll (action :: rest)).established := by
          rw [hrest, polledIn, List.append_assoc]
          rfl

/-- Keys that are there stay there. -/
theorem isSome_keys?_actAll {peer : Hit} (hkeys : (engine.keys? peer).isSome) :
    ((engine.actAll actions).keys? peer).isSome := by
  induction actions generalizing engine with
  | nil => exact hkeys
  | cons action rest ih =>
    obtain ⟨hannounces, -⟩ := announces_act hreachable hopen hallows.1
    exact ih (hreachable.act hallows.1) (closed_act hopen hallows.1) hallows.2
      (hannounces.keys peer hkeys)

/-- Once a connection was in ESTABLISHED its keys are there. -/
theorem isSome_keys?_of_entries {peer : Hit} (hentered : 0 < engine.entries peer actions) :
    ((engine.actAll actions).keys? peer).isSome := by
  induction actions generalizing engine with
  | nil => exact absurd hentered (Nat.lt_irrefl 0)
  | cons action rest ih =>
    have hafter := hreachable.act hallows.1
    have hstill := closed_act hopen hallows.1
    by_cases henters : engine.Enters (engine.act action) peer
    · apply isSome_keys?_actAll hafter hstill hallows.2
      exact isSome_keys?_of_established hafter henters.2
    · apply ih hafter hstill hallows.2
      rw [entries, if_neg henters, Nat.zero_add] at hentered
      exact hentered

end Run

/-- Over the whole life of an engine that is not closed: a peer is told of once for each time that
    its connection gets to ESTABLISHED, in the action that brings it there, and never otherwise; who
    is told of is handed out in that order, with nobody lost or added; and from the first time on
    its keys are there, so also when it is handed out. -/
theorem establishments_are_announced {config : Config} {identity : HostIdentity}
    {source rest : EntropySource} {systemSeed : UInt64} {now : Nat} {engine : Engine}
    {log : List Log.Event}
    (hcreate : create config identity source systemSeed now = (.ok (engine, log), rest))
    {actions : List Action} (hallows : engine.AllowsAll actions) :
    (∀ peer, (engine.announcedIn actions).count peer = engine.entries peer actions) ∧
    engine.announcedIn actions = engine.polledIn actions ++ (engine.actAll actions).established ∧
    (∀ action, (engine.actAll actions).Allows action → ∀ peer,
      ((engine.actAll actions).announcedBy action).count peer =
        if (engine.actAll actions).Enters ((engine.actAll actions).act action) peer then 1 else 0) ∧
    (∀ peer, 0 < engine.entries peer actions → ((engine.actAll actions).keys? peer).isSome) ∧
    ∀ room peer, ((engine.actAll actions).pollOutput room).1 = .connected peer →
      ((engine.actAll actions).keys? peer).isSome ∧
        (((engine.actAll actions).pollOutput room).2.keys? peer).isSome := by
  have hreachable : Reachable engine := .create hcreate
  obtain ⟨-, -, -, -, hestablished, hopen, -⟩ := create_spec hcreate
  have hcount := count_announcedIn hreachable hopen hallows
  have hline := established_actAll hreachable hopen hallows
  rw [hestablished, List.nil_append] at hline
  have hkeys : ∀ peer, 0 < engine.entries peer actions →
      ((engine.actAll actions).keys? peer).isSome :=
    fun _ => isSome_keys?_of_entries hreachable hopen hallows
  have hlater := hreachable.actAll hallows
  have hstill := closed_actAll hopen hallows
  refine ⟨hcount, hline, fun action hnext => (announces_act hlater hstill hnext).1.once, hkeys,
    fun room peer hpoll => ?_⟩
  have hwaits : peer ∈ (engine.actAll actions).established := by
    rw [established_pollOutput _ room, hpoll]
    exact List.mem_cons_self
  have hentered : 0 < engine.entries peer actions := by
    rw [← hcount, hline]
    exact List.count_pos_iff.mpr (List.mem_append_right _ hwaits)
  have hthere := hkeys peer hentered
  have hnext : (engine.actAll actions).Allows (.pollOutput room) := trivial
  exact ⟨hthere, (announces_act hlater hstill hnext).1.keys peer hthere⟩

/-- What calls tell is what actions tell. -/
theorem exists_announcedIn (engine : Engine) {calls : List Call} (hcalls : .close ∉ calls) :
    ∃ actions, engine.AllowsAll actions ∧ engine.announcedIn actions = engine.toldIn calls := by
  induction calls generalizing engine with
  | nil => exact ⟨[], trivial, rfl⟩
  | cons call rest ih =>
    obtain ⟨hcall, hrest⟩ := not_or.mp (List.mem_cons.not.mp hcalls)
    obtain ⟨action, hallows, hact⟩ := engine.exists_action (Ne.symm hcall)
    obtain ⟨actions, hallowsRest, htold⟩ := ih (engine.act action) hrest
    refine ⟨action :: actions, ⟨hallows, hallowsRest⟩, ?_⟩
    rw [announcedIn, toldIn, htold, announcedBy, hact]
    rfl

/-- The initiator of a handshake tells of the responder once. -/
theorem exists_establishment : ∃ (engine : Engine) (log : List Log.Event) (rest : EntropySource)
    (actions : List Action) (peer : Hit),
    create SampleHost.config (SampleHost.identity 1) (EntropySource.scripted [] 1) 0 0 =
      (.ok (engine, log), rest) ∧ engine.AllowsAll actions ∧
    engine.entries peer actions = 1 ∧ (engine.announcedIn actions).count peer = 1 ∧
    ((engine.actAll actions).keys? peer).isSome := by
  obtain ⟨initiator, hinitiator⟩ := SampleHost.exists_isNew 1
  obtain ⟨responder, hresponder⟩ := SampleHost.exists_isNew 2
  have hconforms := Handshake.conforms_sample hinitiator hresponder
  obtain ⟨puzzle, keys, hunderway⟩ := hconforms.underway
  obtain ⟨-, htold, -⟩ := hconforms.concludes hunderway
  have hcalls : .close ∉ (Handshake.prompt initiator responder 0).initiatorCalls := by
    simp [Handshake.initiatorCalls, Handshake.prompt, Handshake.connectCall, Handshake.r1Call,
      Handshake.r2Call]
  obtain ⟨actions, hallows, hannounced⟩ := initiator.exists_announcedIn hcalls
  obtain ⟨log, rest, hcreate⟩ := hinitiator.created
  obtain ⟨hcount, -, -, hkeys, -⟩ := establishments_are_announced hcreate hallows
  have honce : (initiator.announcedIn actions).count responder.hit = 1 := hannounced ▸ htold
  have hentered : initiator.entries responder.hit actions = 1 := (hcount _).symm.trans honce
  exact ⟨initiator, log, rest, actions, responder.hit, hcreate, hallows, hentered, honce,
    hkeys _ (hentered ▸ Nat.one_pos)⟩

end Engine

end DietExchange
