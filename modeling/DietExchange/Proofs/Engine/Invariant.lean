import DietExchange.Proofs.Engine.Timeout

namespace DietExchange.Engine

/-- The moves that a call can bring about, from the connection that it finds. -/
inductive Moves (engine : Engine) : Call → Connection → Connection → Prop where
  | connect {peer : Hit} {address : Address} {now : Nat} {conn after : Connection}
    (hoffers : engine.Offers peer address conn)
    (hmove : conn.Move (engine.context (max engine.lastNow now)) .initiate after) :
    Moves engine (.connect peer address now) conn after
  | handlePacket {datagram : List UInt8} {source : Address} {now : Nat} {packet : Packet}
    {conn after : Connection} (hparse : Packet.parse datagram = .ok packet)
    (hreceiver : packet.receiver = engine.hit)
    (hresult : (engine.handlePacket datagram source now).result = .ok ())
    (hoffers : engine.Offers packet.sender source conn)
    (hmove : conn.Move (engine.context (max engine.lastNow now)) (.packet packet) after) :
    Moves engine (.handlePacket datagram source now) conn after
  | handleTimeout {order : List Hit} {now : Nat} {conn after : Connection}
    (hmem : conn ∈ engine.table.connections)
    (helapses : conn.Elapses ((engine.after (.handleTimeout order now)).context now) after) :
    Moves engine (.handleTimeout order now) conn after

theorem Offers.preserves {engine : Engine} {P : Connection → Prop} {peer : Hit} {address : Address}
    {conn : Connection} (hoffers : engine.Offers peer address conn)
    (hconnections : ∀ other ∈ engine.table.connections, P other)
    (hfresh : ∀ peer address, P (Connection.fresh engine.hit peer address)) : P conn := by
  rcases hoffers with hfind | ⟨-, -, rfl⟩
  · exact hconnections conn (ConnectionTable.find?_eq_some_iff.mp hfind).1
  · exact hfresh peer address

/-- A datagram that is refused changes nothing but the time. -/
theorem handlePacket_eq_advance_of_error {engine : Engine} {datagram : List UInt8}
    {source : Address} {now : Nat} {error : Error} (hopen : engine.closed = false)
    (hrefused : (engine.handlePacket datagram source now).result = .error error) :
    (engine.handlePacket datagram source now).engine = engine.advance now := by
  unfold handlePacket at hrefused ⊢
  rw [hopen, if_neg Bool.false_ne_true] at hrefused ⊢
  dsimp only at hrefused ⊢
  have hdeliver : ∀ conn isNew packet,
      ((engine.advance now).deliver conn isNew packet).result = .error error →
      ((engine.advance now).deliver conn isNew packet).engine = engine.advance now := by
    intro conn isNew packet hdeliver
    unfold deliver at hdeliver ⊢
    split at hdeliver
    · rfl
    · cases hdeliver
  split
  · rfl
  · rename_i packet hparse
    rw [hparse] at hrefused
    dsimp only at hrefused
    split
    · rfl
    · rename_i hreceiver
      rw [if_neg hreceiver] at hrefused
      unfold accept at hrefused ⊢
      split
      · rename_i conn hfind
        rw [hfind] at hrefused
        exact hdeliver _ _ _ hrefused
      · rename_i hnone
        rw [hnone] at hrefused
        dsimp only at hrefused
        repeat' split at hrefused
        · cases hrefused
        · cases hrefused
        · rename_i hunsolicited hroom
          rw [if_neg hunsolicited, if_neg hroom]
          exact hdeliver _ _ _ hrefused

/-- A closed engine takes no call. -/
theorem after_of_closed {engine : Engine} (hclosed : engine.closed = true) {call : Call}
    (hpoll : ∀ room, call ≠ .pollOutput room) : engine.after call = engine := by
  cases call with
  | connect | handlePacket | handleTimeout | close =>
    simp [Engine.after, Engine.connect, Engine.handlePacket, handleTimeoutIn,
      Engine.close, hclosed]
  | pollOutput room => exact absurd rfl (hpoll room)

/-- What a call makes of an engine. A closed one takes no call, though it can be polled. A poll
    takes from the front of the queues, a connect and a packet turn one connection at most, and a
    timeout is seen by all of them. -/
inductive Becomes (engine : Engine) : Call → Engine → Prop where
  | idle {call : Call} (hclosed : engine.closed = true) : Becomes engine call engine
  | polled {room : Nat} {datagrams : List Outgoing} {established : List Hit}
    (hdatagrams : datagrams <:+ engine.datagrams)
    (hestablished : established <:+ engine.established) :
    Becomes engine (.pollOutput room)
      { engine with datagrams := datagrams, established := established }
  | connected {peer : Hit} {address : Address} {now : Nat} {after : Engine}
    (hopen : engine.closed = false)
    (hturned : (engine.advance now).Turned .initiate peer address after) :
    Becomes engine (.connect peer address now) after
  | dropped {datagram : List UInt8} {source : Address} {now : Nat}
    (hopen : engine.closed = false) :
    Becomes engine (.handlePacket datagram source now) (engine.advance now)
  | received {datagram : List UInt8} {source : Address} {now : Nat} {packet : Packet}
    {after : Engine} (hopen : engine.closed = false) (hparse : Packet.parse datagram = .ok packet)
    (hreceiver : packet.receiver = engine.hit)
    (hturned : (engine.advance now).Turned (.packet packet) packet.sender source after) :
    Becomes engine (.handlePacket datagram source now) after
  | elapsed {order : List Hit} {now : Nat} {after : Engine} {visited : List Connection}
    {elapsed : Connection → Connection} (hopen : engine.closed = false)
    (helapsed : engine.Elapsed after now visited elapsed) :
    Becomes engine (.handleTimeout order now) after
  | closed (hopen : engine.closed = false) :
    Becomes engine .close
      { engine with
        rotationTimer := engine.rotationTimer.disarm
        retransmissionTimer := engine.retransmissionTimer.disarm
        table := .empty
        datagrams := []
        established := []
        retransmitting := 0
        closed := true }

theorem becomes_after (engine : Engine) (call : Call) :
    engine.Becomes call (engine.after call) := by
  by_cases hpoll : ∃ room, call = .pollOutput room
  · obtain ⟨room, rfl⟩ := hpoll
    obtain ⟨datagrams, established, hdatagrams, hestablished, heq⟩ := engine.pollOutput_eq room
    rw [show engine.after (.pollOutput room) = _ from heq]
    exact .polled hdatagrams hestablished
  cases hclosed : engine.closed with
  | true =>
    rw [after_of_closed hclosed fun room heq => hpoll ⟨room, heq⟩]
    exact .idle hclosed
  | false =>
    cases call with
    | pollOutput room => exact absurd ⟨room, rfl⟩ hpoll
    | connect peer address now => exact .connected hclosed (connect_cases hclosed peer address now)
    | handlePacket datagram source now =>
      rcases handlePacket_cases hclosed datagram source now with
        hadvance | ⟨packet, hparse, hreceiver, hturned⟩
      · rw [show engine.after (.handlePacket datagram source now) = _ from hadvance]
        exact .dropped hclosed
      · exact .received hclosed hparse hreceiver hturned
    | handleTimeout order now =>
      obtain ⟨visited, elapsed, helapsed⟩ := elapsed_handleTimeout hclosed order now
      exact .elapsed hclosed helapsed
    | close =>
      rw [after, close, hclosed, if_neg Bool.false_ne_true]
      exact .closed hclosed

/-- What is in the table and in the queue was there before or comes of one of these moves. -/
structure Comes (engine after : Engine) (moves : Connection → Connection → Prop) : Prop where
  connections : ∀ conn ∈ after.table.connections, conn ∈ engine.table.connections ∨
    ∃ before moved, moves before moved ∧ conn = moved.settled
  datagrams : ∀ out ∈ after.datagrams, out ∈ engine.datagrams ∨
    ∃ before moved, moves before moved ∧ out ∈ moved.outgoing

section Comes

variable {engine after : Engine} {moves : Connection → Connection → Prop}

theorem comes_of_suffix (htable : after.table = engine.table)
    (hdatagrams : after.datagrams <:+ engine.datagrams) : engine.Comes after moves where
  connections conn hmem := by
    rw [htable] at hmem
    exact .inl hmem
  datagrams out hmem := .inl (hdatagrams.subset hmem)

theorem Comes.of_advance {now : Nat} (hcomes : (engine.advance now).Comes after moves) :
    engine.Comes after moves :=
  ⟨hcomes.connections, hcomes.datagrams⟩

theorem Turned.comes {stimulus : Stimulus} {peer : Hit} {address : Address}
    (hturned : engine.Turned stimulus peer address after)
    (hmoves : ∀ before moved, engine.Offers peer address before →
      before.Move (engine.context engine.lastNow) stimulus moved → moves before moved) :
    engine.Comes after moves := by
  obtain ⟨-, ⟨htable, hdatagrams, -⟩ |
    ⟨before, moved, hoffers, hmove, hdatagrams, -, hkept⟩⟩ := hturned.effect
  · exact comes_of_suffix htable (hdatagrams ▸ List.suffix_rfl)
  have hone := hmoves before moved hoffers hmove
  constructor
  · intro conn hmem
    rcases hkept with ⟨htable, -⟩ | ⟨htable, -⟩
    · have hfind := ConnectionTable.find?_eq_some_iff.mpr ⟨hmem, rfl⟩
      rw [htable, ConnectionTable.find?_put] at hfind
      split at hfind
      · exact .inr ⟨before, moved, hone, (Option.some.inj hfind).symm⟩
      · exact .inl (ConnectionTable.find?_eq_some_iff.mp hfind).1
    · rw [htable] at hmem
      exact .inl hmem
  · intro out hmem
    rw [hdatagrams, List.mem_append] at hmem
    exact hmem.imp_right fun hout => ⟨before, moved, hone, hout⟩

theorem Elapsed.exists_settled {now : Nat} {visited : List Connection}
    {elapsed : Connection → Connection} (helapsed : engine.Elapsed after now visited elapsed)
    {conn : Connection} (hmem : conn ∈ after.table.connections) :
    ∃ before ∈ engine.table.connections, conn = (elapsed before).settled := by
  have hfind := ConnectionTable.find?_eq_some_iff.mpr ⟨hmem, rfl⟩
  rw [helapsed.find, Option.map_eq_some_iff] at hfind
  obtain ⟨before, hbefore, heq⟩ := hfind
  exact ⟨before, (ConnectionTable.find?_eq_some_iff.mp hbefore).1, heq.symm⟩

theorem Elapsed.comes {now : Nat} {visited : List Connection} {elapsed : Connection → Connection}
    (helapsed : engine.Elapsed after now visited elapsed)
    (hmoves : ∀ conn ∈ engine.table.connections, moves conn (elapsed conn)) :
    engine.Comes after moves := by
  constructor
  · intro conn hmem
    obtain ⟨before, hbefore, heq⟩ := helapsed.exists_settled hmem
    exact .inr ⟨before, elapsed before, hmoves before hbefore, heq⟩
  · intro out hmem
    rw [helapsed.datagrams, List.mem_append, List.mem_flatMap] at hmem
    refine hmem.imp_right ?_
    rintro ⟨before, hvisited, hout⟩
    exact ⟨before, elapsed before, hmoves before (helapsed.perm.subset hvisited), hout⟩

end Comes

theorem pollOutput_spec (engine : Engine) (room : Nat) :
    (engine.pollOutput room).2.table = engine.table ∧
      (engine.pollOutput room).2.datagrams <:+ engine.datagrams ∧
      (engine.pollOutput room).2.established <:+ engine.established := by
  obtain ⟨datagrams, established, hdatagrams, hestablished, heq⟩ := engine.pollOutput_eq room
  rw [heq]
  exact ⟨rfl, hdatagrams, hestablished⟩

/-- What a call leaves in the table and in the queue was there before or comes of a move that the
    call brought about. -/
theorem after_spec (engine : Engine) (call : Call) :
    engine.Comes (engine.after call) (engine.Moves call) := by
  have hbecomes := engine.becomes_after call
  generalize hafter : engine.after call = after at hbecomes ⊢
  cases hbecomes with
  | idle | dropped => exact comes_of_suffix rfl List.suffix_rfl
  | polled hdatagrams => exact comes_of_suffix rfl hdatagrams
  | connected hopen hturned =>
    apply Comes.of_advance
    apply hturned.comes
    intro before moved hoffers hmove
    exact .connect hoffers hmove
  | @received datagram source now packet _ hopen hparse hreceiver hturned =>
    cases hresult : (engine.handlePacket datagram source now).result with
    | error error =>
      have hadvance : engine.after (.handlePacket datagram source now) = engine.advance now :=
        handlePacket_eq_advance_of_error hopen hresult
      rw [← hafter, hadvance]
      exact comes_of_suffix rfl List.suffix_rfl
    | ok =>
      apply Comes.of_advance
      apply hturned.comes
      intro before moved hoffers hmove
      exact .handlePacket hparse hreceiver hresult hoffers hmove
  | elapsed hopen helapsed =>
    apply helapsed.comes
    intro conn hmem
    exact .handleTimeout hmem (hafter ▸ helapsed.elapses conn)
  | closed =>
    exact ⟨fun _ hmem => absurd hmem List.not_mem_nil, fun _ hmem => absurd hmem List.not_mem_nil⟩

theorem hit_after (engine : Engine) (call : Call) : (engine.after call).hit = engine.hit :=
  congrArg HostIdentity.hit (engine.continues_after call).identity

/-- What a new engine has: no connection, and one secret of the complexity that was asked for. -/
theorem create_spec {config : Config} {identity : HostIdentity} {source rest : EntropySource}
    {systemSeed : UInt64} {now : Nat} {engine : Engine} {log : List Log.Event}
    (hcreate : create config identity source systemSeed now = (.ok (engine, log), rest)) :
    engine.config = config ∧ engine.identity = identity ∧ engine.table = .empty ∧
      engine.datagrams = [] ∧ engine.established = [] ∧ engine.closed = false ∧
      engine.issuer.complexity = config.puzzleComplexity ∧
      ∃ secret, engine.issuer.window = SecretWindow.empty.push secret := by
  unfold create PuzzleIssuer.create at hcreate
  repeat' split at hcreate
  all_goals simp only [Prod.mk.injEq, reduceCtorEq, false_and] at hcreate
  rename_i issuer source hissuer
  obtain ⟨hpair, -⟩ := hcreate
  obtain ⟨rfl, -⟩ := Prod.mk.inj (Except.ok.inj hpair)
  repeat' split at hissuer
  all_goals simp only [Prod.mk.injEq, reduceCtorEq, false_and, Except.ok.injEq] at hissuer
  rename_i secret source hsecret
  obtain ⟨rfl, -⟩ := hissuer
  exact ⟨rfl, rfl, rfl, rfl, rfl, rfl, rfl, secret, rfl⟩

/-- Only a timeout replaces the puzzle secret, and only once. -/
theorem issuer_after (engine : Engine) (call : Call) :
    (engine.after call).issuer = engine.issuer ∨ ∃ order now secret,
    call = .handleTimeout order now ∧ (engine.after call).issuer = { engine.issuer with
        window := engine.issuer.window.push secret
        generation := engine.issuer.generation + 1 } := by
  have hbecomes := engine.becomes_after call
  generalize engine.after call = after at hbecomes ⊢
  cases hbecomes with
  | idle | polled | dropped | closed => exact .inl rfl
  | connected _ hturned | received _ _ _ hturned => exact .inl hturned.effect.1.issuer
  | elapsed _ helapsed =>
    rcases helapsed.issuer with hsame | ⟨secret, hpushed⟩
    · exact .inl hsame
    · exact .inr ⟨_, _, secret, rfl, hpushed⟩

/-- What is kept by every move under this identity and holds of a connection on which nothing has
    happened is kept by a call. -/
theorem connections_after {P : Connection → Prop} {engine : Engine}
    (hfresh : ∀ peer address, P (Connection.fresh engine.hit peer address))
    (hmove : ∀ ctx stimulus before after, ctx.identity = engine.identity →
      before.Move ctx stimulus after → P before → P after)
    (hsettled : ∀ conn, P conn → P conn.settled)
    (hconnections : ∀ conn ∈ engine.table.connections, P conn) (call : Call) :
      ∀ conn ∈ (engine.after call).table.connections, P conn := by
  have hidentity := (engine.continues_after call).identity
  intro conn hmem
  rcases (engine.after_spec call).connections conn hmem with hold | ⟨before, moved, hmoves, rfl⟩
  · exact hconnections conn hold
  · refine hsettled moved ?_
    cases hmoves with
    | connect hoffers hone => exact hmove _ _ _ _ rfl hone (hoffers.preserves hconnections hfresh)
    | handlePacket _ _ _ hoffers hone =>
      exact hmove _ _ _ _ rfl hone (hoffers.preserves hconnections hfresh)
    | handleTimeout hold helapses =>
      exact helapses.preserves (fun _ _ _ _ => hmove _ _ _ _ hidentity) (hconnections before hold)

/-- A timeout that visits every connection once, in whatever order, is a call. -/
theorem Reachable.timeout {engine : Engine} (hreachable : Reachable engine) {peers : List Hit}
    (horder : peers.Perm engine.table.peers) (now : Nat) :
    Reachable (engine.handleTimeoutIn peers now).engine :=
  after_handleTimeout horder now ▸ hreachable.after (.handleTimeout peers now)

namespace Reachable

variable {engine : Engine}

/-- What holds of a connection on which nothing has happened and is kept by every move under this
    identity holds of the connections of every engine that there is. -/
theorem connections {P : Connection → Prop} (hreachable : Reachable engine)
    (hfresh : ∀ peer address, P (Connection.fresh engine.hit peer address))
    (hmove : ∀ ctx stimulus before after, ctx.identity = engine.identity →
      before.Move ctx stimulus after → P before → P after)
    (hsettled : ∀ conn, P conn → P conn.settled) : ∀ conn ∈ engine.table.connections, P conn := by
  induction hreachable with
  | create hcreate =>
    intro conn hmem
    rw [(create_spec hcreate).2.2.1] at hmem
    exact absurd hmem List.not_mem_nil
  | @after engine hreachable call ih =>
    rw [hit_after] at hfresh
    rw [(engine.continues_after call).identity] at hmove
    exact connections_after hfresh hmove hsettled (ih hfresh hmove) call

theorem wellFormed (hreachable : Reachable engine) {conn : Connection}
    (hmem : conn ∈ engine.table.connections) : conn.WellFormed :=
  hreachable.connections (fun _ _ => Connection.wellFormed_fresh _ _ _)
    (fun _ _ _ _ _ hmove hform => hform.move hmove) (fun _ hform => hform.settled) conn hmem

/-- Between calls no connection has anything left to ask for. -/
theorem outbox_eq_nil (hreachable : Reachable engine) {conn : Connection}
    (hmem : conn ∈ engine.table.connections) : conn.outbox = [] := by
  induction hreachable with
  | create hcreate =>
    rw [(create_spec hcreate).2.2.1] at hmem
    exact absurd hmem List.not_mem_nil
  | @after engine hreachable call ih =>
    rcases (engine.after_spec call).connections conn hmem with hold | ⟨before, moved, -, rfl⟩
    · exact ih hold
    · rfl

theorem host_eq (hreachable : Reachable engine) {conn : Connection}
    (hmem : conn ∈ engine.table.connections) : conn.host = engine.hit :=
  hreachable.connections (P := fun conn => conn.host = engine.hit) (fun _ _ => rfl)
    (fun _ _ _ _ _ hmove hhost => hmove.host_eq.trans hhost) (fun _ hhost => hhost) conn hmem

/-- A datagram that is no packet lets time pass and does nothing else. -/
theorem advance (hreachable : Reachable engine) (hopen : engine.closed = false) (now : Nat) :
    Reachable (engine.advance now) := by
  have hafter : engine.after (.handlePacket [] default now) = engine.advance now := by
    change (engine.handlePacket [] default now).engine = _
    unfold handlePacket
    rw [hopen]
    rfl
  rw [← hafter]
  exact hreachable.after _

/-- There is always a secret to issue a challenge under, and the complexity is the configured
    one. -/
theorem issuer (hreachable : Reachable engine) :
    engine.issuer.complexity = engine.config.puzzleComplexity ∧
      ∃ secret, engine.issuer.window.newest? = some secret := by
  induction hreachable with
  | create hcreate =>
    obtain ⟨hconfig, -, -, -, -, -, hcomplexity, secret, hwindow⟩ := create_spec hcreate
    rw [hconfig, hwindow]
    exact ⟨hcomplexity, secret, rfl⟩
  | @after engine _ call ih =>
    rw [(engine.continues_after call).config]
    rcases engine.issuer_after call with hsame | ⟨order, now, secret, -, hrotated⟩
    · rw [hsame]
      exact ih
    · rw [hrotated]
      exact ⟨ih.1, secret, rfl⟩

end Reachable

end DietExchange.Engine
