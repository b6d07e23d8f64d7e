import DietExchange.Proofs.Engine.Completion
import DietExchange.Proofs.Engine.InPlace

namespace DietExchange

/-- What a packet makes of a connection on which nothing has happened. -/
theorem Connection.Move.of_unassociated {ctx : Context} {conn after : Connection} {packet : Packet}
    (hstate : conn.state = .unassociated) (hmove : conn.Move ctx (.packet packet) after) :
    after = conn ∨
    (∃ challenge cookie datagram, packet.kind = .i1 ∧
      (ctx.r1 conn challenge cookie).encode = .ok datagram ∧ after = conn.transmit .r1 datagram) ∨
    (∃ keys cipher, packet.kind = .i2 ∧
      ctx.validateI2 conn.host conn.peer packet = .ok (keys, cipher)) := by
  cases hmove with
  | ignore => exact .inl rfl
  | answerI1 _ hkind _ _ _ hencode => exact .inr (.inl ⟨_, _, _, hkind, hencode, rfl⟩)
  | answerI2 _ hkind hvalid => exact .inr (.inr ⟨_, _, hkind, hvalid⟩)
  | answerI2AsI1 hother | takeUpR1 hother | resendR2 hother | acceptR2 hother =>
    rw [hstate] at hother
    cases hother

namespace ConnectionTable

theorem isSome_find?_put {table : ConnectionTable} {conn : Connection} {peer : Hit} :
    ((table.put conn).find? peer).isSome ↔ conn.peer = peer ∨ (table.find? peer).isSome := by
  rw [find?_put]
  split
  · simp [*]
  · simp [*]

/-- In the place of a connection with the same peer there is no more than there was. -/
theorem size_put_of_isSome {table : ConnectionTable} {conn : Connection}
    (hsome : (table.find? conn.peer).isSome) : (table.put conn).size ≤ table.size := by
  apply size_le_of_isSome
  intro peer hpeer
  rcases isSome_find?_put.mp hpeer with rfl | hold
  · exact hsome
  · exact hold

end ConnectionTable

namespace Engine

/-- Whether a packet may open a connection with its sender at this time. -/
structure Admits (engine : Engine) (packet : Packet) (now : Nat) : Prop where
  kind : packet.kind = .i2
  receiver : packet.receiver = engine.hit
  unsolicited : engine.config.acceptUnsolicited = true
  room : engine.connectionCount < engine.config.maxConnections
  valid : ∃ keys cipher,
    (engine.context now).validateI2 engine.hit packet.sender packet = .ok (keys, cipher)

/-- Whether this is at most one datagram, and that the wire form of an R1 of ours for the sender of
    an I1, to be sent where the I1 came from. -/
def IsStatelessReply (engine : Engine) (datagram : List UInt8) (source : Address)
    (reply : List Outgoing) : Prop :=
  reply = [] ∨ ∃ (i1 r1 : Packet) (bytes : List UInt8),
    Packet.parse datagram = .ok i1 ∧ i1.kind = .i1 ∧
    r1.encode = .ok bytes ∧ r1.kind = .r1 ∧ r1.sender = engine.hit ∧ r1.receiver = i1.sender ∧
    reply = [⟨source, bytes⟩]

/-- The engine after a datagram of which nothing is kept: the time, the random stream, and what is
    to be sent at once. -/
def IsUnmovedBy (engine : Engine) (datagram : List UInt8) (source : Address)
    (after : Engine) : Prop :=
  ∃ reply, engine.IsStatelessReply datagram source reply ∧
    after = { engine with
      lastNow := after.lastNow
      rng := after.rng
      datagrams := engine.datagrams ++ reply }

variable {engine after : Engine} {datagram : List UInt8} {source : Address} {packet : Packet}

theorem isUnmovedBy_advance (engine : Engine) (datagram : List UInt8) (source : Address)
    (now : Nat) : engine.IsUnmovedBy datagram source (engine.advance now) := by
  refine ⟨[], .inl rfl, ?_⟩
  rw [List.append_nil]
  rfl

theorem isUnmovedBy_self (engine : Engine) (datagram : List UInt8) (source : Address) :
    engine.IsUnmovedBy datagram source engine := by
  refine ⟨[], .inl rfl, ?_⟩
  rw [List.append_nil]

/-- A packet for a connection that is new is an I2 that passes every check, or nothing of it is
    kept. -/
theorem deliver_fresh (engine : Engine) (hparse : Packet.parse datagram = .ok packet)
    (source : Address) :
    (packet.kind = .i2 ∧ ∃ keys cipher, (engine.context engine.lastNow).validateI2 engine.hit
      packet.sender packet = .ok (keys, cipher)) ∨
    engine.IsUnmovedBy datagram source
      (engine.deliver (Connection.fresh engine.hit packet.sender source) true packet).engine := by
  unfold deliver
  split
  · exact .inr (engine.isUnmovedBy_self datagram source)
  rename_i turn hturn
  have hmove := Turn.move_of_receive hturn
  rcases hmove.of_unassociated rfl with hsame | ⟨challenge, cookie, bytes, hkind, hencode, hreply⟩ |
    ⟨keys, cipher, hkind, hvalid⟩
  · right
    dsimp only
    rw [hsame]
    refine ⟨[], .inl rfl, ?_⟩
    rw [List.append_nil]
    rfl
  · right
    dsimp only
    rw [hreply]
    exact ⟨[⟨source, bytes⟩], .inr ⟨packet, _, bytes, hparse, hkind, hencode, rfl, rfl, rfl,
      rfl⟩, rfl⟩
  · exact .inl ⟨hkind, keys, cipher, hvalid⟩

/-- Without an I2 that may open a connection, nothing is kept of what a peer without one sends. -/
theorem isUnmovedBy_handlePacket (engine : Engine) (datagram : List UInt8) (source : Address)
    (now : Nat) (hunknown : ∀ packet, Packet.parse datagram = .ok packet →
      engine.table.find? packet.sender = none ∧ ¬engine.Admits packet (max engine.lastNow now)) :
    engine.IsUnmovedBy datagram source (engine.handlePacket datagram source now).engine := by
  unfold handlePacket
  split
  · exact engine.isUnmovedBy_self datagram source
  dsimp only
  split
  · exact engine.isUnmovedBy_advance datagram source now
  rename_i packet hparse
  obtain ⟨hnone, hrefuses⟩ := hunknown packet hparse
  split
  · exact engine.isUnmovedBy_advance datagram source now
  rename_i hreceiver
  have hfind : (engine.advance now).table.find? packet.sender = none := hnone
  unfold accept
  rw [hfind]
  dsimp only
  split
  · exact engine.isUnmovedBy_advance datagram source now
  rename_i hunsolicited
  split
  · exact engine.isUnmovedBy_advance datagram source now
  rename_i hroom
  rcases (engine.advance now).deliver_fresh hparse source with ⟨hkind, hvalid⟩ | hunmoved
  · exact absurd {
      kind := hkind
      receiver := Decidable.not_not.mp hreceiver
      unsolicited := by simpa [advance] using hunsolicited
      room := Nat.not_le.mp hroom
      valid := hvalid } hrefuses
  · exact hunmoved

/-- A call about a peer puts its connection into the table, and no other. -/
theorem Turned.isSome_find? {stimulus : Stimulus} {peer : Hit} {address : Address}
    (hturned : engine.Turned stimulus peer address after) (other : Hit) :
    ((engine.table.find? other).isSome → (after.table.find? other).isSome) ∧
    ((after.table.find? other).isSome → other = peer ∨ (engine.table.find? other).isSome) := by
  obtain ⟨-, ⟨htable, -⟩ | ⟨conn, moved, hoffers, hmove, -, -, ⟨htable, -⟩ | ⟨htable, -⟩⟩⟩ :=
    hturned.effect
  · rw [htable]
    exact ⟨id, .inr⟩
  · rw [htable, ConnectionTable.isSome_find?_put]
    have hpeer : moved.settled.peer = peer := hmove.peer_eq.trans hoffers.peer_eq
    exact ⟨.inr, Or.imp_left fun heq => heq.symm.trans hpeer⟩
  · rw [htable]
    exact ⟨id, .inr⟩

theorem IsUnmovedBy.table (hunmoved : engine.IsUnmovedBy datagram source after) :
    after.table = engine.table := by
  obtain ⟨reply, -, heq⟩ := hunmoved
  rw [heq]

/-- A connection that a datagram opens is one with its sender, and the datagram may open it. -/
theorem exists_admits {now : Nat} {peer : Hit} (hnone : engine.table.find? peer = none)
    (hsome : ((engine.handlePacket datagram source now).engine.table.find? peer).isSome) :
    ∃ packet, Packet.parse datagram = .ok packet ∧ packet.sender = peer ∧
      engine.Admits packet (max engine.lastNow now) := by
  have hmoved :
      ¬engine.IsUnmovedBy datagram source (engine.handlePacket datagram source now).engine := by
    intro hunmoved
    rw [hunmoved.table, hnone] at hsome
    cases hsome
  cases hclosed : engine.closed with
  | true =>
    refine absurd ?_ hmoved
    rw [show (engine.handlePacket datagram source now).engine =
      engine by simp [handlePacket, hclosed]]
    exact engine.isUnmovedBy_self datagram source
  | false =>
    rcases handlePacket_cases hclosed datagram source now with
      hadvance | ⟨packet, hparse, hreceiver, hturned⟩
    · refine absurd ?_ hmoved
      rw [hadvance]
      exact engine.isUnmovedBy_advance datagram source now
    rcases (hturned.isSome_find? peer).2 hsome with rfl | hold
    · refine ⟨packet, hparse, rfl, by_contra fun hrefuses => hmoved ?_⟩
      apply isUnmovedBy_handlePacket
      intro other hother
      obtain rfl := Except.ok.inj (hparse.symm.trans hother)
      exact ⟨hnone, hrefuses⟩
    · rw [show (engine.advance now).table.find? peer = none from hnone] at hold
      cases hold

/-- No call but closing takes a connection out of the table. -/
theorem isSome_find?_after {call : Call} (hcall : call ≠ .close) {peer : Hit}
    (hsome : (engine.table.find? peer).isSome) : ((engine.after call).table.find? peer).isSome := by
  have hbecomes := engine.becomes_after call
  generalize engine.after call = after at hbecomes ⊢
  cases hbecomes with
  | idle | polled | dropped => exact hsome
  | connected _ hturned | received _ _ _ hturned => exact (hturned.isSome_find? peer).1 hsome
  | elapsed _ helapsed => rwa [helapsed.find, Option.isSome_map]
  | closed => exact absurd rfl hcall

/-- Nor do any number of such calls. -/
theorem isSome_find?_run {calls : List Call} (hcalls : .close ∉ calls) {peer : Hit}
    (hsome : (engine.table.find? peer).isSome) : ((engine.run calls).table.find? peer).isSome := by
  induction calls generalizing engine with
  | nil => exact hsome
  | cons call rest ih =>
    obtain ⟨hcall, hrest⟩ := List.ne_and_not_mem_of_not_mem_cons hcalls
    exact ih hrest (isSome_find?_after hcall.symm hsome)

/-- In whatever order a timeout visits the connections, it leaves them in the table and adds
    none. -/
theorem isSome_find?_handleTimeoutIn {peers : List Hit} (horder : peers.Perm engine.table.peers)
    (now : Nat) (peer : Hit) :
    ((engine.handleTimeoutIn peers now).engine.table.find? peer).isSome ↔
      (engine.table.find? peer).isSome := by
  cases hclosed : engine.closed with
  | true => rw [handleTimeoutIn_of_closed hclosed]
  | false =>
    rw [engine_handleTimeoutIn hclosed]
    obtain ⟨issuer, entropy, timer, hrotate, -⟩ := (engine.advance now).rotateSecret_spec now
    generalize ((engine.advance now).rotateSecret now).1 = rotated at hrotate
    have htable : rotated.table = engine.table := by
      rw [hrotate]
      rfl
    obtain ⟨-, elapsed, -, hfind, -⟩ := rotated.sweepAndVisit_spec (htable ▸ horder) now
    rw [hfind, Option.isSome_map, htable]

theorem Turned.connectionCount_le {stimulus : Stimulus} {peer : Hit} {address : Address}
    (hturned : engine.Turned stimulus peer address after)
    (hle : engine.connectionCount ≤ engine.config.maxConnections) :
    after.connectionCount ≤ engine.config.maxConnections := by
  obtain ⟨-, ⟨htable, -⟩ | ⟨conn, moved, hoffers, hmove, -, -, ⟨htable, -⟩ | ⟨htable, -⟩⟩⟩ :=
    hturned.effect
  · rwa [connectionCount, htable]
  · rw [connectionCount, htable]
    rcases hoffers with hfind | ⟨-, hroom, -⟩
    · have hpeer : moved.settled.peer = peer :=
        hmove.peer_eq.trans (ConnectionTable.peer_of_find? hfind)
      have hsome : (engine.table.find? moved.settled.peer).isSome := by
        rw [hpeer, hfind]
        rfl
      exact Nat.le_trans (ConnectionTable.size_put_of_isSome hsome) hle
    · exact Nat.le_trans (ConnectionTable.size_put_le _ _) hroom
  · rwa [connectionCount, htable]

/-- A call keeps the table within its bound. -/
theorem connectionCount_after_le_maxConnections
    (hle : engine.connectionCount ≤ engine.config.maxConnections) (call : Call) :
    (engine.after call).connectionCount ≤ engine.config.maxConnections := by
  have hbecomes := engine.becomes_after call
  generalize engine.after call = after at hbecomes ⊢
  cases hbecomes with
  | idle | polled | dropped => exact hle
  | connected _ hturned | received _ _ _ hturned => exact hturned.connectionCount_le hle
  | elapsed _ helapsed =>
    refine Nat.le_trans (ConnectionTable.size_le_of_isSome fun peer hsome => ?_) hle
    rwa [helapsed.find, Option.isSome_map] at hsome
  | closed => exact Nat.zero_le _

theorem Reachable.connectionCount_le (hreachable : Reachable engine) :
    engine.connectionCount ≤ engine.config.maxConnections := by
  induction hreachable with
  | create hcreate =>
    rw [connectionCount, (create_spec hcreate).2.2.1]
    exact Nat.zero_le _
  | @after engine _ call ih =>
    rw [(engine.continues_after call).config]
    exact connectionCount_after_le_maxConnections ih call

/-- A full table takes in no other peer, whatever is called but closing. -/
theorem Reachable.find?_run_of_full (hreachable : engine.Reachable) {calls : List Call}
    (hcalls : .close ∉ calls) {peer : Hit} (hnone : engine.table.find? peer = none)
    (hfull : engine.config.maxConnections ≤ engine.connectionCount) :
    (engine.run calls).table.find? peer = none := by
  rw [← Option.not_isSome_iff_eq_none]
  intro hsome
  have hlarger : engine.connectionCount < (engine.run calls).connectionCount :=
    ConnectionTable.size_lt_of_isSome (fun _ => isSome_find?_run hcalls) hnone hsome
  have hbound := (hreachable.run calls).connectionCount_le
  rw [(engine.continues_run calls).config] at hbound
  omega

/-- Whatever datagram comes, the only connection that it may open is one with its sender, and only
    if it is an I2 to us that passes every check while peers may come unsolicited. Of any other
    datagram of a peer without a connection nothing is kept, and at most an R1 goes back to where it
    came from. This is what the call in place comes to as well, which has the connection in the
    table while it looks at the packet. The table never exceeds its bound, and only closing takes a
    connection out of it. -/
theorem only_proven_peers_enter (hreachable : Reachable engine) :
    (∀ datagram source now,
      (∀ peer, engine.table.find? peer = none →
        ((engine.handlePacket datagram source now).engine.table.find? peer).isSome →
        ∃ packet, Packet.parse datagram = .ok packet ∧ packet.sender = peer ∧
          engine.Admits packet (max engine.lastNow now)) ∧
      ((∀ packet, Packet.parse datagram = .ok packet →
          engine.table.find? packet.sender = none ∧
            ¬engine.Admits packet (max engine.lastNow now)) →
        engine.IsUnmovedBy datagram source (engine.handlePacket datagram source now).engine) ∧
      (engine.identity.HasCurveKey →
        engine.handlePacketInPlace datagram source now = engine.handlePacket datagram source now)) ∧
    engine.connectionCount ≤ engine.config.maxConnections ∧
    (∀ peer, (engine.table.find? peer).isSome →
      (∀ calls, .close ∉ calls → ((engine.run calls).table.find? peer).isSome) ∧
      ∀ peers now, peers.Perm engine.table.peers →
        ((engine.handleTimeoutIn peers now).engine.table.find? peer).isSome) := by
  refine ⟨fun datagram source now => ⟨fun peer => exists_admits,
    engine.isUnmovedBy_handlePacket datagram source now, fun hkey => ?inPlace⟩,
    hreachable.connectionCount_le, fun peer hsome =>
      ⟨fun calls hcalls => isSome_find?_run hcalls hsome,
        fun peers now horder => (isSome_find?_handleTimeoutIn horder now peer).mpr hsome⟩⟩
  case inPlace =>
    have haccept : ∀ packet, (engine.advance now).acceptInPlace packet source =
        (engine.advance now).accept packet source :=
      fun packet => acceptInPlace_eq (engine.advance now) (fun _ => hreachable.outbox_eq_nil)
        hkey packet source
    simp only [handlePacketInPlace, haccept]
    rfl

/-- The I2 of a handshake opens the responder's connection, which is what it may do. -/
theorem exists_admitted : ∃ (engine : Engine) (datagram : List UInt8) (packet : Packet),
    engine.Reachable ∧ Packet.parse datagram = .ok packet ∧
    engine.table.find? packet.sender = none ∧ engine.Admits packet (max engine.lastNow 0) ∧
    ((engine.handlePacket datagram (.ofHost 1) 0).engine.table.find? packet.sender).isSome ∧
    engine.connectionCount ≤ engine.config.maxConnections := by
  obtain ⟨initiator, hinitiator⟩ := SampleHost.exists_isNew 1
  obtain ⟨responder, hresponder⟩ := SampleHost.exists_isNew 2
  have hconforms := Handshake.conforms_sample hinitiator hresponder
  have hreachable := hconforms.reachable_beforeI2
  obtain ⟨puzzle, keys, hunderway⟩ := hconforms.underway
  obtain ⟨-, -, -, hnone, -⟩ := hconforms.challenges
  obtain ⟨-, -, -, -, conn, hfind, -⟩ := hconforms.responds hunderway
  obtain ⟨hdatagrams, hbound, -⟩ := only_proven_peers_enter hreachable
  have hsome := Option.isSome_of_eq_some hfind
  obtain ⟨packet, hparse, hsender, hadmits⟩ := (hdatagrams _ _ _).1 _ hnone hsome
  rw [← hsender] at hnone hsome
  exact ⟨_, _, packet, hreachable, hparse, hnone, hadmits, hsome, hbound⟩

end Engine

end DietExchange
