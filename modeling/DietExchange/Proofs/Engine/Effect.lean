import DietExchange.Engine.Run
import DietExchange.Proofs.Connection.Form
import Mathlib.Data.List.Nodup

namespace DietExchange

def Signal.outgoing? (address : Address) : Signal → Option Outgoing
  | .transmit datagram => some ⟨address, datagram⟩
  | _ => none

def Signal.completion? (peer : Hit) : Signal → Option Hit
  | .connected => some peer
  | _ => none

namespace Connection

/-- The datagrams that a connection asks to be sent. -/
def outgoing (conn : Connection) : List Outgoing :=
  conn.outbox.filterMap (Signal.outgoing? conn.address)

/-- The peer, as often as a connection tells that its handshake is complete. -/
def completions (conn : Connection) : List Hit :=
  conn.outbox.filterMap (Signal.completion? conn.peer)

/-- The connection when all that it asked for was done. -/
def settled (conn : Connection) : Connection := { conn with outbox := [] }

@[simp]
theorem peer_settled (conn : Connection) : conn.settled.peer = conn.peer := rfl

theorem mem_outgoing_iff {conn : Connection} {out : Outgoing} :
    out ∈ conn.outgoing ↔ out.address = conn.address ∧ .transmit out.datagram ∈ conn.outbox := by
  obtain ⟨address, datagram⟩ := out
  simp only [outgoing, List.mem_filterMap]
  constructor
  · rintro ⟨signal, hmem, hsignal⟩
    cases signal <;> simp_all [Signal.outgoing?]
  · rintro ⟨rfl, hmem⟩
    exact ⟨_, hmem, rfl⟩

/-- What a timeout can make of a connection: the sweep may reach it first. -/
def Elapses (ctx : Context) (conn after : Connection) : Prop :=
  ∃ swept held, (swept = conn ∨ conn.Move ctx .sweep swept) ∧ swept.Move ctx .hold held ∧
    held.Move ctx .search after

section Move

variable {ctx : Context} {stimulus : Stimulus} {conn after : Connection}

theorem Move.host_eq (hmove : conn.Move ctx stimulus after) : after.host = conn.host := by
  cases hmove <;> simp [transmit, holdTo, respond, conclude, emit]

theorem Move.peer_eq (hmove : conn.Move ctx stimulus after) : after.peer = conn.peer := by
  cases hmove <;> simp [transmit, holdTo, respond, conclude, emit]

end Move

/-- A property that the three moves of a timeout keep is kept by the timeout. -/
theorem Elapses.preserves {P : Connection → Prop} {ctx : Context} {conn after : Connection}
    (hmove : ∀ stimulus before later, stimulus = .sweep ∨ stimulus = .hold ∨ stimulus = .search →
      before.Move ctx stimulus later → P before → P later)
    (helapses : conn.Elapses ctx after) (hconn : P conn) : P after := by
  obtain ⟨swept, held, hsweep, hhold, hsearch⟩ := helapses
  have hswept : P swept := by
    rcases hsweep with rfl | hsweep
    · exact hconn
    · exact hmove .sweep conn swept (.inl rfl) hsweep hconn
  exact hmove .search held after (.inr (.inr rfl)) hsearch
    (hmove .hold swept held (.inr (.inl rfl)) hhold hswept)

theorem Elapses.peer_eq {ctx : Context} {conn after : Connection}
    (helapses : conn.Elapses ctx after) : after.peer = conn.peer :=
  helapses.preserves (P := fun later => later.peer = conn.peer)
    (fun _ _ _ _ hmove heq => hmove.peer_eq.trans heq) rfl

end Connection

namespace ConnectionTable

theorem find?_eq_some_iff {table : ConnectionTable} {peer : Hit} {conn : Connection} :
    table.find? peer = some conn ↔ conn ∈ table.connections ∧ conn.peer = peer := by
  constructor
  · intro hfind
    exact ⟨List.mem_of_find?_eq_some hfind, peer_of_find? hfind⟩
  · rintro ⟨hmem, rfl⟩
    have hsome : (table.find? conn.peer).isSome :=
      find?_isSome_iff.mpr (List.mem_map_of_mem hmem)
    obtain ⟨found, hfound⟩ := Option.isSome_iff_exists.mp hsome
    have hsame : found = conn := List.inj_on_of_nodup_map table.nodup
      (List.mem_of_find?_eq_some hfound) hmem (peer_of_find? hfound)
    rw [hfound, hsame]

theorem find?_eq_none_of_not_mem {table : ConnectionTable} {peer : Hit}
    (hmem : peer ∉ table.peers) : table.find? peer = none := by
  rw [← Option.not_isSome_iff_eq_none]
  intro hsome
  exact hmem (find?_isSome_iff.mp hsome)

/-- An order that names every peer once is kept. -/
theorem visits_of_perm {table : ConnectionTable} {order : List Hit}
    (horder : order.Perm table.peers) : table.visits order = order := by
  let before (a b : Hit) : Bool := order.idxOf a ≤ order.idxOf b
  have htrans : ∀ a b c, before a b = true → before b c = true → before a c = true := by
    simpa [before] using fun a b c => Nat.le_trans
  have htotal : ∀ a b, (before a b || before b a) = true := by
    simpa [before] using fun a b => Nat.le_total _ _
  have hsorted : (table.visits order).Pairwise fun a b => order.idxOf a ≤ order.idxOf b := by
    simpa [before] using! List.pairwise_mergeSort htrans htotal table.peers
  have hplaced : order.Pairwise fun a b => order.idxOf a ≤ order.idxOf b := by
    have hnodup : order.Nodup := horder.nodup_iff.mpr table.nodup
    rw [List.pairwise_iff_getElem]
    intro i j hi hj hlt
    rw [hnodup.idxOf_getElem, hnodup.idxOf_getElem]
    exact Nat.le_of_lt hlt
  have hperm := (table.visits_perm order).trans horder.symm
  refine hperm.eq_of_pairwise (fun a b hmem _ hab hba => ?_) hsorted hplaced
  exact (List.idxOf_inj (hperm.subset hmem)).mp (Nat.le_antisymm hab hba)

theorem filterMap_find?_peers (table : ConnectionTable) :
    table.peers.filterMap table.find? = table.connections := by
  have hfind : ∀ conn ∈ table.connections, (table.find? ∘ Connection.peer) conn = some conn :=
    fun conn hmem => find?_eq_some_iff.mpr ⟨hmem, rfl⟩
  rw [peers, List.filterMap_map, List.filterMap_congr hfind, List.filterMap_some]

/-- The connections in the order in which their peers are visited. -/
theorem filterMap_find?_perm {table : ConnectionTable} {peers : List Hit}
    (horder : peers.Perm table.peers) : (peers.filterMap table.find?).Perm table.connections :=
  table.filterMap_find?_peers ▸ horder.filterMap table.find?

/-- To put what is there already changes nothing. -/
theorem put_of_find? {table : ConnectionTable} {conn : Connection}
    (hfind : table.find? conn.peer = some conn) : table.put conn = table := by
  obtain ⟨hmem, -⟩ := find?_eq_some_iff.mp hfind
  have hpeer : conn.peer ∈ table.connections.map Connection.peer := List.mem_map_of_mem hmem
  have hreplace : replace conn table.connections = table.connections := by
    refine (List.map_congr_left ?_).trans (List.map_id _)
    intro old hold
    split
    · rename_i hsame
      exact (List.inj_on_of_nodup_map table.nodup hold hmem hsame).symm
    · rfl
  unfold put
  rw [dif_pos hpeer]
  cases table
  simpa only [mk.injEq] using hreplace

section Put

variable {table : ConnectionTable} {conn : Connection}

theorem eq_of_connections {left right : ConnectionTable}
    (heq : left.connections = right.connections) :
    left = right := by
  cases left
  cases right
  simpa only [mk.injEq] using heq

theorem connections_put_of_mem (hmem : conn.peer ∈ table.connections.map Connection.peer) :
    (table.put conn).connections = replace conn table.connections := by
  rw [put, dif_pos hmem]

theorem connections_put_of_not_mem (hmem : conn.peer ∉ table.connections.map Connection.peer) :
    (table.put conn).connections = table.connections ++ [conn] := by
  rw [put, dif_neg hmem]

theorem replace_of_not_mem {connections : List Connection}
    (hmem : conn.peer ∉ connections.map Connection.peer) : replace conn connections =
      connections := by
  refine (List.map_congr_left fun old hold => if_neg ?_).trans (List.map_id _)
  intro hsame
  exact hmem (hsame ▸ List.mem_map_of_mem hold)

theorem replace_replace {first second : Connection} (hpeer : second.peer = first.peer)
    (connections : List Connection) :
    replace second (replace first connections) = replace second connections := by
  simp only [replace, List.map_map]
  refine List.map_congr_left fun old _ => ?_
  simp only [Function.comp_apply]
  split
  · rename_i hold
    rw [if_pos hpeer.symm, if_pos (hold.trans hpeer.symm)]
  · rfl

/-- Of two connections with one peer, the one put last is kept. -/
theorem put_put (table : ConnectionTable) {first second : Connection}
    (hpeer : second.peer = first.peer) : (table.put first).put second = table.put second := by
  apply eq_of_connections
  by_cases hmem : first.peer ∈ table.connections.map Connection.peer
  · have hfirst := connections_put_of_mem hmem
    have hkept : second.peer ∈ (table.put first).connections.map Connection.peer := by
      rwa [hfirst, map_peer_replace, hpeer]
    rw [connections_put_of_mem hkept, hfirst, replace_replace hpeer,
      connections_put_of_mem (hpeer ▸ hmem)]
  · have hfirst := connections_put_of_not_mem hmem
    have hkept : second.peer ∈ (table.put first).connections.map Connection.peer := by
      simp [hfirst, hpeer]
    have hnew : second.peer ∉ table.connections.map Connection.peer := hpeer ▸ hmem
    have hlast : replace second [first] = [second] := by simp [replace, hpeer]
    rw [connections_put_of_mem hkept, hfirst, replace, List.map_append, ← replace, ← replace,
      replace_of_not_mem hnew, hlast, connections_put_of_not_mem hnew]

/-- To put a connection where there is one changes no peer, nor their order. -/
theorem peers_put (hmem : conn.peer ∈ table.peers) : (table.put conn).peers = table.peers := by
  unfold peers
  rw [connections_put_of_mem hmem]
  exact map_peer_replace conn table.connections

theorem mem_peers_of_find? {peer : Hit} (hfind : table.find? peer = some conn) :
    peer ∈ table.peers :=
  find?_isSome_iff.mp (by rw [hfind]; rfl)

/-- A table is its peers, in their order, and the connection with each. -/
theorem eq_of_find? {one other : ConnectionTable} (hpeers : one.peers = other.peers)
    (hfind : ∀ peer, one.find? peer = other.find? peer) : one = other := by
  apply eq_of_connections
  rw [← one.filterMap_find?_peers, ← other.filterMap_find?_peers, hpeers]
  exact List.filterMap_congr fun peer _ => hfind peer

end Put

end ConnectionTable

namespace Engine

theorem state?_of_find? {engine : Engine} {peer : Hit} {conn : Connection} {state : State}
    (hfind : engine.table.find? peer = some conn) (hstate : conn.state = state) :
    engine.state? peer = some state := by
  rw [state?, hfind, ← hstate]
  rfl

theorem keys?_of_find? {engine : Engine} {peer : Hit} {conn : Connection} {keys : Option KeySet}
    (hfind : engine.table.find? peer = some conn) (hkeys : conn.keys = keys) :
    engine.keys? peer = keys := by
  rw [keys?, hfind, ← hkeys]
  rfl

/-- What two engines have in common of which one comes of the other without the passing of time. -/
structure SameHost (old new : Engine) : Prop where
  config : new.config = old.config
  identity : new.identity = old.identity
  entropy : new.entropy = old.entropy
  issuer : new.issuer = old.issuer
  lastNow : new.lastNow = old.lastNow
  closed : new.closed = old.closed

theorem SameHost.refl (engine : Engine) : SameHost engine engine := ⟨rfl, rfl, rfl, rfl, rfl, rfl⟩

theorem SameHost.trans {first second third : Engine} (hold : SameHost first second)
    (hnew : SameHost second third) : SameHost first third :=
  ⟨hnew.config.trans hold.config, hnew.identity.trans hold.identity,
    hnew.entropy.trans hold.entropy, hnew.issuer.trans hold.issuer, hnew.lastNow.trans hold.lastNow,
      hnew.closed.trans hold.closed⟩

theorem SameHost.context_eq {old new : Engine} (hsame : SameHost old new) (now : Nat) :
    new.context now = old.context now := by
  simp only [context, hsame.config, hsame.identity, hsame.issuer]

/-- To do what a connection asks for changes the queues and how the sweep stands. -/
theorem obeyAll_eq (engine : Engine) (peer : Hit) (address : Address) (signals : List Signal) :
    ∃ count timer, (engine.obeyAll peer address signals).1 = { engine with
      datagrams := engine.datagrams ++ signals.filterMap (Signal.outgoing? address)
      established := engine.established ++ signals.filterMap (Signal.completion? peer)
      retransmitting := count
      retransmissionTimer := timer } := by
  induction signals generalizing engine with
  | nil => exact ⟨engine.retransmitting, engine.retransmissionTimer, by simp [obeyAll]⟩
  | cons signal rest ih =>
    have hone : ∃ count timer, (engine.obey peer address signal).1 = { engine with
        datagrams := engine.datagrams ++ (Signal.outgoing? address signal).toList
        established := engine.established ++ (Signal.completion? peer signal).toList
        retransmitting := count
        retransmissionTimer := timer } := by
      cases signal with
      | transmit | connected =>
        exact ⟨engine.retransmitting, engine.retransmissionTimer,
          by simp [obey, Signal.outgoing?, Signal.completion?]⟩
      | startRetransmission =>
        simp only [obey, beginRetransmission, Signal.outgoing?, Signal.completion?,
          Option.toList_none, List.append_nil]
        split <;> exact ⟨_, _, rfl⟩
      | stopRetransmission =>
        simp only [obey, endRetransmission, Signal.outgoing?, Signal.completion?,
          Option.toList_none, List.append_nil]
        split <;> exact ⟨_, _, rfl⟩
    obtain ⟨_, _, hfirst⟩ := hone
    obtain ⟨count, timer, hrest⟩ := ih (engine.obey peer address signal).1
    refine ⟨count, timer, ?_⟩
    change ((engine.obey peer address signal).1.obeyAll peer address rest).1 = _
    rw [hrest, hfirst]
    cases signal <;> simp [Signal.outgoing?, Signal.completion?, List.filterMap_cons]

theorem table_obeyAll (engine : Engine) (peer : Hit) (address : Address) (signals : List Signal) :
    (engine.obeyAll peer address signals).1.table = engine.table := by
  obtain ⟨count, timer, heq⟩ := engine.obeyAll_eq peer address signals
  rw [heq]

theorem table_settle (engine : Engine) (conn : Connection) :
    (engine.settle conn).1.table = engine.table.put conn.settled :=
  congrArg (·.put conn.settled) (engine.table_obeyAll conn.peer conn.address conn.outbox)

theorem settle_eq (engine : Engine) (conn : Connection) :
    ∃ count timer, (engine.settle conn).1 = { engine with
      table := engine.table.put conn.settled
      datagrams := engine.datagrams ++ conn.outgoing
      established := engine.established ++ conn.completions
      retransmitting := count
      retransmissionTimer := timer } := by
  obtain ⟨count, timer, hobey⟩ := engine.obeyAll_eq conn.peer conn.address conn.outbox
  refine ⟨count, timer, ?_⟩
  change { (engine.obeyAll conn.peer conn.address conn.outbox).1 with
    table := (engine.obeyAll conn.peer conn.address conn.outbox).1.table.put conn.settled } = _
  rw [hobey]
  rfl

theorem forget_eq (engine : Engine) (conn : Connection) :
    ∃ count timer, (engine.forget conn).1 = { engine with
      datagrams := engine.datagrams ++ conn.outgoing
      established := engine.established ++ conn.completions
      retransmitting := count
      retransmissionTimer := timer } :=
  engine.obeyAll_eq conn.peer conn.address conn.outbox

/-- The connection that a call about a peer works on: the one there is, or a new one if there is
    room for it. -/
def Offers (engine : Engine) (peer : Hit) (address : Address) (conn : Connection) : Prop :=
  engine.table.find? peer = some conn ∨
    (engine.table.find? peer = none ∧ engine.connectionCount < engine.config.maxConnections ∧
      conn = Connection.fresh engine.hit peer address)

/-- What a call that concerns one connection makes of an engine. -/
inductive Turned (engine : Engine) (stimulus : Stimulus) (peer : Hit) (address : Address) :
    Engine → Prop where
  | quiet : Turned engine stimulus peer address engine
  | kept {conn after : Connection} {rng : RandomStream} (hoffers : engine.Offers peer address conn)
    (hnew : engine.table.find? peer = none → after.state ≠ .unassociated)
    (hmove : conn.Move (engine.context engine.lastNow) stimulus after) :
    Turned engine stimulus peer address ({ engine with rng := rng }.settle after).1
  | forgotten {conn after : Connection} {rng : RandomStream}
    (hoffers : engine.Offers peer address conn) (hnone : engine.table.find? peer = none)
    (hmove : conn.Move (engine.context engine.lastNow) stimulus after)
    (hstate : after.state = .unassociated) :
    Turned engine stimulus peer address ({ engine with rng := rng }.forget after).1

theorem Offers.peer_eq {engine : Engine} {peer : Hit} {address : Address} {conn : Connection}
    (hoffers : engine.Offers peer address conn) : conn.peer = peer := by
  rcases hoffers with hfind | ⟨-, -, rfl⟩
  · exact ConnectionTable.peer_of_find? hfind
  · rfl

/-- Only the queues and the table change, and by one connection at most. A new one is kept exactly
    if something was made of it. -/
theorem Turned.effect {engine after : Engine} {stimulus : Stimulus} {peer : Hit} {address : Address}
    (hturned : engine.Turned stimulus peer address after) : SameHost engine after ∧
      ((after.table = engine.table ∧ after.datagrams = engine.datagrams ∧
        after.established = engine.established) ∨
      ∃ conn moved, engine.Offers peer address conn ∧
        conn.Move (engine.context engine.lastNow) stimulus moved ∧
        after.datagrams = engine.datagrams ++ moved.outgoing ∧
        after.established = engine.established ++ moved.completions ∧
        ((after.table = engine.table.put moved.settled ∧
            (engine.table.find? peer = none → moved.state ≠ .unassociated)) ∨
          (after.table = engine.table ∧ engine.table.find? peer = none ∧
            moved.state = .unassociated))) := by
  cases hturned with
  | quiet => exact ⟨.refl engine, .inl ⟨rfl, rfl, rfl⟩⟩
  | @kept conn moved rng hoffers hnew hmove =>
    obtain ⟨count, timer, hsettle⟩ := settle_eq { engine with rng := rng } moved
    rw [hsettle]
    exact ⟨⟨rfl, rfl, rfl, rfl, rfl, rfl⟩,
      .inr ⟨conn, moved, hoffers, hmove, rfl, rfl, .inl ⟨rfl, hnew⟩⟩⟩
  | @forgotten conn moved rng hoffers hnone hmove hstate =>
    obtain ⟨count, timer, hforget⟩ := forget_eq { engine with rng := rng } moved
    rw [hforget]
    exact ⟨⟨rfl, rfl, rfl, rfl, rfl, rfl⟩,
      .inr ⟨conn, moved, hoffers, hmove, rfl, rfl, .inr ⟨rfl, hnone, hstate⟩⟩⟩

/-- What a call about one peer makes of the connection with any: nothing, or a move if it is that
    peer. -/
theorem Turned.find?_cases {engine after : Engine} {stimulus : Stimulus} {peer : Hit}
    {address : Address} (hturned : engine.Turned stimulus peer address after) (other : Hit) :
    after.table.find? other = engine.table.find? other ∨ (other = peer ∧ ∃ conn moved,
      engine.Offers peer address conn ∧
      conn.Move (engine.context engine.lastNow) stimulus moved ∧
      after.table.find? peer = some moved.settled ∧
      (engine.table.find? peer = none → moved.state ≠ .unassociated)) := by
  obtain ⟨-, ⟨htable, -⟩ | ⟨conn, moved, hoffers, hmove, -, -, ⟨htable, hnew⟩ | ⟨htable, -⟩⟩⟩ :=
    hturned.effect
  · exact .inl (by rw [htable])
  · have hpeer : moved.settled.peer = peer := hmove.peer_eq.trans hoffers.peer_eq
    by_cases hother : other = peer
    · subst hother
      exact .inr ⟨rfl, conn, moved, hoffers, hmove,
        by rw [htable, ConnectionTable.find?_put, if_pos hpeer], hnew⟩
    · left
      rw [htable, ConnectionTable.find?_put, if_neg fun heq => hother (heq.symm.trans hpeer)]
  · exact .inl (by rw [htable])

theorem turned_initiate (engine : Engine) {peer : Hit} {address : Address} {conn : Connection}
    (hoffers : engine.Offers peer address conn) :
    engine.Turned .initiate peer address (engine.initiate conn).engine := by
  unfold initiate
  split
  · exact .quiet
  · rename_i turn hturn
    have hmove := Turn.move_of_initiate hturn
    have hstate : turn.conn.state = .i1Sent := by
      generalize turn.conn = after at hmove
      cases hmove
      exact Connection.state_moveTo _ _
    exact .kept hoffers (fun _ => by simp [hstate]) hmove

/-- A connect that is not refused at once moves the connection with that peer, known or new. -/
theorem connect_cases {engine : Engine} (hopen : engine.closed = false) (peer : Hit)
    (address : Address) (now : Nat) :
    (engine.advance now).Turned .initiate peer address
      (engine.connect peer address now).engine := by
  unfold connect
  rw [hopen, if_neg Bool.false_ne_true]
  dsimp only
  split
  · exact .quiet
  · split
    · rename_i conn hfind
      exact turned_initiate _ (.inl hfind)
    · rename_i hnone
      split
      · exact .quiet
      · rename_i hroom
        exact turned_initiate _ (.inr ⟨hnone, Nat.not_le.mp hroom, rfl⟩)

/-- A connect to ourselves is refused. -/
theorem connect_ownHit (engine : Engine) (address : Address) (now : Nat) :
    (engine.connect engine.hit address now).engine.table = engine.table := by
  unfold connect
  split
  · rfl
  · dsimp only
    rw [if_pos (show engine.hit = (engine.advance now).hit from rfl)]
    rfl

theorem turned_deliver (engine : Engine) {packet : Packet} {source : Address} {conn : Connection}
    {isNew : Bool} (hoffers : engine.Offers packet.sender source conn)
    (hnew : isNew = true ↔ engine.table.find? packet.sender = none) :
    engine.Turned (.packet packet) packet.sender source
      (engine.deliver conn isNew packet).engine := by
  unfold deliver
  split
  · exact .quiet
  · rename_i turn hturn
    have hmove := Turn.move_of_receive hturn
    dsimp only
    split
    · rename_i hforget
      simp only [Bool.and_eq_true, beq_iff_eq] at hforget
      exact .forgotten hoffers (hnew.mp hforget.1) hmove hforget.2
    · rename_i hkeep
      refine .kept hoffers (fun hnone hstate => hkeep ?_) hmove
      rw [hnew.mpr hnone, hstate]
      rfl

/-- A datagram that is a packet for us may move the connection with its sender, known or new; any
    other is dropped. -/
theorem handlePacket_cases {engine : Engine} (hopen : engine.closed = false) (datagram : List UInt8)
    (source : Address) (now : Nat) :
    (engine.handlePacket datagram source now).engine = engine.advance now ∨
      ∃ packet, Packet.parse datagram = .ok packet ∧ packet.receiver = engine.hit ∧
        (engine.advance now).Turned (.packet packet) packet.sender source
          (engine.handlePacket datagram source now).engine := by
  unfold handlePacket
  rw [hopen, if_neg Bool.false_ne_true]
  dsimp only
  split
  · exact .inl rfl
  · rename_i packet hparse
    split
    · exact .inl rfl
    · rename_i hreceiver
      refine .inr ⟨packet, hparse, Decidable.not_not.mp hreceiver, ?_⟩
      unfold accept
      split
      · rename_i conn hfind
        exact turned_deliver _ (.inl hfind) (by simp [hfind])
      · rename_i hnone
        split
        · exact .quiet
        · split
          · exact .quiet
          · rename_i hroom
            exact turned_deliver _ (.inr ⟨hnone, Nat.not_le.mp hroom, rfl⟩) (by simp [hnone])

end Engine

end DietExchange
