import DietExchange.Proofs.Engine.History
import DietExchange.Proofs.Packet.Stepwise

namespace DietExchange

namespace Packet

/-- Whether a datagram has the header of a packet of this kind for this receiver. -/
def IsMarked (kind : PacketKind) (receiver : Hit) (datagram : List UInt8) : Prop :=
  datagram[2]? = some kind.code ∧ (datagram.drop 24).take 16 = receiver.toBytes

theorem isMarked_of_encode {packet : Packet} {datagram : List UInt8}
    (hencode : packet.encode = .ok datagram) : IsMarked packet.kind packet.receiver datagram := by
  obtain ⟨body, -, hfits⟩ := bind_eq_ok_iff.mp hencode
  obtain ⟨-, hbytes⟩ := ite_error_eq_ok_iff.mp hfits
  obtain rfl := Except.ok.inj hbytes
  exact ⟨rfl, Header.take_drop_receiver _ _⟩

/-- The mark tells the kind. -/
theorem IsMarked.kind_eq {first second : PacketKind} {receiver other : Hit} {datagram : List UInt8}
    (hfirst : IsMarked first receiver datagram) (hsecond : IsMarked second other datagram) :
    first = second := by
  have hcode := Option.some.inj (hfirst.1.symm.trans hsecond.1)
  cases first <;> cases second <;> first | rfl | exact absurd hcode (by decide)

end Packet

/-- Whether the header of a datagram names this host as the receiver. -/
def Outgoing.Names (peer : Hit) (out : Outgoing) : Prop :=
    (out.datagram.drop 24).take 16 = peer.toBytes

instance (peer : Hit) (out : Outgoing) : Decidable (out.Names peer) :=
  inferInstanceAs (Decidable ((out.datagram.drop 24).take 16 = peer.toBytes))

/-- The datagrams that are for this peer. -/
def mailTo (peer : Hit) (mail : List Outgoing) : List Outgoing :=
    mail.filter fun out => out.Names peer

@[simp]
theorem mailTo_append (peer : Hit) (front back : List Outgoing) :
    mailTo peer (front ++ back) = mailTo peer front ++ mailTo peer back := List.filter_append ..

/-- Of datagrams for one peer, all or none are for another. -/
theorem mailTo_of_names {peer : Hit} {mail : List Outgoing} (hnames : ∀ out ∈ mail, out.Names peer)
    (other : Hit) : mailTo other mail = if peer = other then mail else [] := by
  split
  · rename_i heq
    subst heq
    exact List.filter_eq_self.mpr fun out hmem => decide_eq_true (hnames out hmem)
  · rename_i hne
    refine List.filter_eq_nil_iff.mpr fun out hmem => ?_
    rw [decide_eq_true_eq]
    intro hother
    exact hne (Hit.eq_of_toBytes_eq ((hnames out hmem).symm.trans hother))

section FlatMap

variable {connections : List Connection} {asked : Connection → List Outgoing}
  (hnames : ∀ conn ∈ connections, ∀ out ∈ asked conn, out.Names conn.peer)
include hnames

theorem mailTo_flatMap_of_not_mem {peer : Hit} (hnone : peer ∉ connections.map Connection.peer) :
    mailTo peer (connections.flatMap asked) = [] := by
  refine List.filter_eq_nil_iff.mpr fun out hmem => ?_
  rw [decide_eq_true_eq]
  intro hpeer
  obtain ⟨conn, hconn, hout⟩ := List.mem_flatMap.mp hmem
  apply hnone
  rw [Hit.eq_of_toBytes_eq (hpeer.symm.trans (hnames conn hconn out hout))]
  exact List.mem_map_of_mem hconn

/-- What connections with different peers ask for is for this peer where its connection asks for
    it. -/
theorem mailTo_flatMap_of_mem (hnodup : (connections.map Connection.peer).Nodup) {conn : Connection}
    (hmem : conn ∈ connections) : mailTo conn.peer (connections.flatMap asked) = asked conn := by
  induction connections with
  | nil => exact absurd hmem List.not_mem_nil
  | cons first rest ih =>
    obtain ⟨hfirst, hrest⟩ := List.nodup_cons.mp hnodup
    obtain ⟨hnamesFirst, hnamesRest⟩ := List.forall_mem_cons.mp hnames
    rw [List.flatMap_cons, mailTo_append, mailTo_of_names hnamesFirst]
    rcases List.mem_cons.mp hmem with rfl | hmem
    · rw [if_pos rfl, mailTo_flatMap_of_not_mem hnamesRest hfirst, List.append_nil]
    · have hne : first.peer ≠ conn.peer := fun heq => hfirst (heq ▸ List.mem_map_of_mem hmem)
      rw [if_neg hne, List.nil_append, ih hnamesRest hrest hmem]

end FlatMap

namespace Connection

/-- Whether the last packet has its kind and the peer in its header. -/
def Marks (conn : Connection) : Prop :=
  ∀ sent, conn.lastSent = some sent → Packet.IsMarked sent.kind conn.peer sent.datagram

theorem marks_fresh (host peer : Hit) (address : Address) : (fresh host peer address).Marks := by
  intro sent hsent
  cases hsent

section Outgoing

variable (conn : Connection)

@[simp]
theorem outgoing_moveTo (next : State) : (conn.moveTo next).outgoing = conn.outgoing := by
  have hsweep : (sweepSignals conn.state next).filterMap (Signal.outgoing? conn.address) = [] := by
    unfold sweepSignals
    split <;> rfl
  unfold outgoing moveTo
  split
  · rfl
  · rw [List.filterMap_append, hsweep, List.append_nil]

@[simp]
theorem outgoing_transmit (kind : PacketKind) (datagram : List UInt8) :
    (conn.transmit kind datagram).outgoing = conn.outgoing ++ [⟨conn.address, datagram⟩] := by
  simp [transmit, outgoing, Signal.outgoing?]

@[simp]
theorem outgoing_emit_transmit (datagram : List UInt8) :
    (conn.emit (.transmit datagram)).outgoing = conn.outgoing ++ [⟨conn.address, datagram⟩] := by
  simp [emit, outgoing, Signal.outgoing?]

@[simp]
theorem outgoing_emit_connected : (conn.emit .connected).outgoing = conn.outgoing := by
  simp [emit, outgoing, Signal.outgoing?]

end Outgoing

variable {ctx : Context} {stimulus : Stimulus} {conn moved : Connection}

theorem outgoing_of_outbox (houtbox : conn.outbox = []) : conn.outgoing = [] := by
  rw [outgoing, houtbox, List.filterMap_nil]

theorem Sends.isMarked {kind : PacketKind} {datagram : List UInt8}
    (hsends : conn.Sends ctx kind datagram) : Packet.IsMarked kind conn.peer datagram := by
  cases hsends with
  | i1 hencode | r1 hencode => exact Packet.isMarked_of_encode hencode
  | @i2 _ _ _ _ echo _ hseal hencode =>
    obtain ⟨hkind, -, hreceiver⟩ := Context.header_i2 echo hseal
    rw [← hkind, ← hreceiver]
    exact Packet.isMarked_of_encode hencode
  | r2 hseal hencode =>
    obtain ⟨hkind, -, hreceiver⟩ := Context.header_r2 hseal
    rw [← hkind, ← hreceiver]
    exact Packet.isMarked_of_encode hencode

theorem Marks.move (hmove : conn.Move ctx stimulus moved) (hmarks : conn.Marks) : moved.Marks := by
  intro sent hsent
  rw [hmove.peer_eq]
  rcases hmove.lastSent_cases with hsame | ⟨kind, datagram, hsends, hnew⟩
  · exact hmarks sent (hsame.symm.trans hsent)
  · obtain rfl := Option.some.inj (hnew.symm.trans hsent)
    exact hsends.isMarked

/-- The peer stays where it is reached. -/
theorem Move.address_eq (hmove : conn.Move ctx stimulus moved) : moved.address = conn.address := by
  cases hmove <;> simp [transmit, holdTo, respond, conclude, emit]

/-- A move asks for nothing to be sent, or for one datagram, which is the last packet then. -/
theorem Move.outgoing_cases (hmove : conn.Move ctx stimulus moved) (houtbox : conn.outbox = []) :
    (moved.outgoing = [] ∧ moved.lastSent = conn.lastSent) ∨
      ∃ sent, moved.lastSent = some sent ∧ moved.outgoing = [⟨conn.address, sent.datagram⟩] := by
  have hnone := outgoing_of_outbox houtbox
  cases hmove with
  | ignore | wait | rest | takeUpR1 | search | lose => exact .inl ⟨hnone, rfl⟩
  | acceptR2 => exact .inl ⟨by simp [hnone], lastSent_moveTo _ _⟩
  | establish =>
    exact .inl ⟨(outgoing_emit_connected _).trans ((outgoing_moveTo _ _).trans hnone),
      lastSent_moveTo _ _⟩
  | giveUp => exact .inl ⟨(outgoing_moveTo _ _).trans hnone, lastSent_moveTo _ _⟩
  | initiate => exact .inr ⟨_, lastSent_moveTo _ _, by simp [hnone]⟩
  | answerI1 => exact .inr ⟨_, rfl, by simp [hnone]⟩
  | answerI2AsI1 =>
      exact .inr ⟨_, lastSent_moveTo _ _, (outgoing_moveTo _ _).trans (by simp [hnone])⟩
  | answerI2 =>
    refine .inr ⟨_, lastSent_moveTo _ _, (outgoing_moveTo _ _).trans ?_⟩
    exact (outgoing_transmit conn .r2 _).trans (by rw [hnone]; rfl)
  | solve =>
    refine .inr ⟨_, lastSent_moveTo _ _, (outgoing_moveTo _ _).trans ?_⟩
    exact (outgoing_transmit { conn with pending := none } .i2 _).trans (congrArg (· ++ _) hnone)
  | resendR2 _ _ _ hsame =>
    exact .inr ⟨_, lastSent_of_sameR2? hsame,
      (outgoing_emit_transmit conn _).trans (by rw [hnone]; rfl)⟩
  | resend _ _ hsent => exact .inr ⟨_, hsent, by simp [hnone]⟩

/-- What makes something of a new connection sends a packet. -/
theorem Move.lastSent_of_fresh {host peer : Hit} {address : Address}
    (hmove : (fresh host peer address).Move ctx stimulus moved)
    (hstate : moved.state ≠ .unassociated) : moved.lastSent ≠ none := by
  cases hmove with
  | initiate | answerI2 => simp [respond, holdTo, transmit]
  | ignore | wait | rest | answerI1 => exact absurd rfl hstate
  | answerI2AsI1 hfresh | takeUpR1 hfresh | resendR2 hfresh | acceptR2 hfresh | resend hfresh =>
    simp [fresh, State.needsRetransmission] at hfresh
  | establish hfresh | giveUp hfresh | search hfresh | solve hfresh | lose hfresh => cases hfresh

/-- So all that a move asks for is for the peer. -/
theorem Move.names_of_outgoing (hmove : conn.Move ctx stimulus moved) (houtbox : conn.outbox = [])
    (hmarks : conn.Marks) : ∀ out ∈ moved.outgoing, out.Names conn.peer := by
  intro out hout
  rcases hmove.outgoing_cases houtbox with ⟨hnone, -⟩ | ⟨sent, hsent, hone⟩
  · rw [hnone] at hout
    exact absurd hout List.not_mem_nil
  · rw [hone, List.mem_singleton] at hout
    rw [hout, ← hmove.peer_eq]
    exact (hmarks.move hmove sent hsent).2

end Connection

namespace Engine

/-- The datagrams that an action queues. -/
def mailedBy (engine : Engine) (action : Action) : List Outgoing :=
  (engine.act action).datagrams.drop engine.datagrams.length

/-- The datagrams that several actions queue. -/
def mailedIn (engine : Engine) : List Action → List Outgoing
  | [] => []
  | action :: rest => engine.mailedBy action ++ (engine.act action).mailedIn rest

theorem mailedIn_append (engine : Engine) (front back : List Action) :
    engine.mailedIn (front ++ back) = engine.mailedIn front ++
      (engine.actAll front).mailedIn back := by
  induction front generalizing engine with
  | nil => rfl
  | cons action rest ih => rw [List.cons_append, mailedIn, ih, mailedIn, List.append_assoc]; rfl

theorem mailedIn_singleton (engine : Engine) (action : Action) :
    engine.mailedIn [action] = engine.mailedBy action := List.append_nil _

section Mail

variable {engine : Engine} {action : Action} {peer : Hit}

theorem mailedBy_of_append {new : List Outgoing}
    (hafter : (engine.act action).datagrams = engine.datagrams ++ new) :
      engine.mailedBy action = new := by
  rw [mailedBy, hafter, List.drop_left]

/-- A call about one peer takes nothing back that is queued. -/
theorem Turned.exists_datagrams {stimulus : Stimulus} {address : Address} {after : Engine}
    (hturned : engine.Turned stimulus peer address after) :
    ∃ new, after.datagrams = engine.datagrams ++ new := by
  obtain ⟨-, ⟨-, hsame, -⟩ | ⟨_, _, -, -, hmore, -⟩⟩ := hturned.effect
  · exact ⟨[], hsame.trans (List.append_nil _).symm⟩
  · exact ⟨_, hmore⟩

/-- What an action does about the connection with one peer, and what it mails to the peer. A new
    connection is kept if something was made of it. -/
inductive Concerns (engine : Engine) (action : Action) (peer : Hit) : Prop where
  | spared (hafter : (engine.act action).table.find? peer = engine.table.find? peer)
    (hmail : mailTo peer (engine.mailedBy action) = [])
  | moved {ctx : Context} {stimulus : Stimulus} {conn moved : Connection}
    (hfind : engine.table.find? peer = some conn) (hmove : conn.Move ctx stimulus moved)
    (hafter : (engine.act action).table.find? peer = some moved.settled)
    (hmail : mailTo peer (engine.mailedBy action) = moved.outgoing)
  | opened {ctx : Context} {stimulus : Stimulus} {address : Address} {moved : Connection}
    (hnone : engine.table.find? peer = none)
    (hmove : (Connection.fresh engine.hit peer address).Move ctx stimulus moved)
    (hstate : moved.state ≠ .unassociated)
    (hafter : (engine.act action).table.find? peer = some moved.settled)
    (hmail : mailTo peer (engine.mailedBy action) = moved.outgoing)
  | answered (hnone : engine.table.find? peer = none)
    (hafter : (engine.act action).table.find? peer = none)

variable (hreachable : Reachable engine)

include hreachable in
theorem Reachable.marks {conn : Connection} (hmem : conn ∈ engine.table.connections) :
    conn.Marks :=
  hreachable.connections (P := Connection.Marks) (fun _ _ => Connection.marks_fresh _ _ _)
    (fun _ _ _ _ _ hmove hmarks => hmarks.move hmove) (fun _ hmarks => hmarks) conn hmem

include hreachable in
/-- A call about one peer. -/
theorem concerns_of_turned {stimulus : Stimulus} {other : Hit} {address : Address} {now : Nat}
    (hturned : (engine.advance now).Turned stimulus other address (engine.act action))
    (peer : Hit) :
    engine.Concerns action peer := by
  obtain ⟨-, ⟨htable, hdatagrams, -⟩ | ⟨conn, moved, hoffers, hmove, hdatagrams, -, htable⟩⟩ :=
    hturned.effect
  · refine .spared (congrArg (·.find? peer) htable) ?_
    rw [mailedBy_of_append (hdatagrams.trans (List.append_nil _).symm)]
    rfl
  · have hoffered : conn.outbox = [] ∧ conn.Marks := hoffers.preserves
      (P := fun conn => conn.outbox = [] ∧ conn.Marks)
      (fun _ hmem => ⟨hreachable.outbox_eq_nil hmem, hreachable.marks hmem⟩)
      (fun _ _ => ⟨rfl, Connection.marks_fresh _ _ _⟩)
    obtain ⟨houtbox, hmarks⟩ := hoffered
    have hmailed : engine.mailedBy action = moved.outgoing := mailedBy_of_append hdatagrams
    have hmail := mailTo_of_names (hmove.names_of_outgoing houtbox hmarks) peer
    rw [hoffers.peer_eq, ← hmailed] at hmail
    by_cases hpeer : other = peer
    · subst hpeer
      rw [if_pos rfl] at hmail
      rcases htable with ⟨hput, hnew⟩ | ⟨hsame, hnone, -⟩
      · have hsettled : moved.settled.peer = other := hmove.peer_eq.trans hoffers.peer_eq
        have hafter : (engine.act action).table.find? other = some moved.settled := by
          rw [hput, ConnectionTable.find?_put, if_pos hsettled]
        rcases hoffers with hfind | ⟨hnone, -, rfl⟩
        · exact .moved hfind hmove hafter (hmail.trans hmailed)
        · exact .opened hnone hmove (hnew hnone) hafter (hmail.trans hmailed)
      · exact .answered hnone (by rw [hsame]; exact hnone)
    · rw [if_neg hpeer] at hmail
      refine .spared ?_ hmail
      rcases hturned.find?_cases peer with hsame | ⟨heq, -⟩
      · exact hsame
      · exact absurd heq.symm hpeer

include hreachable in
/-- A timeout, in whatever order it visits the connections, mails each peer what its connection asks
    for, and nobody else. -/
theorem mailed_handleTimeout (hopen : engine.closed = false) {peers : List Hit}
    (horder : peers.Perm engine.table.peers) (now : Nat) :
    let due := (engine.retransmissionTimer.fire now).1
    let after := (engine.handleTimeoutIn peers now).engine
    let mail := engine.mailedBy (.handleTimeout peers now)
    ∃ visited : Connection → Connection,
      (∀ conn, ∃ rng, visited conn = (Turn.timeout ⟨conn, rng, []⟩ (after.context now)).1.conn) ∧
      (∀ peer, after.table.find? peer =
        (engine.table.find? peer).map fun conn => (visited (sweptIf due conn)).settled) ∧
      (∀ conn ∈ engine.table.connections,
        mailTo conn.peer mail = (visited (sweptIf due conn)).outgoing) ∧
      ∀ out ∈ mail, ∃ conn ∈ engine.table.connections, out.Names conn.peer := by
  intro due after mail
  obtain ⟨visited, hvisited, hfind, hdatagrams⟩ := handleTimeoutIn_effect hopen horder now
  have hmail : mail = (peers.filterMap engine.table.find?).flatMap
      fun conn => (visited (sweptIf due conn)).outgoing := mailedBy_of_append hdatagrams
  have hperm : (peers.filterMap engine.table.find?).Perm engine.table.connections := by
    have hfound := horder.filterMap engine.table.find?
    rwa [ConnectionTable.filterMap_find?_peers] at hfound
  have hnames : ∀ conn ∈ peers.filterMap engine.table.find?,
      ∀ out ∈ (visited (sweptIf due conn)).outgoing, out.Names conn.peer := by
    intro conn hconn
    have hmem := hperm.mem_iff.mp hconn
    obtain ⟨stimulus, -, hmove⟩ :=
      (elapses_visited hvisited due conn).exists_move (hreachable.wellFormed hmem)
    exact hmove.names_of_outgoing (hreachable.outbox_eq_nil hmem) (hreachable.marks hmem)
  refine ⟨visited, hvisited, hfind, fun conn hmem => ?_, fun out hout => ?_⟩
  · rw [hmail]
    exact mailTo_flatMap_of_mem hnames ((hperm.map _).nodup_iff.mpr engine.table.nodup)
      (hperm.mem_iff.mpr hmem)
  · rw [hmail] at hout
    obtain ⟨conn, hconn, hasked⟩ := List.mem_flatMap.mp hout
    exact ⟨conn, hperm.mem_iff.mp hconn, hnames conn hconn out hasked⟩

include hreachable in
theorem concerns_handleTimeout (hopen : engine.closed = false) {peers : List Hit}
    (horder : peers.Perm engine.table.peers) (now : Nat) (peer : Hit) :
    engine.Concerns (.handleTimeout peers now) peer := by
  obtain ⟨visited, hvisited, hfind, hasked, hnobody⟩ :=
    mailed_handleTimeout hreachable hopen horder now
  cases hknown : engine.table.find? peer with
  | none =>
    refine .spared ((hfind peer).trans (by rw [hknown]; rfl)) ?_
    refine List.filter_eq_nil_iff.mpr fun out hout hpeer => ?_
    obtain ⟨conn, hmem, hconn⟩ := hnobody out hout
    have hsame := Hit.eq_of_toBytes_eq (hconn.symm.trans (of_decide_eq_true hpeer))
    cases hknown.symm.trans (ConnectionTable.find?_eq_some_iff.mpr ⟨hmem, hsame⟩)
  | some conn =>
    obtain ⟨hmem, rfl⟩ := ConnectionTable.find?_eq_some_iff.mp hknown
    obtain ⟨stimulus, -, hmove⟩ :=
      (elapses_visited hvisited _ conn).exists_move (hreachable.wellFormed hmem)
    exact .moved hknown hmove ((hfind conn.peer).trans (by rw [hknown]; rfl)) (hasked conn hmem)

include hreachable in
/-- What an action does about one peer. -/
theorem concerns_act (hopen : engine.closed = false) (hallows : engine.Allows action) (peer : Hit) :
    engine.Concerns action peer := by
  cases action with
  | connect other address now =>
    exact concerns_of_turned hreachable (connect_cases hopen other address now) peer
  | handlePacket datagram source now =>
    rcases handlePacket_cases hopen datagram source now with hadvance | ⟨packet, -, -, hturned⟩
    · have hact : engine.act (.handlePacket datagram source now) = engine.advance now := hadvance
      refine .spared (by rw [hact]; rfl) ?_
      rw [mailedBy, hact]
      exact congrArg (mailTo peer) List.drop_length
    · exact concerns_of_turned hreachable hturned peer
  | handleTimeout peers now => exact concerns_handleTimeout hreachable hopen hallows now peer
  | pollOutput room =>
    obtain ⟨htable, hdatagrams, -⟩ := engine.pollOutput_spec room
    refine .spared (congrArg (·.find? peer) htable) ?_
    exact congrArg (mailTo peer) (List.drop_eq_nil_of_le hdatagrams.length_le)

end Mail

section Run

variable {engine : Engine} {actions : List Action} {peer : Hit} {conn : Connection}

/-- Once there is a connection with a peer, it stays, and so does the address that all of its
    datagrams go to. -/
theorem mailed_from (hreachable : Reachable engine) (hopen : engine.closed = false)
    (hallows : engine.AllowsAll actions) (hfind : engine.table.find? peer = some conn) :
    (∃ later, (engine.actAll actions).table.find? peer = some later ∧
      later.address = conn.address) ∧
    ∀ out ∈ mailTo peer (engine.mailedIn actions), out.address = conn.address := by
  induction actions generalizing engine conn with
  | nil => exact ⟨⟨conn, hfind, rfl⟩, fun out hout => absurd hout List.not_mem_nil⟩
  | cons action rest ih =>
    have hstep : ∃ next, (engine.act action).table.find? peer = some next ∧
        next.address = conn.address ∧
        ∀ out ∈ mailTo peer (engine.mailedBy action), out.address = conn.address := by
      cases concerns_act hreachable hopen hallows.1 peer with
      | spared hafter hmail =>
        refine ⟨conn, hafter.trans hfind, rfl, fun out hout => ?_⟩
        rw [hmail] at hout
        exact absurd hout List.not_mem_nil
      | @moved _ _ known moved hknown hmove hafter hmail =>
        obtain rfl := Option.some.inj (hknown.symm.trans hfind)
        refine ⟨moved.settled, hafter, hmove.address_eq, fun out hout => ?_⟩
        rw [hmail] at hout
        exact (Connection.mem_outgoing_iff.mp hout).1.trans hmove.address_eq
      | opened hnone | answered hnone => cases hnone.symm.trans hfind
    obtain ⟨next, hnext, haddress, hmailed⟩ := hstep
    obtain ⟨⟨later, hlater, hstays⟩, hrest⟩ :=
      ih (hreachable.act hallows.1) (closed_act hopen hallows.1) hallows.2 hnext
    refine ⟨⟨later, hlater, hstays.trans haddress⟩, fun out hout => ?_⟩
    rw [mailedIn, mailTo_append, List.mem_append] at hout
    rcases hout with hfirst | hlast
    · exact hmailed out hfirst
    · exact (hrest out hlast).trans haddress

/-- What was mailed last to a peer that there is a connection with is the last packet of the
    connection. -/
theorem last_mailed (hreachable : Reachable engine) (hopen : engine.closed = false)
    (hempty : engine.table = .empty) (hallows : engine.AllowsAll actions)
    (hfind : (engine.actAll actions).table.find? peer = some conn) :
    ∃ sent, conn.lastSent = some sent ∧
      (mailTo peer (engine.mailedIn actions)).getLast? = some ⟨conn.address, sent.datagram⟩ := by
  -- From the end: the last action mails the peer its new last packet, or mails it nothing and
  -- changes none.
  induction actions using List.reverseRecOn generalizing conn with
  | nil =>
    rw [show engine.actAll [] = engine from rfl, hempty] at hfind
    cases hfind
  | append_singleton actions action ih =>
    obtain ⟨hbefore, hlast, -⟩ := allowsAll_append.mp hallows
    have hthere := hreachable.actAll hbefore
    rw [actAll_append] at hfind
    change ((engine.actAll actions).act action).table.find? peer = some conn at hfind
    rw [mailedIn_append, mailedIn_singleton, mailTo_append]
    cases concerns_act hthere (closed_actAll hopen hbefore) hlast peer with
    | spared hafter hmail =>
      rw [hmail, List.append_nil]
      exact ih hbefore (hafter.symm.trans hfind)
    | @moved _ _ known moved hknown hmove hafter hmail =>
      obtain rfl := Option.some.inj (hafter.symm.trans hfind)
      obtain ⟨hmem, -⟩ := ConnectionTable.find?_eq_some_iff.mp hknown
      rw [hmail]
      rcases hmove.outgoing_cases (hthere.outbox_eq_nil hmem) with
        ⟨hnone, hsame⟩ | ⟨sent, hsent, hone⟩
      · obtain ⟨sent, hsent, hmailed⟩ := ih hbefore hknown
        rw [hnone, List.append_nil, hmailed]
        exact ⟨sent, hsame.trans hsent, by rw [← hmove.address_eq]; rfl⟩
      · rw [hone, List.getLast?_concat]
        exact ⟨sent, hsent, by rw [← hmove.address_eq]; rfl⟩
    | @opened _ _ address moved hnone hmove hstate hafter hmail =>
      obtain rfl := Option.some.inj (hafter.symm.trans hfind)
      rw [hmail]
      rcases hmove.outgoing_cases rfl with ⟨-, hsame⟩ | ⟨sent, hsent, hone⟩
      · exact absurd hsame (hmove.lastSent_of_fresh hstate)
      · rw [hone, List.getLast?_concat]
        exact ⟨sent, hsent, by rw [← hmove.address_eq]; rfl⟩
    | answered hnone hafter => cases hafter.symm.trans hfind

end Run

end Engine

end DietExchange
