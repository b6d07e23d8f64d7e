import DietExchange.Proofs.Connection.Sent

namespace DietExchange

/-- The time that a call brings. -/
def Call.now? : Call → Option Nat
  | .connect _ _ now | .handlePacket _ _ now | .handleTimeout _ now => some now
  | .pollOutput _ | .close => none

/-- Whether a call to this host concerns other peers only. The passing of time concerns all. -/
def Call.Spares (host peer : Hit) : Call → Prop
  | .connect other _ _ => other ≠ peer
  | .handlePacket datagram _ _ => ∀ packet, Packet.parse datagram = .ok packet →
      packet.receiver = host → packet.sender ≠ peer
  | .handleTimeout .. | .pollOutput _ => True
  | .close => False

/-- Whether a datagram is a packet for this receiver. -/
def Outgoing.IsFor (out : Outgoing) (receiver : Hit) : Prop :=
  ∃ packet, Packet.parse out.datagram = .ok packet ∧ packet.receiver = receiver

theorem Connection.eq_peer_of_mem_completions {conn : Connection} {peer : Hit}
    (hmem : peer ∈ conn.completions) : peer = conn.peer := by
  obtain ⟨signal, -, hsignal⟩ := List.mem_filterMap.mp hmem
  cases signal <;> simp_all [Signal.completion?]

theorem Connection.count_completions (conn : Connection) (peer : Hit) :
    conn.completions.count peer = if conn.peer = peer then conn.completions.length else 0 := by
  split
  · rename_i heq
    exact List.count_eq_length.mpr fun other hmem =>
      heq.symm.trans (eq_peer_of_mem_completions hmem).symm
  · rename_i hne
    exact List.count_eq_zero.mpr fun hmem => hne (eq_peer_of_mem_completions hmem).symm

/-- Of connections with different peers, only the one with this peer tells of it. -/
theorem Connection.count_flatMap_completions {connections : List Connection}
    {elapsed : Connection → Connection} (hnodup : (connections.map Connection.peer).Nodup)
    (hpeers : ∀ conn, (elapsed conn).peer = conn.peer) {conn : Connection}
    (hmem : conn ∈ connections) :
    (connections.flatMap fun conn => (elapsed conn).completions).count conn.peer =
      (elapsed conn).completions.length := by
  have hzero : ∀ others : List Connection, conn.peer ∉ others.map Connection.peer →
      (others.flatMap fun conn => (elapsed conn).completions).count conn.peer = 0 := by
    intro others hnone
    refine List.count_eq_zero.mpr fun htold => hnone ?_
    obtain ⟨other, hother, hcompletion⟩ := List.mem_flatMap.mp htold
    rw [eq_peer_of_mem_completions hcompletion, hpeers]
    exact List.mem_map_of_mem hother
  induction connections with
  | nil => exact absurd hmem List.not_mem_nil
  | cons first rest ih =>
    obtain ⟨hfirst, hrest⟩ := List.nodup_cons.mp hnodup
    rw [List.flatMap_cons, List.count_append, count_completions, hpeers]
    rcases List.mem_cons.mp hmem with rfl | hmem
    · rw [if_pos rfl, hzero rest hfirst, Nat.add_zero]
    · have hne : first.peer ≠ conn.peer := fun heq => hfirst (heq ▸ List.mem_map_of_mem hmem)
      rw [if_neg hne, Nat.zero_add, ih hrest hmem]

namespace Engine

/-- The datagrams that a call queues. -/
def queuedBy (engine : Engine) (call : Call) : List Outgoing :=
  (engine.after call).datagrams.drop engine.datagrams.length

/-- The peers that a call tells the handshake is complete with. -/
def toldBy (engine : Engine) (call : Call) : List Hit :=
  (engine.after call).established.drop engine.established.length

/-- The datagrams that several calls queue. -/
def queuedIn (engine : Engine) : List Call → List Outgoing
  | [] => []
  | call :: rest => engine.queuedBy call ++ (engine.after call).queuedIn rest

/-- The peers that several calls tell the handshake is complete with. -/
def toldIn (engine : Engine) : List Call → List Hit
  | [] => []
  | call :: rest => engine.toldBy call ++ (engine.after call).toldIn rest

theorem queuedIn_append (engine : Engine) (front back : List Call) :
    engine.queuedIn (front ++ back) = engine.queuedIn front ++
      (engine.run front).queuedIn back := by
  induction front generalizing engine with
  | nil => rfl
  | cons call rest ih => rw [List.cons_append, queuedIn, ih, queuedIn, List.append_assoc]; rfl

theorem toldIn_append (engine : Engine) (front back : List Call) :
    engine.toldIn (front ++ back) = engine.toldIn front ++ (engine.run front).toldIn back := by
  induction front generalizing engine with
  | nil => rfl
  | cons call rest ih => rw [List.cons_append, toldIn, ih, toldIn, List.append_assoc]; rfl

theorem run_append (engine : Engine) (front back : List Call) :
    engine.run (front ++ back) = (engine.run front).run back := List.foldl_append

theorem count_toldIn {engine middle : Engine} {front back : List Call} {call : Call} {peer : Hit}
    {a b c : Nat} (hrun : engine.run front = middle) (hfront : (engine.toldIn front).count peer = a)
    (hcall : (middle.toldBy call).count peer = b)
    (hback : ((middle.after call).toldIn back).count peer = c) :
    (engine.toldIn (front ++ call :: back)).count peer = a + b + c := by
  subst hrun
  rw [toldIn_append, toldIn, List.count_append, List.count_append, hfront, hcall, hback,
    Nat.add_assoc]

/-- What a call makes of a connection and queues for it. -/
structure Sees (engine : Engine) (call : Call) (conn moved : Connection) : Prop where
  find : (engine.after call).table.find? conn.peer = some moved.settled
  told : (engine.toldBy call).count conn.peer = moved.completions.length
  queued : ∀ out, out ∈ moved.outgoing → out ∈ engine.queuedBy call
  queuedOnly : ∀ out ∈ engine.queuedBy call, out.IsFor conn.peer → out ∈ moved.outgoing

theorem queuedBy_of_append {engine : Engine} {call : Call} {new : List Outgoing}
    (hafter : (engine.after call).datagrams = engine.datagrams ++ new) :
    engine.queuedBy call = new := by
  rw [queuedBy, hafter, List.drop_left]

theorem toldBy_of_append {engine : Engine} {call : Call} {new : List Hit}
    (hafter : (engine.after call).established = engine.established ++ new) :
    engine.toldBy call = new := by
  rw [toldBy, hafter, List.drop_left]

/-- A connection that belongs to an engine of its own, as every one of a reachable engine does. -/
structure Kept (engine : Engine) (conn : Connection) : Prop where
  form : conn.WellFormed
  outbox : conn.outbox = []
  host : conn.host = engine.hit
  speaks : conn.Speaks engine.identity

theorem Reachable.kept {engine : Engine} (hreachable : Reachable engine)
    (hkey : engine.identity.HasCurveKey) {conn : Connection}
    (hmem : conn ∈ engine.table.connections) : engine.Kept conn :=
  ⟨hreachable.wellFormed hmem, hreachable.outbox_eq_nil hmem, hreachable.host_eq hmem,
    hreachable.speaks hkey hmem⟩

theorem kept_fresh (engine : Engine) (peer : Hit) (address : Address) :
    engine.Kept (Connection.fresh engine.hit peer address) :=
  ⟨Connection.wellFormed_fresh _ _ _, rfl, rfl, fun _ hsent => by cases hsent⟩

/-- What is transmitted for a connection is for its peer. -/
theorem peer_of_isFor {identity : HostIdentity} {moved : Connection} {out : Outgoing}
    {kind : PacketKind} (hspeaks : moved.Speaks identity)
    (hsent : moved.lastSent = some ⟨kind, out.datagram⟩) {receiver : Hit}
    (hfor : out.IsFor receiver) : receiver = moved.peer := by
  obtain ⟨packet, hparse, -, -, hreceiver, -⟩ := hspeaks _ hsent
  obtain ⟨found, hfound, rfl⟩ := hfor
  obtain rfl := Except.ok.inj (hfound.symm.trans hparse)
  exact hreceiver

theorem Kept.peer_of_move {engine : Engine} {ctx : Context} {stimulus : Stimulus}
    {conn moved : Connection} (hkept : engine.Kept conn)
    (hidentity : ctx.identity = engine.identity) (hkey : engine.identity.HasCurveKey)
    (hmove : conn.Move ctx stimulus moved) {out : Outgoing} (hout : out ∈ moved.outgoing)
    {receiver : Hit} (hfor : out.IsFor receiver) : receiver = conn.peer := by
  obtain ⟨-, htransmit⟩ := Connection.mem_outgoing_iff.mp hout
  rcases hmove.lastSent_of_transmit htransmit with hold | ⟨kind, hsent⟩
  · rw [hkept.outbox] at hold
    exact absurd hold List.not_mem_nil
  · have hspeaks : moved.Speaks ctx.identity :=
      Connection.Speaks.move (hidentity ▸ hkey) hmove (hidentity ▸ hkept.speaks)
    rw [peer_of_isFor hspeaks hsent hfor, hmove.peer_eq]

theorem Kept.peer_of_elapses {engine : Engine} {ctx : Context} {conn moved : Connection}
    (hkept : engine.Kept conn) (hidentity : ctx.identity = engine.identity)
    (hkey : engine.identity.HasCurveKey) (helapses : conn.Elapses ctx moved) {out : Outgoing}
    (hout : out ∈ moved.outgoing) {receiver : Hit} (hfor : out.IsFor receiver) :
    receiver = conn.peer := by
  obtain ⟨-, htransmit⟩ := Connection.mem_outgoing_iff.mp hout
  obtain ⟨kind, hsent⟩ := helapses.lastSent_of_transmit hkept.form hkept.outbox htransmit
  have hspeaks : moved.Speaks ctx.identity := helapses.preserves
    (fun _ _ _ _ hmove hspeaks => hspeaks.move (hidentity ▸ hkey) hmove) (hidentity ▸ hkept.speaks)
  rw [peer_of_isFor hspeaks hsent hfor, helapses.peer_eq]

/-- What a call that is about other peers leaves alone. -/
structure Undisturbed (engine : Engine) (call : Call) (peer : Hit) : Prop where
  find : (engine.after call).table.find? peer = engine.table.find? peer
  told : (engine.toldBy call).count peer = 0
  queued : ∀ out ∈ engine.queuedBy call, ¬out.IsFor peer

section Spares

variable {engine : Engine} (hreachable : Reachable engine) (hkey : engine.identity.HasCurveKey)
  (hopen : engine.closed = false) {call : Call} {peer : Hit}
include hreachable hkey

theorem undisturbed_of_turned {stimulus : Stimulus} {other : Hit} {address : Address} {now : Nat}
    (hother : other ≠ peer)
    (hturned : (engine.advance now).Turned stimulus other address (engine.after call)) :
    engine.Undisturbed call peer := by
  obtain ⟨-, ⟨htable, hdatagrams, hestablished⟩ |
    ⟨conn, moved, hoffers, hmove, hdatagrams, hestablished, htable⟩⟩ := hturned.effect
  · have hqueued : engine.queuedBy call = [] :=
      queuedBy_of_append (hdatagrams.trans (List.append_nil _).symm)
    have htold : engine.toldBy call = [] :=
      toldBy_of_append (hestablished.trans (List.append_nil _).symm)
    refine ⟨by rw [htable]; rfl, by simp [htold], fun out hmem => ?_⟩
    rw [hqueued] at hmem
    exact absurd hmem List.not_mem_nil
  · have hpeer : moved.peer = other := hmove.peer_eq.trans hoffers.peer_eq
    have hkept : engine.Kept conn :=
      hoffers.preserves (fun _ => hreachable.kept hkey) (fun _ _ => kept_fresh _ _ _)
    refine ⟨?_, ?_, fun out hmem hfor => ?_⟩
    · rcases htable with ⟨hput, -⟩ | ⟨hsame, -⟩
      · rw [hput, ConnectionTable.find?_put, Connection.peer_settled,
          if_neg fun heq => hother (hpeer.symm.trans heq)]
        rfl
      · rw [hsame]
        rfl
    · rw [toldBy_of_append hestablished, Connection.count_completions,
        if_neg fun heq => hother (hpeer.symm.trans heq)]
    · rw [queuedBy_of_append hdatagrams] at hmem
      have heq := hkept.peer_of_move rfl hkey hmove hmem hfor
      exact hother (hoffers.peer_eq.symm.trans heq.symm)

include hopen

/-- A call that concerns other peers only, and is not the passing of time. -/
theorem undisturbed_of_spares (hspares : call.Spares engine.hit peer)
    (htimeless : ∀ order now, call ≠ .handleTimeout order now) : engine.Undisturbed call peer := by
  have hsame : (engine.after call).table = engine.table → engine.queuedBy call = [] →
      engine.toldBy call = [] → engine.Undisturbed call peer := by
    intro htable hqueued htold
    refine ⟨by rw [htable], by simp [htold], fun out hmem => ?_⟩
    rw [hqueued] at hmem
    exact absurd hmem List.not_mem_nil
  have hbecomes := engine.becomes_after call
  generalize hafter : engine.after call = after at hbecomes
  cases hbecomes with
  | idle hclosed => cases hopen.symm.trans hclosed
  | polled hdatagrams hestablished =>
    exact hsame (by rw [hafter])
      (by rw [queuedBy, hafter, List.drop_eq_nil_of_le hdatagrams.length_le])
      (by rw [toldBy, hafter, List.drop_eq_nil_of_le hestablished.length_le])
  | connected _ hturned => exact undisturbed_of_turned hreachable hkey hspares (hafter ▸ hturned)
  | dropped =>
    exact hsame (by rw [hafter]; rfl) (by simp [queuedBy, hafter, advance])
      (by simp [toldBy, hafter, advance])
  | received _ hparse hreceiver hturned =>
    exact undisturbed_of_turned hreachable hkey (hspares _ hparse hreceiver) (hafter ▸ hturned)
  | elapsed => exact absurd rfl (htimeless _ _)
  | closed => exact hspares.elim

/-- The passing of time does to a connection what it does to it alone. -/
theorem sees_handleTimeout {conn : Connection} (hmem : conn ∈ engine.table.connections)
    (order : List Hit) (now : Nat) :
    ∃ moved, engine.Sees (.handleTimeout order now) conn moved ∧
      conn.Elapses ((engine.after (.handleTimeout order now)).context now) moved := by
  obtain ⟨visited, elapsed, helapsed⟩ := elapsed_handleTimeout hopen order now
  refine ⟨elapsed conn, ⟨?_, ?_, fun out hout => ?_, fun out hout hfor => ?_⟩,
    helapsed.elapses conn⟩
  · refine (helapsed.find conn.peer).trans ?_
    rw [ConnectionTable.find?_eq_some_iff.mpr ⟨hmem, rfl⟩]
    rfl
  · rw [toldBy_of_append helapsed.established, (helapsed.perm.flatMap_right _).count_eq]
    exact Connection.count_flatMap_completions engine.table.nodup
      (fun conn => (helapsed.elapses conn).peer_eq) hmem
  · rw [queuedBy_of_append helapsed.datagrams]
    exact List.mem_flatMap.mpr ⟨conn, helapsed.perm.mem_iff.mpr hmem, hout⟩
  · rw [queuedBy_of_append helapsed.datagrams] at hout
    obtain ⟨other, hvisited, hsent⟩ := List.mem_flatMap.mp hout
    have hother := helapsed.perm.subset hvisited
    have heq := (hreachable.kept hkey hother).peer_of_elapses helapsed.identity hkey
      (helapsed.elapses other) hsent hfor
    have hsame : other = conn :=
      List.inj_on_of_nodup_map engine.table.nodup hother hmem heq.symm
    rwa [hsame] at hsent

/-- A call that concerns other peers only does to the connection with this one what the passing of
    time does, or nothing. -/
theorem sees_of_spares (hspares : call.Spares engine.hit peer) {conn : Connection}
    (hfind : engine.table.find? peer = some conn) :
    ∃ moved, engine.Sees call conn moved ∧
    (moved = conn ∨ ∃ order now, call = .handleTimeout order now ∧
      conn.Elapses ((engine.after call).context now) moved) := by
  obtain ⟨hmem, rfl⟩ := ConnectionTable.find?_eq_some_iff.mp hfind
  by_cases htime : ∃ order now, call = .handleTimeout order now
  · obtain ⟨order, now, rfl⟩ := htime
    obtain ⟨moved, hsees, helapses⟩ := sees_handleTimeout hreachable hkey hopen hmem order now
    exact ⟨moved, hsees, .inr ⟨order, now, rfl, helapses⟩⟩
  · have hundisturbed := undisturbed_of_spares hreachable hkey hopen hspares
      fun order now heq => htime ⟨order, now, heq⟩
    have houtbox := hreachable.outbox_eq_nil hmem
    have hsettled : conn.settled = conn := by rw [Connection.settled, ← houtbox]
    refine ⟨conn, ⟨?_, ?_, ?_, ?_⟩, .inl rfl⟩
    · rw [hundisturbed.find, hfind, hsettled]
    · rw [hundisturbed.told, Connection.completions, houtbox]
      rfl
    · intro out hout
      rw [Connection.outgoing, houtbox] at hout
      exact absurd hout List.not_mem_nil
    · intro out hout hfor
      exact absurd hfor (hundisturbed.queued out hout)

include hopen in
omit hreachable hkey in
/-- Only closing closes an engine. -/
theorem closed_after (hcall : call ≠ .close) : (engine.after call).closed = false := by
  have hbecomes := engine.becomes_after call
  generalize engine.after call = after at hbecomes ⊢
  cases hbecomes with
  | idle | polled | dropped => exact hopen
  | connected _ hturned | received _ _ _ hturned => exact hturned.effect.1.closed.trans hopen
  | elapsed _ helapsed => exact helapsed.closed.trans hopen
  | closed => exact absurd rfl hcall

include hopen in
omit hreachable hkey in
theorem closed_of_spares (hspares : call.Spares engine.hit peer) :
    (engine.after call).closed = false := by
  refine closed_after hopen ?_
  rintro rfl
  exact hspares

/-- Where there is no connection, a call that concerns other peers makes none, and nothing is queued
    for this one. -/
theorem undisturbed_of_none (hspares : call.Spares engine.hit peer)
    (hnone : engine.table.find? peer = none) : engine.Undisturbed call peer := by
  by_cases htime : ∃ order now, call = .handleTimeout order now
  · obtain ⟨order, now, rfl⟩ := htime
    obtain ⟨visited, elapsed, helapsed⟩ := elapsed_handleTimeout hopen order now
    have habsent : ∀ other ∈ engine.table.connections, other.peer ≠ peer := by
      rintro other hother rfl
      rw [ConnectionTable.find?_eq_some_iff.mpr ⟨hother, rfl⟩] at hnone
      cases hnone
    refine ⟨?_, ?_, fun out hout hfor => ?_⟩
    · refine (helapsed.find peer).trans ?_
      rw [hnone]
      rfl
    · rw [toldBy_of_append helapsed.established]
      refine List.count_eq_zero.mpr fun htold => ?_
      obtain ⟨other, hvisited, hcompletion⟩ := List.mem_flatMap.mp htold
      have hother := helapsed.perm.subset hvisited
      have heq := Connection.eq_peer_of_mem_completions hcompletion
      exact habsent other hother (heq.trans (helapsed.elapses other).peer_eq).symm
    · rw [queuedBy_of_append helapsed.datagrams] at hout
      obtain ⟨other, hvisited, hsent⟩ := List.mem_flatMap.mp hout
      have hother := helapsed.perm.subset hvisited
      have heq := (hreachable.kept hkey hother).peer_of_elapses helapsed.identity hkey
        (helapsed.elapses other) hsent hfor
      exact habsent other hother heq.symm
  · exact undisturbed_of_spares hreachable hkey hopen hspares fun order now heq =>
      htime ⟨order, now, heq⟩

end Spares

theorem run_cons (engine : Engine) (call : Call) (rest : List Call) :
    engine.run (call :: rest) = (engine.after call).run rest := rfl

theorem closed_run_of_spares {engine : Engine} (hopen : engine.closed = false) {peer : Hit}
    {calls : List Call} (hspares : ∀ call ∈ calls, call.Spares engine.hit peer) :
    (engine.run calls).closed = false := by
  induction calls generalizing engine with
  | nil => exact hopen
  | cons call rest ih =>
    refine ih (closed_of_spares hopen (hspares call List.mem_cons_self)) fun other hmem => ?_
    rw [hit_after]
    exact hspares other (List.mem_cons_of_mem _ hmem)

/-- Where there is no connection, there is none after calls that concern other peers. -/
theorem find?_run_eq_none {engine : Engine} (hreachable : Reachable engine)
    (hkey : engine.identity.HasCurveKey) (hopen : engine.closed = false) {peer : Hit}
    {calls : List Call} (hspares : ∀ call ∈ calls, call.Spares engine.hit peer)
    (hnone : engine.table.find? peer = none) :
    (engine.run calls).table.find? peer = none ∧ (engine.toldIn calls).count peer = 0 := by
  induction calls generalizing engine with
  | nil => exact ⟨hnone, rfl⟩
  | cons call rest ih =>
    have hcall := hspares call List.mem_cons_self
    have hundisturbed := undisturbed_of_none hreachable hkey hopen hcall hnone
    obtain ⟨hfind, htold⟩ := ih (hreachable.after call)
      ((engine.continues_after call).identity ▸ hkey) (closed_of_spares hopen hcall)
      (fun other hmem => by rw [hit_after]; exact hspares other (List.mem_cons_of_mem _ hmem))
      (hundisturbed.find.trans hnone)
    refine ⟨hfind, ?_⟩
    rw [toldIn, List.count_append, hundisturbed.told, htold]

/-- What the passing of time keeps of a connection, and of what was queued for it, is kept by calls
    that concern other peers. -/
theorem sees_run {I : Connection → List Outgoing → Prop} {peer : Hit} {calls : List Call}
    {identity : HostIdentity} {config : Config}
    (hidle : ∀ conn queue new, (∀ out ∈ new, ¬out.IsFor peer) → I conn queue →
      I conn (queue ++ new))
    (htime : ∀ ctx conn moved queue new, ctx.identity = identity → ctx.config = config →
      (∃ order, .handleTimeout order ctx.now ∈ calls) → conn.WellFormed → conn.outbox = [] →
      conn.peer = peer →
      conn.host = identity.hit → conn.Elapses ctx moved →
      (∀ out ∈ moved.outgoing, out ∈ new) → (∀ out ∈ new, out.IsFor peer → out ∈ moved.outgoing) →
      I conn queue → I moved.settled (queue ++ new) ∧ moved.completions = [])
    {engine : Engine} (hidentity : engine.identity = identity) (hconfig : engine.config = config)
    (hreachable : Reachable engine) (hkey : engine.identity.HasCurveKey)
    (hopen : engine.closed = false) (hspares : ∀ call ∈ calls, call.Spares engine.hit peer)
    {conn : Connection} (hfind : engine.table.find? peer = some conn) (queue : List Outgoing)
    (hconn : I conn queue) : ∃ later, (engine.run calls).table.find? peer = some later ∧
      I later (queue ++ engine.queuedIn calls) ∧ (engine.toldIn calls).count peer = 0 := by
  induction calls generalizing engine conn queue with
  | nil =>
    refine ⟨conn, hfind, ?_, rfl⟩
    rw [queuedIn, List.append_nil]
    exact hconn
  | cons call rest ih =>
    have hcall := hspares call List.mem_cons_self
    have hcontinues := engine.continues_after call
    obtain ⟨hmem, rfl⟩ := ConnectionTable.find?_eq_some_iff.mp hfind
    obtain ⟨moved, hsees, hcause⟩ := sees_of_spares hreachable hkey hopen hcall hfind
    have hmoved : I moved.settled (queue ++ engine.queuedBy call) ∧ moved.completions = [] := by
      rcases hcause with rfl | ⟨order, now, rfl, helapses⟩
      · have houtbox := hreachable.outbox_eq_nil hmem
        have hsettled : moved.settled = moved := by rw [Connection.settled, ← houtbox]
        rw [hsettled, Connection.completions, houtbox]
        refine ⟨hidle _ _ _ (fun out hout hfor => ?_) hconn, rfl⟩
        have hnone := hsees.queuedOnly out hout hfor
        rw [Connection.outgoing, houtbox] at hnone
        exact absurd hnone List.not_mem_nil
      · exact htime _ conn moved queue _ (hcontinues.identity.trans hidentity)
          (hcontinues.config.trans hconfig) ⟨order, List.mem_cons_self⟩ (hreachable.wellFormed hmem)
          (hreachable.outbox_eq_nil hmem) rfl
          ((hreachable.host_eq hmem).trans (congrArg HostIdentity.hit hidentity)) helapses
          hsees.queued hsees.queuedOnly hconn
    obtain ⟨later, hlater, hI, htold⟩ := ih
      (fun ctx conn moved queue new hid hconf htimeout =>
        htime ctx conn moved queue new hid hconf (htimeout.imp fun _ => List.mem_cons_of_mem _))
      (hcontinues.identity.trans hidentity) (hcontinues.config.trans hconfig)
      (hreachable.after call) (hcontinues.identity ▸ hkey) (closed_of_spares hopen hcall)
      (fun other hother => by rw [hit_after]; exact hspares other (List.mem_cons_of_mem _ hother))
      hsees.find _ hmoved.1
    refine ⟨later, hlater, ?_, ?_⟩
    · rw [queuedIn, ← List.append_assoc]
      exact hI
    · rw [toldIn, List.count_append, htold, hsees.told, hmoved.2]
      rfl

end Engine

end DietExchange
