import DietExchange.Proofs.Engine.Stage

namespace DietExchange.Engine

/-- Whether a call moves the connection with this peer, the one that there is or a new one. -/
structure Drives (engine : Engine) (call : Call) (peer : Hit) (stimulus : Stimulus)
    (before moved : Connection) : Prop where
  offered : engine.table.find? peer = some before ∨ (engine.table.find? peer = none ∧
    ∃ address, before = Connection.fresh engine.hit peer address)
  move : ∃ ctx : Context, ctx.party = engine.party ∧
    (∀ packet, stimulus = .packet packet → ctx.issuer = engine.issuer) ∧
    before.Move ctx stimulus moved
  packet : ∀ packet, stimulus = .packet packet → packet.sender = peer ∧
    packet.receiver = engine.hit ∧ ∃ datagram source now, call = .handlePacket datagram source now ∧
      Packet.parse datagram = .ok packet
  kept : (engine.after call).table.find? peer = some moved.settled ∨
    (moved.state = .unassociated ∧ engine.table.find? peer = none ∧
      (engine.after call).table.find? peer = none)
  queued : ∀ out ∈ moved.outgoing, out ∈ engine.queuedBy call
  queuedOnly : ∀ out ∈ engine.queuedBy call, out.IsFor peer → out ∈ moved.outgoing

theorem Drives.peer_eq {engine : Engine} {call : Call} {peer : Hit} {stimulus : Stimulus}
    {before moved : Connection} (hdrives : engine.Drives call peer stimulus before moved) :
    before.peer = peer := by
  rcases hdrives.offered with hfind | ⟨-, address, rfl⟩
  · exact ConnectionTable.peer_of_find? hfind
  · rfl

/-- The connection that is there is the one that is moved. -/
theorem Drives.eq_of_find? {engine : Engine} {call : Call} {peer : Hit} {stimulus : Stimulus}
    {before moved conn : Connection} (hdrives : engine.Drives call peer stimulus before moved)
    (hfind : engine.table.find? peer = some conn) : before = conn := by
  rcases hdrives.offered with hfound | ⟨hnone, -⟩
  · exact Option.some.inj (hfound.symm.trans hfind)
  · cases hnone.symm.trans hfind

theorem undisturbed_of_same {engine : Engine} {call : Call} (peer : Hit)
    (htable : (engine.after call).table = engine.table)
    (hdatagrams : (engine.after call).datagrams = engine.datagrams)
    (hestablished : (engine.after call).established = engine.established) :
    engine.Undisturbed call peer := by
  have hqueued : engine.queuedBy call = [] :=
    queuedBy_of_append (hdatagrams.trans (List.append_nil _).symm)
  have htold : engine.toldBy call = [] :=
    toldBy_of_append (hestablished.trans (List.append_nil _).symm)
  refine ⟨by rw [htable], by simp [htold], fun out hmem => ?_⟩
  rw [hqueued] at hmem
  exact absurd hmem List.not_mem_nil

variable {engine : Engine} (hreachable : Reachable engine) (hkey : engine.identity.HasCurveKey)
  {call : Call} {peer : Hit}
include hreachable hkey

/-- A connect or a packet turns to one peer, and moves the connection with it if any. -/
theorem undisturbed_or_drives_of_turned {stimulus : Stimulus} {other : Hit} {address : Address}
    {now : Nat} (hturned : (engine.advance now).Turned stimulus other address (engine.after call))
    (hpacket : ∀ packet, stimulus = .packet packet → packet.sender = other ∧
      packet.receiver = engine.hit ∧
      ∃ datagram source now, call = .handlePacket datagram source now ∧
        Packet.parse datagram = .ok packet) :
    engine.Undisturbed call peer ∨
      ∃ stimulus before moved, engine.Drives call peer stimulus before moved := by
  by_cases hother : other = peer
  · subst hother
    obtain ⟨-, ⟨htable, hdatagrams, hestablished⟩ |
      ⟨conn, moved, hoffers, hmove, hdatagrams, -, hkept⟩⟩ := hturned.effect
    · exact .inl (undisturbed_of_same other htable hdatagrams hestablished)
    · have hqueued : engine.queuedBy call = moved.outgoing := queuedBy_of_append hdatagrams
      have hpeer : moved.settled.peer = other := hmove.peer_eq.trans hoffers.peer_eq
      refine .inr ⟨stimulus, conn, moved, {
        offered := ?_
        move := ⟨_, rfl, fun _ _ => rfl, hmove⟩
        packet := hpacket
        kept := ?_
        queued := fun out hout => hqueued ▸ hout
        queuedOnly := fun out hout _ => hqueued ▸ hout }⟩
      · rcases hoffers with hfind | ⟨hnone, -, rfl⟩
        · exact .inl hfind
        · exact .inr ⟨hnone, address, rfl⟩
      · rcases hkept with ⟨hput, -⟩ | ⟨hsame, hnone, hstate⟩
        · rw [hput, ConnectionTable.find?_put, if_pos hpeer]
          exact .inl rfl
        · rw [hsame]
          exact .inr ⟨hstate, hnone, hnone⟩
  · exact .inl (undisturbed_of_turned hreachable hkey hother hturned)

/-- A call leaves the connection with a peer alone or moves it once. -/
theorem undisturbed_or_drives (hopen : engine.closed = false) (hcall : call ≠ .close) (peer : Hit) :
    engine.Undisturbed call peer ∨
      ∃ stimulus before moved, engine.Drives call peer stimulus before moved := by
  cases call with
  | connect other address now =>
    exact undisturbed_or_drives_of_turned hreachable hkey (connect_cases hopen other address now)
      fun packet heq => by cases heq
  | handlePacket datagram source now =>
    rcases handlePacket_cases hopen datagram source now with
      hadvance | ⟨packet, hparse, hreceiver, hturned⟩
    · have hafter : engine.after (.handlePacket datagram source now) =
          engine.advance now := hadvance
      exact .inl (undisturbed_of_same peer (by rw [hafter]; rfl) (by rw [hafter]; rfl)
        (by rw [hafter]; rfl))
    · refine undisturbed_or_drives_of_turned hreachable hkey hturned fun found heq => ?_
      obtain rfl := Stimulus.packet.inj heq
      exact ⟨rfl, hreceiver, datagram, source, now, rfl, hparse⟩
  | handleTimeout order now =>
    cases hfind : engine.table.find? peer with
    | none => exact .inl (undisturbed_of_none hreachable hkey hopen trivial hfind)
    | some conn =>
      obtain ⟨hmem, rfl⟩ := ConnectionTable.find?_eq_some_iff.mp hfind
      obtain ⟨moved, hsees, helapses⟩ := sees_handleTimeout hreachable hkey hopen hmem order now
      obtain ⟨stimulus, hpacket, hmove⟩ := helapses.exists_move (hreachable.wellFormed hmem)
      exact .inr ⟨stimulus, conn, moved, {
        offered := .inl hfind
        move := ⟨(engine.after (.handleTimeout order now)).context now,
          (engine.continues_after (.handleTimeout order now)).party,
          fun packet heq => absurd heq (hpacket packet), hmove⟩
        packet := fun packet heq => absurd heq (hpacket packet)
        kept := .inl hsees.find
        queued := hsees.queued
        queuedOnly := hsees.queuedOnly }⟩
  | pollOutput room =>
    exact .inl (undisturbed_of_spares hreachable hkey hopen trivial (by simp))
  | close => exact absurd rfl hcall

end DietExchange.Engine
