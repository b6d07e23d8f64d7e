import DietExchange.Proofs.Engine.Lapses
import DietExchange.Proofs.Engine.Mail

namespace DietExchange.Engine

variable {engine : Engine} {peer : Hit} {address : Address} {now : Nat}

/-- Where a handshake that is begun with a peer goes: an entry of the table keeps the address that
    it was made with, whatever address is given now. -/
def destination (engine : Engine) (peer : Hit) (address : Address) : Address :=
  ((engine.table.find? peer).map (·.address)).getD address

theorem state_of_initiate {conn : Connection} (hresult : (engine.initiate conn).result = .ok ()) :
    conn.state = .unassociated := by
  unfold initiate at hresult
  split at hresult
  · cases hresult
  · rename_i turn hturn
    exact (Turn.move_of_initiate hturn).state_of_initiate.1

/-- A connect that is not refused finds nothing begun with the peer. -/
theorem exists_offered_of_connect (hresult : (engine.connect peer address now).result = .ok ()) :
    engine.closed = false ∧ peer ≠ engine.hit ∧
      ∃ conn, engine.Offers peer address conn ∧ conn.state = .unassociated := by
  unfold connect at hresult
  split at hresult
  · cases hresult
  rename_i hopen
  dsimp only at hresult
  split at hresult
  · cases hresult
  rename_i hother
  refine ⟨Bool.not_eq_true _ ▸ hopen, hother, ?_⟩
  split at hresult
  · rename_i conn hfind
    exact ⟨conn, .inl hfind, state_of_initiate hresult⟩
  · rename_i hnone
    split at hresult
    · cases hresult
    · rename_i hroom
      exact ⟨_, .inr ⟨hnone, Nat.not_le.mp hroom, rfl⟩, state_of_initiate hresult⟩

theorem Offers.address_eq {conn : Connection} (hoffers : engine.Offers peer address conn) :
    conn.address = engine.destination peer address := by
  unfold destination
  rcases hoffers with hfind | ⟨hnone, -, rfl⟩
  · rw [hfind]
    rfl
  · rw [hnone]
    rfl

/-- The I1 goes to the address of the connection that it is sent on. -/
theorem connect_mails_i1 (hreachable : Reachable engine)
    (hresult : (engine.connect peer address now).result = .ok ()) : ∃ datagram packet conn,
    (engine.act (.connect peer address now)).datagrams =
      engine.datagrams ++ [⟨engine.destination peer address, datagram⟩] ∧
    Packet.parse datagram = .ok packet ∧ packet.kind = .i1 ∧ packet.sender = engine.hit ∧
    packet.receiver = peer ∧
    (engine.act (.connect peer address now)).table.find? peer = some conn ∧ conn.state = .i1Sent ∧
    conn.address = engine.destination peer address := by
  obtain ⟨hopen, hpeer, conn, hoffers, hstate⟩ := exists_offered_of_connect hresult
  obtain ⟨-, moved, hmove, habsorbs⟩ := connect_offered hopen hpeer hoffers hstate now
  have hfind := habsorbs.find_moved (hmove.peer_eq.trans hoffers.peer_eq)
  have hhost : conn.host = engine.hit :=
    hoffers.preserves (fun _ hmem => hreachable.host_eq hmem) fun _ _ => rfl
  have houtbox : conn.outbox = [] := hoffers.preserves (P := fun conn => conn.outbox = [])
    (fun _ hmem => hreachable.outbox_eq_nil hmem) fun _ _ => rfl
  obtain ⟨new, hnew⟩ : ∃ new,
      (engine.after (.connect peer address now)).datagrams = engine.datagrams ++ new :=
    (connect_cases hopen peer address now).exists_datagrams
  have hqueued : new = moved.outgoing := (queuedBy_of_append hnew).symm.trans habsorbs.queued
  have hstays := hmove.address_eq.trans hoffers.address_eq
  cases hmove with
  | @initiate _ datagram _ hencode =>
    refine ⟨datagram, _, _, ?_, Context.parse_i1 hencode, rfl, hhost, hoffers.peer_eq, hfind,
      Connection.state_moveTo _ _, hstays⟩
    refine hnew.trans ?_
    rw [hqueued, Connection.outgoing_moveTo, Connection.outgoing_transmit,
      Connection.outgoing_of_outbox houtbox, hoffers.address_eq, List.nil_append]

/-- A connect that is not refused queues one datagram, an I1 to the peer, and the connection waits
    for the answer. The I1 and whatever is sent to the peer from then on, by this handshake and
    after it, go to one address. It is the one that was given, unless an entry in UNASSOCIATED was
    left in the table with another one: then it is that one, and the address that was given is not
    looked at. -/
theorem handshake_keeps_its_address (hreachable : Reachable engine)
    (hresult : (engine.connect peer address now).result = .ok ()) :
    let begun := engine.act (.connect peer address now)
    let target := engine.destination peer address
    begun.state? peer = some .i1Sent ∧
    (∃ datagram packet, begun.datagrams = engine.datagrams ++ [⟨target, datagram⟩] ∧
      Packet.parse datagram = .ok packet ∧ packet.kind = .i1 ∧ packet.sender = engine.hit ∧
      packet.receiver = peer) ∧
    (∀ actions, begun.AllowsAll actions → ∀ out ∈ mailTo peer (begun.mailedIn actions),
      out.address = target) ∧
    (target ≠ address ↔ ∃ conn, engine.table.find? peer = some conn ∧ conn.state = .unassociated ∧
      conn.address ≠ address) := by
  intro begun target
  obtain ⟨hopen, -, known, hoffers, hstate⟩ := exists_offered_of_connect hresult
  obtain ⟨datagram, packet, conn, hqueued, hparse, hkind, hsender, hreceiver, hfind, hsent,
    haddress⟩ :=
    connect_mails_i1 hreachable hresult
  have hallowed : engine.Allows (.connect peer address now) := trivial
  refine ⟨state?_of_find? hfind hsent,
    ⟨datagram, packet, hqueued, hparse, hkind, hsender, hreceiver⟩, ?_, ?_⟩
  · intro actions hallows out hout
    obtain ⟨-, hmailed⟩ :=
      mailed_from (hreachable.act hallowed) (closed_act hopen hallowed) hallows hfind
    exact (hmailed out hout).trans haddress
  · rw [show target = known.address from hoffers.address_eq.symm]
    constructor
    · intro hother
      rcases hoffers with hknown | ⟨-, -, rfl⟩
      · exact ⟨known, hknown, hstate, hother⟩
      · exact absurd rfl hother
    · rintro ⟨found, hfound, -, hother⟩
      rcases hoffers with hknown | ⟨hnone, -⟩
      · obtain rfl := Option.some.inj (hknown.symm.trans hfound)
        exact hother
      · cases hnone.symm.trans hfound

/-- An entry can be left in UNASSOCIATED, and then a handshake may be begun with its peer at another
    address. -/
theorem exists_connect_elsewhere :
    ∃ (engine : Engine) (peer : Hit) (conn : Connection) (given : Address),
    Reachable engine ∧ (engine.connect peer given 0).result = .ok () ∧
    engine.table.find? peer = some conn ∧ conn.address ≠ given := by
  obtain ⟨new, log, rest, peer, actions, hcreate, hallows, hsince, hother⟩ := exists_lapse_of_other
  obtain ⟨-, -, -, -, -, hopen, -⟩ := create_spec hcreate
  have hidle := (state?_actAll_iff hcreate hallows peer).mpr hsince
  obtain ⟨conn, hfind, hstate⟩ := Option.map_eq_some_iff.mp hidle
  have hpeer : peer ≠ (new.actAll actions).hit := (new.continues_actAll actions).hit ▸ hother
  obtain ⟨given, hgiven⟩ := conn.address.exists_ne
  obtain ⟨hresult, -⟩ := connect_offered (closed_actAll hopen hallows) hpeer
    (.inl hfind : (new.actAll actions).Offers peer given conn) hstate 0
  exact ⟨_, peer, conn, given, .actAll (.create hcreate) hallows, hresult, hfind, hgiven.symm⟩

/-- A connect that is not refused to a peer with an entry at another address: the I1 goes to the
    address of the entry. -/
theorem exists_handshake_mailed :
    ∃ (engine : Engine) (peer : Hit) (conn : Connection) (given : Address),
    Reachable engine ∧ (engine.connect peer given 0).result = .ok () ∧
    engine.table.find? peer = some conn ∧ conn.address ≠ given ∧
    engine.destination peer given = conn.address ∧
    (engine.act (.connect peer given 0)).state? peer = some .i1Sent ∧
    ∃ datagram, (engine.act (.connect peer given 0)).datagrams =
      engine.datagrams ++ [⟨conn.address, datagram⟩] := by
  obtain ⟨engine, peer, conn, given, hreachable, hresult, hfind, hgiven⟩ := exists_connect_elsewhere
  have htarget : engine.destination peer given = conn.address := by
    rw [destination, hfind]
    rfl
  obtain ⟨hsent, ⟨datagram, packet, hqueued, -⟩, -⟩ :=
    handshake_keeps_its_address hreachable hresult
  rw [htarget] at hqueued
  exact ⟨engine, peer, conn, given, hreachable, hresult, hfind, hgiven, htarget, hsent,
    datagram, hqueued⟩

/-- A connect need not go where it is sent: an entry whose hold lapsed has an address already. -/
theorem not_forall_mailed_to_given_address : ¬∀ (engine : Engine), Reachable engine →
    ∀ (peer : Hit) (address : Address) (now : Nat),
      (engine.connect peer address now).result = .ok () →
    ∃ datagram, (engine.act (.connect peer address now)).datagrams =
      engine.datagrams ++ [⟨address, datagram⟩] := by
  intro hall
  obtain ⟨engine, peer, conn, given, hreachable, hresult, hfind, hgiven⟩ := exists_connect_elsewhere
  obtain ⟨datagram, -, -, hmailed, -⟩ := connect_mails_i1 hreachable hresult
  obtain ⟨other, hother⟩ := hall engine hreachable peer given 0 hresult
  have hsame := List.append_cancel_left (hmailed.symm.trans hother)
  simp only [destination, hfind, Option.map_some, Option.getD_some, List.cons.injEq,
    Outgoing.mk.injEq] at hsame
  exact hgiven hsame.1.1

end DietExchange.Engine
