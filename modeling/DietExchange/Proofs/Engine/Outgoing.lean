import DietExchange.Proofs.Engine.Deadline

namespace DietExchange

namespace Packet

/-- The codes of the parameters, in wire order. -/
def codes (packet : Packet) : List UInt16 := packet.parameters.map fun parameter =>
    parameter.kind.code

theorem codes_canonical (packet : Packet) : packet.canonical.codes = packet.codes := by
  simp only [codes, canonical, List.map_map, Function.comp_def, Parameter.kind_canonical]

/-- The tag comes in the place of another. -/
theorem codes_of_recalculateMac {packet sealed : Packet} {key : List UInt8}
    (hseal : packet.recalculateMac key = .ok sealed) : sealed.codes = packet.codes := by
  obtain ⟨front, old, back, tag, -, hparameters, rfl, -⟩ := recalculateMac_spec hseal
  simp only [codes, hparameters, List.map_append, List.map_cons, Parameter.kind]

theorem codes_push (packet : Packet) (parameter : Parameter) :
    (packet.push parameter).codes = packet.codes ++ [parameter.kind.code] := by
  rw [codes, push, List.map_append, List.map_singleton, codes]

/-- A packet with parameters takes one unit more than the header at least. -/
theorem le_length_of_encode {packet : Packet} {bytes : List UInt8}
    (hencode : packet.encode = .ok bytes) (hsome : packet.codes ≠ []) : headerLength + 8 ≤
      bytes.length := by
  obtain ⟨body, hbody, hfits⟩ := bind_eq_ok_iff.mp hencode
  obtain ⟨-, hbytes⟩ := ite_error_eq_ok_iff.mp hfits
  obtain rfl := Except.ok.inj hbytes
  rw [Header.encodeWith, List.length_append, Header.length_encode]
  unfold codes at hsome
  cases hparameters : packet.parameters with
  | nil => simp [hparameters] at hsome
  | cons parameter rest =>
    rw [hparameters] at hbody
    obtain ⟨first, hfirst, hothers⟩ := bind_eq_ok_iff.mp hbody
    obtain ⟨others, -, hjoined⟩ := bind_eq_ok_iff.mp hothers
    obtain rfl := pure_eq_ok_iff.mp hjoined
    obtain ⟨units, hunits, hpositive⟩ := Parameter.length_of_encode hfirst
    rw [List.length_append, hunits]
    omega

/-- Whether a datagram is a packet of one host for another that can be put out: complete, of whole
    units of eight bytes, not too large, and with its parameters in ascending order. -/
structure IsDatagram (sender receiver : Hit) (datagram : List UInt8) : Prop where
  units : 8 ∣ datagram.length
  atLeast : 48 ≤ datagram.length
  atMost : datagram.length ≤ maxPacketLength
  parses : ∃ packet, parse datagram = .ok packet ∧ packet.sender = sender ∧
    packet.receiver = receiver ∧ packet.checkMandatory = .ok () ∧ packet.codes.Pairwise (· < ·)

theorem isDatagram_of_encode {packet : Packet} {datagram : List UInt8}
    (hencode : packet.encode = .ok datagram) (hparse : parse datagram = .ok packet.canonical)
    (hmandatory : packet.canonical.checkMandatory = .ok ()) (hsome : packet.codes ≠ [])
    (hascending : packet.codes.Pairwise (· < ·)) :
    IsDatagram packet.sender packet.receiver datagram := by
  obtain ⟨⟨units, hunits⟩, -, hmost⟩ := length_of_encode hencode
  refine ⟨⟨units, hunits⟩, le_length_of_encode hencode hsome, hmost, packet.canonical,
    hparse, rfl, rfl, hmandatory, ?_⟩
  rw [codes_canonical]
  exact hascending

end Packet

namespace Connection

variable {ctx : Context} {conn after : Connection} {datagram : List UInt8}

/-- The I2 has its parameters in ascending order, whatever is sent back. -/
theorem codes_i2 {puzzle : Puzzle} {answer : Block} {key : List UInt8} {sealed : Packet}
    (hseal : (ctx.i2 conn puzzle answer).recalculateMac key = .ok sealed)
    (echo : Option (List UInt8)) : (sealed.withEcho echo).codes = [321, 579, 643, 705, 61507] ∨
      (sealed.withEcho echo).codes = [321, 579, 643, 705, 61507, 63425] := by
  have hsealed : sealed.codes = [321, 579, 643, 705, 61507] := Packet.codes_of_recalculateMac hseal
  cases echo with
  | none => exact .inl hsealed
  | some data =>
    right
    rw [Packet.withEcho, Packet.codes_push, hsealed]
    rfl

/-- Every packet of the exchange can be put out. -/
theorem Sends.isDatagram {kind : PacketKind} (hkey : ctx.identity.HasCurveKey)
    (hsends : conn.Sends ctx kind datagram) : Packet.IsDatagram conn.host conn.peer datagram := by
  cases hsends with
  | i1 hencode =>
    have hcodes : (ctx.i1 conn).codes = [2151] := rfl
    exact Packet.isDatagram_of_encode hencode (Context.parse_i1 hencode)
      ((Packet.checkMandatory_canonical _).mpr rfl) (by simp [hcodes]) (by simp [hcodes])
  | @r1 challenge cookie _ hencode =>
    have hcodes : (ctx.r1 conn challenge cookie).codes = [128, 257, 705, 715, 2151] := rfl
    exact Packet.isDatagram_of_encode hencode (Context.parse_r1 hkey hencode)
      ((Packet.checkMandatory_canonical _).mpr rfl) (by simp [hcodes]) (by rw [hcodes]; decide)
  | @i2 _ _ _ _ echo _ hseal hencode =>
    obtain ⟨-, hsender, hreceiver⟩ := Context.header_i2 echo hseal
    have hcodes := codes_i2 hseal echo
    rw [← hsender, ← hreceiver]
    refine Packet.isDatagram_of_encode hencode (Context.parse_i2 echo hkey hseal hencode)
      (Context.checkMandatory_i2 hseal) ?_ ?_
    · rcases hcodes with hcodes | hcodes <;> simp [hcodes]
    · rcases hcodes with hcodes | hcodes <;> rw [hcodes] <;> decide
  | r2 hseal hencode =>
    obtain ⟨-, hsender, hreceiver⟩ := Context.header_r2 hseal
    have hcodes := Packet.codes_of_recalculateMac hseal
    have hplain : (ctx.r2 conn).codes = [643, 2151, 61507] := rfl
    rw [hplain] at hcodes
    rw [← hsender, ← hreceiver]
    exact Packet.isDatagram_of_encode hencode (Context.parse_r2 hseal hencode)
      (Context.checkMandatory_r2 hseal) (by simp [hcodes]) (by rw [hcodes]; decide)

/-- Whether the last packet that was sent, which may be sent again, can be put out. -/
def Mails (conn : Connection) : Prop :=
  ∀ sent, conn.lastSent = some sent → Packet.IsDatagram conn.host conn.peer sent.datagram

theorem Mails.move {stimulus : Stimulus} (hkey : ctx.identity.HasCurveKey)
    (hmove : conn.Move ctx stimulus after) (hmails : conn.Mails) : after.Mails := by
  intro sent hsent
  rw [hmove.host_eq, hmove.peer_eq]
  rcases hmove.lastSent_cases with hsame | ⟨kind, datagram, hsends, hnew⟩
  · exact hmails sent (hsame.symm.trans hsent)
  · obtain rfl := Option.some.inj (hsent.symm.trans hnew)
    exact hsends.isDatagram hkey

end Connection

namespace Engine

/-- Whether a datagram that was put in the queue of an engine was asked for by a connection as it
    stands here, in the course of the last call or of one before. -/
inductive AskedBy (conn : Connection) (out : Outgoing) : Engine → Prop where
  | call {engine : Engine} {call : Call} {before : Connection} (hreachable : Reachable engine)
    (hmoves : engine.Moves call before conn) (hout : out ∈ conn.outgoing) :
    AskedBy conn out (engine.after call)
  | afterCall {engine : Engine} (hasked : AskedBy conn out engine) (call : Call) :
    AskedBy conn out (engine.after call)

theorem AskedBy.address_eq {engine : Engine} {conn : Connection} {out : Outgoing}
    (hasked : AskedBy conn out engine) : out.address = conn.address := by
  induction hasked with
  | call _ _ hout => exact (Connection.mem_outgoing_iff.mp hout).1
  | afterCall _ _ ih => exact ih

variable {engine : Engine}

theorem Reachable.mails (hreachable : Reachable engine)
    (hkey : engine.identity.HasCurveKey) {conn : Connection}
    (hmem : conn ∈ engine.table.connections) : conn.Mails :=
  hreachable.connections (P := Connection.Mails) (fun _ _ _ hsent => by cases hsent)
    (fun _ _ _ _ hidentity hmove hmails => hmails.move (hidentity ▸ hkey) hmove)
    (fun _ hmails => hmails) conn hmem

/-- What a connection asks for in one move can be put out. -/
theorem Kept.isDatagram {ctx : Context} {stimulus : Stimulus} {conn moved : Connection}
    (hkept : engine.Kept conn) (hmails : conn.Mails) (hkey : engine.identity.HasCurveKey)
    (hidentity : ctx.identity = engine.identity) (hmove : conn.Move ctx stimulus moved)
    {out : Outgoing} (hout : out ∈ moved.outgoing) :
      Packet.IsDatagram engine.hit moved.peer out.datagram := by
  have hnone : .transmit out.datagram ∉ conn.outbox := by
    rw [hkept.outbox]
    exact List.not_mem_nil
  obtain ⟨-, htransmit⟩ := Connection.mem_outgoing_iff.mp hout
  obtain ⟨kind, hsent⟩ := (hmove.lastSent_of_transmit htransmit).resolve_left hnone
  rw [← hkept.host, ← hmove.host_eq]
  exact hmails.move (hidentity ▸ hkey) hmove _ hsent

/-- What is queued after a call was queued before or was asked for in the course of the call. -/
theorem Reachable.asked (hreachable : Reachable engine)
    (hkey : engine.identity.HasCurveKey) : ∀ out ∈ engine.datagrams, ∃ conn,
      AskedBy conn out engine ∧ Packet.IsDatagram engine.hit conn.peer out.datagram := by
  induction hreachable with
  | create hcreate =>
    intro out hout
    rw [(create_spec hcreate).2.2.2.1] at hout
    exact absurd hout List.not_mem_nil
  | @after engine hreachable call ih =>
    have hidentity := (engine.continues_after call).identity
    rw [hidentity] at hkey
    rw [hit_after]
    intro out hout
    rcases (engine.after_spec call).datagrams out hout with hold | ⟨before, moved, hmoves, hsent⟩
    · obtain ⟨conn, hasked, hdatagram⟩ := ih hkey out hold
      exact ⟨conn, hasked.afterCall call, hdatagram⟩
    refine ⟨moved, .call hreachable hmoves hsent, ?_⟩
    have hoffered : ∀ {peer : Hit} {address : Address}, engine.Offers peer address before →
        engine.Kept before ∧ before.Mails := fun hoffers =>
      hoffers.preserves (P := fun conn => engine.Kept conn ∧ conn.Mails)
        (fun _ hmem => ⟨hreachable.kept hkey hmem, hreachable.mails hkey hmem⟩)
        (fun _ _ => ⟨kept_fresh _ _ _, fun _ hsent => by cases hsent⟩)
    cases hmoves with
    | connect hoffers hmove | handlePacket _ _ _ hoffers hmove =>
      obtain ⟨hkept, hmails⟩ := hoffered hoffers
      exact hkept.isDatagram hmails hkey rfl hmove hsent
    | handleTimeout hmem helapses =>
      obtain ⟨stimulus, -, hmove⟩ := helapses.exists_move (hreachable.wellFormed hmem)
      exact (hreachable.kept hkey hmem).isDatagram (hreachable.mails hkey hmem) hkey hidentity
        hmove hsent

/-- Each datagram in the queue was asked for by a connection of the host and is for its address, and
    is a packet of the host for the peer of that connection. So there is always room for it in a
    buffer of the largest size. -/
theorem queued_datagrams_are_packets (hreachable : Reachable engine)
    (hkey : engine.identity.HasCurveKey) :
    (∀ out ∈ engine.datagrams, ∃ conn, AskedBy conn out engine ∧ out.address = conn.address ∧
      Packet.IsDatagram engine.hit conn.peer out.datagram) ∧
    ∀ length room, (engine.pollOutput maxPacketLength).1 ≠ .noRoom length room := by
  have hasked := hreachable.asked hkey
  constructor
  · intro out hout
    obtain ⟨conn, hconn, hdatagram⟩ := hasked out hout
    exact ⟨conn, hconn, hconn.address_eq, hdatagram⟩
  · intro length room hpoll
    unfold pollOutput at hpoll
    split at hpoll
    · cases hpoll
    · split at hpoll
      · rename_i address datagram rest hqueue
        obtain ⟨conn, -, hdatagram⟩ := hasked ⟨address, datagram⟩ (hqueue ▸ List.mem_cons_self)
        rw [if_neg (Nat.not_lt.mpr hdatagram.atMost)] at hpoll
        cases hpoll
      · cases hpoll

/-- The I1 of a sample host is such a packet. -/
theorem exists_queued_datagram : ∃ engine : Engine, Reachable engine ∧
    engine.identity.HasCurveKey ∧ (∃ out ∈ engine.datagrams, ∃ conn, AskedBy conn out engine ∧
      Packet.IsDatagram engine.hit conn.peer out.datagram) ∧
    ∀ length room, (engine.pollOutput maxPacketLength).1 ≠ .noRoom length room := by
  obtain ⟨engine, hnew⟩ := SampleHost.exists_isNew 1
  let peer := (SampleHost.identity 2).hit
  let call := Call.connect peer (.ofHost 2) 0
  have hpeer : peer ≠ engine.hit := hnew.hit_eq ▸ SampleHost.distinct.symm
  have hroom : engine.connectionCount < engine.config.maxConnections :=
    Nat.lt_of_le_of_lt (Nat.le_add_right _ 3) hnew.room
  obtain ⟨-, -, -, -, datagram, -, -, -, -, -, -, -, hqueued, -⟩ :=
    connect_sends_i1 hnew.isOpen hpeer (hnew.find?_eq_none peer) hroom (.ofHost 2) 0
  have hout : ⟨.ofHost 2, datagram⟩ ∈ engine.queuedBy call := by
    rw [show engine.queuedBy call = [⟨.ofHost 2, datagram⟩] from hqueued]
    exact List.mem_singleton_self _
  have hkey : (engine.after call).identity.HasCurveKey := by
    rw [(engine.continues_after call).identity, hnew.identity]
    exact SampleHost.hasCurveKey 1
  have hreachable := (hnew.reachable.after call)
  obtain ⟨hpackets, hpoll⟩ := queued_datagrams_are_packets hreachable hkey
  obtain ⟨conn, hasked, -, hdatagram⟩ := hpackets _ (List.mem_of_mem_drop hout)
  exact ⟨_, hreachable, hkey, ⟨_, List.mem_of_mem_drop hout, conn, hasked, hdatagram⟩, hpoll⟩

end Engine

end DietExchange
