import DietExchange.Proofs.Connection.Role
import DietExchange.Proofs.Engine.Stage

namespace DietExchange

namespace Engine

/-- A puzzle is being solved and nothing was queued for the peer yet, or the I2 was queued that
    answers it, and no other packet. -/
def Works (party : Party) (host peer : Hit) (puzzle : Puzzle) (keys : KeySet) (conn : Connection)
    (queue : List Outgoing) : Prop :=
  (conn.Solves puzzle keys ∧ ∀ out ∈ queue, ¬out.IsFor peer) ∨ ∃ datagram,
    conn.AwaitsR2 keys datagram ∧ Connection.IsAnswer party host peer puzzle keys datagram ∧
    (∃ out ∈ queue, out.datagram = datagram) ∧
    ∀ out ∈ queue, out.IsFor peer → out.datagram = datagram

theorem Works.append {party : Party} {host peer : Hit} {puzzle : Puzzle} {keys : KeySet}
    {conn : Connection} {queue new : List Outgoing} (hnew : ∀ out ∈ new, ¬out.IsFor peer)
    (hworks : Works party host peer puzzle keys conn queue) :
    Works party host peer puzzle keys conn (queue ++ new) := by
  rcases hworks with ⟨hsolves, hnone⟩ | ⟨datagram, hawaits, hanswer, ⟨out, hout, heq⟩, honly⟩
  · refine .inl ⟨hsolves, fun out hout => ?_⟩
    cases List.mem_append.mp hout with
    | inl hout => exact hnone out hout
    | inr hout => exact hnew out hout
  · refine .inr ⟨datagram, hawaits, hanswer, ⟨out, List.mem_append_left _ hout, heq⟩, ?_⟩
    intro other hother hfor
    cases List.mem_append.mp hother with
    | inl hother => exact honly other hother hfor
    | inr hother => exact absurd hfor (hnew other hother)

theorem Works.elapses {ctx : Context} {conn moved : Connection} {puzzle : Puzzle} {keys : KeySet}
    {queue new : List Outgoing} (hform : conn.WellFormed) (houtbox : conn.outbox = [])
    (hcurve : ctx.identity.HasCurveKey)
    (hlength : Config.IsKeyLength keys.initiator.integrity.length)
    (helapses : conn.Elapses ctx moved) (hqueued : ∀ out ∈ moved.outgoing, out ∈ new)
    (honly : ∀ out ∈ new, out.IsFor conn.peer → out ∈ moved.outgoing)
    (hworks : Works ctx.party conn.host conn.peer puzzle keys conn queue) :
    Works ctx.party conn.host conn.peer puzzle keys moved.settled (queue ++ new) ∧
      moved.completions = [] := by
  -- whatever is transmitted in I2_SENT is the I2, since nothing else was sent last
  have hrepeats : ∀ datagram, moved.AwaitsR2 keys datagram → ∀ out ∈ new, out.IsFor conn.peer →
      out.datagram = datagram := by
    intro datagram hawaits out hout hfor
    obtain ⟨-, htransmit⟩ := Connection.mem_outgoing_iff.mp (honly out hout hfor)
    obtain ⟨kind, hsent⟩ := helapses.lastSent_of_transmit hform houtbox htransmit
    have heq := Option.some.inj (hsent.symm.trans hawaits.lastSent)
    exact congrArg SentPacket.datagram heq
  rcases hworks with ⟨hsolves, hnone⟩ | ⟨datagram, hawaits, hanswer, ⟨out, hout, heq⟩, hall⟩
  · obtain ⟨hcompletions, ⟨hstill, hempty⟩ | ⟨datagram, hawaits, htransmit, hanswer⟩⟩ :=
      hsolves.elapses hform houtbox hcurve hlength helapses
    · refine ⟨.inl ⟨⟨hstill.state, hstill.pending⟩, fun out hout hfor => ?_⟩, hcompletions⟩
      cases List.mem_append.mp hout with
      | inl hout => exact hnone out hout hfor
      | inr hout =>
        have hnothing := honly out hout hfor
        rw [Connection.outgoing, hempty] at hnothing
        exact absurd hnothing List.not_mem_nil
    · have hsent : ⟨moved.address, datagram⟩ ∈ moved.outgoing :=
        Connection.mem_outgoing_iff.mpr ⟨rfl, htransmit⟩
      refine ⟨.inr ⟨datagram, ⟨hawaits.state, hawaits.keys, hawaits.lastSent⟩, hanswer,
        ⟨_, List.mem_append_right _ (hqueued _ hsent), rfl⟩, fun out hout hfor => ?_⟩, hcompletions⟩
      cases List.mem_append.mp hout with
      | inl hout => exact absurd hfor (hnone out hout)
      | inr hout => exact hrepeats datagram hawaits out hout hfor
  · obtain ⟨hstill, hcompletions⟩ := hawaits.elapses hform houtbox helapses
    refine ⟨.inr ⟨datagram, ⟨hstill.state, hstill.keys, hstill.lastSent⟩, hanswer,
      ⟨out, List.mem_append_left _ hout, heq⟩, fun other hother hfor => ?_⟩, hcompletions⟩
    cases List.mem_append.mp hother with
    | inl hother => exact hall other hother hfor
    | inr hother => exact hrepeats datagram hstill other hother hfor

/-- A puzzle that is not worked on any more was answered. -/
theorem Works.solved {party : Party} {host peer : Hit} {puzzle : Puzzle} {keys : KeySet}
    {conn : Connection} {queue : List Outgoing}
    (hworks : Works party host peer puzzle keys conn queue) (hsolved : conn.isSolving = false) :
    ∃ datagram, conn.AwaitsR2 keys datagram ∧
      Connection.IsAnswer party host peer puzzle keys datagram ∧
      (∃ out ∈ queue, out.datagram = datagram) ∧
      ∀ out ∈ queue, out.IsFor peer → out.datagram = datagram := by
  refine hworks.resolve_left ?_
  rintro ⟨hsolves, -⟩
  obtain ⟨search, -, hpending⟩ := hsolves.pending
  rw [Connection.isSolving, hpending] at hsolved
  cases hsolved

section Run

variable {engine : Engine} (hreachable : Reachable engine) (hkey : engine.identity.HasCurveKey)
  (hopen : engine.closed = false) {calls : List Call} {peer : Hit}
  (hspares : ∀ call ∈ calls, call.Spares engine.hit peer) {conn : Connection}
  (hfind : engine.table.find? peer = some conn)
include hreachable hkey hopen hspares hfind

/-- What the passing of time keeps of a connection is kept by calls that concern other peers. -/
theorem keeps_run {I : Connection → Prop} (hsettled : ∀ conn : Connection, I conn → I conn.settled)
    (htime : ∀ ctx conn moved, (∃ order, .handleTimeout order ctx.now ∈ calls) → conn.WellFormed →
      conn.outbox = [] → conn.Elapses ctx moved → I conn → I moved ∧ moved.completions = [])
    (hconn : I conn) :
    ∃ later, (engine.run calls).table.find? peer = some later ∧ I later ∧
      (engine.toldIn calls).count peer = 0 := by
  have hstep : ∀ (ctx : Context) (conn moved : Connection) (queue new : List Outgoing),
      ctx.identity = engine.identity → ctx.config = engine.config →
      (∃ order, .handleTimeout order ctx.now ∈ calls) → conn.WellFormed → conn.outbox = [] →
      conn.peer = peer → conn.host = engine.identity.hit →
      conn.Elapses ctx moved → (∀ out ∈ moved.outgoing, out ∈ new) →
      (∀ out ∈ new, out.IsFor peer → out ∈ moved.outgoing) → I conn →
      I moved.settled ∧ moved.completions = [] := by
    intro ctx conn moved queue new _ _ hcall hform houtbox _ _ helapses _ _ hconn
    obtain ⟨hmoved, hcompletions⟩ := htime ctx conn moved hcall hform houtbox helapses hconn
    exact ⟨hsettled _ hmoved, hcompletions⟩
  exact sees_run (I := fun conn _ => I conn) (fun _ _ _ _ hconn => hconn) hstep rfl rfl
    hreachable hkey hopen hspares hfind [] hconn

theorem awaitsR1_run (hawaits : conn.AwaitsR1) :
    ∃ later, (engine.run calls).table.find? peer = some later ∧ later.AwaitsR1 ∧
      (engine.toldIn calls).count peer = 0 := by
  refine keeps_run hreachable hkey hopen hspares hfind (fun _ hconn => ⟨hconn.state, hconn.pending⟩)
    (fun _ _ _ _ hform houtbox helapses hconn => ?_) hawaits
  obtain ⟨hstill, hcompletions, -⟩ := Connection.AwaitsR1.elapses hconn hform houtbox helapses
  exact ⟨hstill, hcompletions⟩

theorem solves_run {puzzle : Puzzle} {keys : KeySet} (hsolves : conn.Solves puzzle keys)
    (hlength : Config.IsKeyLength keys.initiator.integrity.length) :
    ∃ later, (engine.run calls).table.find? peer = some later ∧
      Works engine.party engine.hit peer puzzle keys later (engine.queuedIn calls) ∧
      (engine.toldIn calls).count peer = 0 := by
  have hnone : Works engine.party engine.hit peer puzzle keys conn [] :=
    .inl ⟨hsolves, fun _ hout => absurd hout List.not_mem_nil⟩
  refine sees_run (fun _ _ _ hnew hworks => hworks.append hnew) ?_ rfl rfl hreachable hkey
    hopen hspares hfind [] hnone
  intro ctx conn moved queue new hidentity hconfig _ hform houtbox hpeer hhost helapses
    hqueued honly hworks
  have hparty : engine.party = ctx.party := by rw [Context.party, hidentity, hconfig]; rfl
  have hhit : engine.hit = conn.host := hhost.symm
  rw [hparty, hhit, ← hpeer] at hworks ⊢
  rw [← hpeer] at honly
  exact hworks.elapses hform houtbox (hidentity ▸ hkey) hlength helapses hqueued honly

theorem isDone_run {keys : KeySet} (hdone : conn.IsDone keys) :
    ∃ later, (engine.run calls).table.find? peer = some later ∧ later.IsDone keys ∧
      (engine.toldIn calls).count peer = 0 :=
  keeps_run hreachable hkey hopen hspares hfind (fun _ hconn => ⟨hconn.state, hconn.keys⟩)
    (fun _ _ _ _ hform houtbox helapses hconn => hconn.elapses hform houtbox helapses) hdone

theorem holds_run {keys : KeySet} {deadline : Nat} (hholds : conn.Holds keys deadline)
    (hearly : ∀ order now, .handleTimeout order now ∈ calls → now < deadline) :
    ∃ later, (engine.run calls).table.find? peer = some later ∧ later.Holds keys deadline ∧
      (engine.toldIn calls).count peer = 0 :=
  keeps_run hreachable hkey hopen hspares hfind
    (fun _ hconn => ⟨hconn.state, hconn.keys, hconn.holdUntil⟩)
    (fun ctx _ _ ⟨order, hcall⟩ hform houtbox helapses hconn =>
      hconn.elapses hform houtbox (hearly order ctx.now hcall) helapses) hholds

end Run

section Timeout

variable {engine : Engine} (hreachable : Reachable engine) (hkey : engine.identity.HasCurveKey)
  (hopen : engine.closed = false) {peer : Hit} {conn : Connection}
  (hfind : engine.table.find? peer = some conn)
include hreachable hkey hopen hfind

/-- A puzzle that every answer solves is solved the first time that the time is seen, and the I2 is
    queued. -/
theorem solves_at_once {puzzle : Puzzle} {keys : KeySet} (hsolves : conn.Solves puzzle keys)
    (hzero : puzzle.k = 0) (hbatch : 0 < engine.config.solveBatch)
    (hlength : Config.IsKeyLength keys.initiator.integrity.length) (order : List Hit) (now : Nat) :
    ∃ later datagram, (engine.after (.handleTimeout order now)).table.find? peer = some later ∧
      later.AwaitsR2 keys datagram ∧
      Connection.IsAnswer engine.party engine.hit peer puzzle keys datagram ∧
      ∃ out ∈ engine.queuedBy (.handleTimeout order now), out.datagram = datagram := by
  have hspares : ∀ call ∈ [Call.handleTimeout order now], call.Spares engine.hit peer := by
    simp [Call.Spares]
  obtain ⟨later, hlater, hworks, -⟩ :=
    solves_run hreachable hkey hopen hspares hfind hsolves hlength
  obtain ⟨hmem, rfl⟩ := ConnectionTable.find?_eq_some_iff.mp hfind
  obtain ⟨moved, hsees, helapses⟩ := sees_handleTimeout hreachable hkey hopen hmem order now
  rw [← (continues_after engine (.handleTimeout order now)).config] at hbatch
  have hsolved := hsolves.isSolving_of_k_eq_zero (hreachable.wellFormed hmem) hzero hbatch helapses
  obtain rfl := Option.some.inj (hlater.symm.trans hsees.find)
  obtain ⟨datagram, hawaits, hanswer, hqueued, -⟩ := hworks.solved hsolved
  rw [queuedIn, queuedIn, List.append_nil] at hqueued
  exact ⟨_, datagram, hlater, hawaits, hanswer, hqueued⟩

/-- A hold ends when the time is seen at its deadline or after it. -/
theorem holds_until {keys : KeySet} {deadline : Nat} (hholds : conn.Holds keys deadline)
    (order : List Hit) {now : Nat} (hdue : deadline ≤ now) :
    (engine.toldBy (.handleTimeout order now)).count peer = 1 ∧
      ∃ later, (engine.after (.handleTimeout order now)).table.find? peer = some later ∧
        later.IsDone keys := by
  obtain ⟨hmem, rfl⟩ := ConnectionTable.find?_eq_some_iff.mp hfind
  obtain ⟨moved, hsees, helapses⟩ := sees_handleTimeout hreachable hkey hopen hmem order now
  obtain ⟨hdone, hcompletions⟩ := hholds.elapses_due (hreachable.wellFormed hmem)
    (hreachable.outbox_eq_nil hmem) hdue helapses
  refine ⟨?_, moved.settled, hsees.find, hdone.state, hdone.keys⟩
  rw [hsees.told, hcompletions]
  rfl

/-- Keys of a responder are good for a complete handshake in the end. -/
theorem exists_isDone {keys : KeySet} (hkeys : conn.keys = some keys)
    (hrole : keys.isInitiator = false) (order : List Hit) (now : Nat) : ∃ deadline, now ≤ deadline ∧
      ∃ later, (engine.after (.handleTimeout order deadline)).table.find? peer = some later ∧
        later.IsDone keys := by
  obtain ⟨hmem, -⟩ := ConnectionTable.find?_eq_some_iff.mp hfind
  have hform := hreachable.wellFormed hmem
  rcases hform.of_responds ⟨keys, hkeys, hrole⟩ with hr2Sent | hestablished
  · obtain ⟨deadline, hhold⟩ := Option.isSome_iff_exists.mp (hform.hold.mpr hr2Sent)
    obtain ⟨-, hdone⟩ := holds_until hreachable hkey hopen hfind ⟨hr2Sent, hkeys, hhold⟩ order
      (Nat.le_max_right now deadline)
    exact ⟨_, Nat.le_max_left now deadline, hdone⟩
  · obtain ⟨later, hlater, hdone, -⟩ := isDone_run hreachable hkey hopen
      (show ∀ call ∈ [Call.handleTimeout order now],
        call.Spares engine.hit peer by simp [Call.Spares]) hfind ⟨hestablished, hkeys⟩
    exact ⟨now, Nat.le_refl now, later, hlater, hdone⟩

/-- A hold without keys comes to nothing in the end. -/
theorem exists_unassociated (hstate : conn.state = .r2Sent) (hkeyless : conn.keys = none)
    (order : List Hit) (now : Nat) : ∃ deadline, now ≤ deadline ∧
      ∃ later, (engine.after (.handleTimeout order deadline)).table.find? peer = some later ∧
        later.state = .unassociated := by
  obtain ⟨hmem, rfl⟩ := ConnectionTable.find?_eq_some_iff.mp hfind
  have hform := hreachable.wellFormed hmem
  obtain ⟨deadline, hhold⟩ := Option.isSome_iff_exists.mp (hform.hold.mpr hstate)
  obtain ⟨moved, hsees, helapses⟩ :=
    sees_handleTimeout hreachable hkey hopen hmem order (max now deadline)
  have hidle : moved.state = .unassociated :=
    helapses.state_of_keyless hform hstate hkeyless hhold (Nat.le_max_right now deadline)
  exact ⟨max now deadline, Nat.le_max_left now deadline, moved.settled, hsees.find, hidle⟩

end Timeout

end Engine

end DietExchange
