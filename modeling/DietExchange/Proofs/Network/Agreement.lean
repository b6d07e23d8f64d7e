import DietExchange.Proofs.Network.Crossing
import DietExchange.Proofs.Network.Sound

namespace DietExchange.Network

variable (network : Network) (yielded : Prop)

/-- Whether a connection is the one of an engine with the other, or one that would be. -/
def Linked (side : Side) (conn : Connection) : Prop :=
  (network.engine side).table.find? (network.peer side) = some conn ∨
    ((network.engine side).table.find? (network.peer side) = none ∧
      ∃ address, conn = Connection.fresh (network.engine side).hit (network.peer side) address)

def Responds (side : Side) : Prop :=
  ∃ conn, (network.engine side).table.find? (network.peer side) = some conn ∧ conn.Responds

/-- Whether a packet for the other engine was queued. -/
def Told (side : Side) (packet : Packet) : Prop :=
  ∃ datagram ∈ network.sent side, Packet.parse datagram = .ok packet ∧
    packet.receiver = network.peer side

def view (side : Side) : View where
  mine := (network.engine side).party
  theirs := (network.engine side.other).party
  told := network.Told side
  heard := network.Told side.other
  answered := network.Responds side.other
  yielded := yielded

/-- Whether what one host knows of the other is right on both sides. -/
def Sound : Prop := ∀ side conn, network.Linked side conn → (network.view yielded side).Sound conn

variable {network} {yielded : Prop} {event : Event} {side : Side} {conn : Connection}

theorem exists_linked (network : Network) (side : Side) : ∃ conn, network.Linked side conn := by
  cases hfind : (network.engine side).table.find? (network.peer side) with
  | none => exact ⟨_, .inr ⟨hfind, side.remote, rfl⟩⟩
  | some conn => exact ⟨conn, .inl hfind⟩

theorem Linked.responds (hlinked : network.Linked side conn) (hresponds : conn.Responds) :
    network.Responds side := by
  rcases hlinked with hfind | ⟨-, address, rfl⟩
  · exact ⟨conn, hfind, hresponds⟩
  · obtain ⟨keys, hkeys, -⟩ := hresponds
    cases hkeys

theorem Linked.of_responds (hlinked : network.Linked side conn)
    (hresponds : network.Responds side) :
    conn.Responds := by
  obtain ⟨found, hfound, hrole⟩ := hresponds
  rcases hlinked with hfind | ⟨hnone, -⟩
  · obtain rfl := Option.some.inj (hfind.symm.trans hfound)
    exact hrole
  · cases hnone.symm.trans hfound

theorem Honest.owns (hhonest : network.Honest) (hlinked : network.Linked side conn) :
    (network.view yielded side).Owns conn := by
  have hkept : (network.engine side).Kept conn ∧ conn.peer = network.peer side := by
    rcases hlinked with hfind | ⟨-, address, rfl⟩
    · obtain ⟨hmem, hpeer⟩ := ConnectionTable.find?_eq_some_iff.mp hfind
      exact ⟨(hhonest.reachable side).kept (hhonest.key side) hmem, hpeer⟩
    · exact ⟨Engine.kept_fresh _ _ _, rfl⟩
  exact ⟨hkept.1.form, hkept.1.outbox, hkept.1.host, hkept.2, hkept.1.speaks⟩

theorem Sound.trusts (hsound : network.Sound yielded) (side : Side) :
    (network.view yielded side).Trusts := by
  obtain ⟨conn, hlinked⟩ := network.exists_linked side.other
  have hother := hsound side.other conn hlinked
  exact ⟨hother.spoken, fun packet htold hkind =>
    hlinked.responds (hother.answers packet htold hkind)⟩

section Step

theorem party_step (network : Network) (event : Event) (side : Side) :
    ((network.step event).engine side).party = (network.engine side).party :=
  (network.continues_step event side).party

theorem told_step_other : (network.step event).Told event.side.other =
    network.Told event.side.other := by
  funext packet
  unfold Told
  rw [sent_step_other, peer_step]

theorem responds_step_other : (network.step event).Responds event.side.other =
    network.Responds event.side.other := by
  unfold Responds
  rw [engine_step_other, peer_step]

theorem view_step_self (yielded yielded' : Prop) : (network.step event).view yielded' event.side =
    { network.view yielded event.side with
      told := (network.step event).Told event.side
      yielded := yielded' } := by
  unfold view
  rw [party_step, party_step, told_step_other, responds_step_other]

theorem view_step_other (yielded yielded' : Prop) :
    (network.step event).view yielded' event.side.other =
    { network.view yielded event.side.other with
      heard := (network.step event).Told event.side
      answered := (network.step event).Responds event.side
      yielded := yielded' } := by
  unfold view
  rw [party_step, party_step, told_step_other, Side.other_other]

theorem told_step_self {packet : Packet} : (network.step event).Told event.side packet ↔
    network.Told event.side packet ∨ ∃ out ∈ (network.engine event.side).queuedBy event.call,
      Packet.parse out.datagram = .ok packet ∧ packet.receiver = network.peer event.side := by
  unfold Told
  rw [sent_step_self, peer_step]
  simp only [List.mem_append, List.mem_map, or_and_right, exists_or]
  refine or_congr_right ⟨?_, ?_⟩
  · rintro ⟨datagram, ⟨out, hout, rfl⟩, hrest⟩
    exact ⟨out, hout, hrest⟩
  · rintro ⟨out, hout, hrest⟩
    exact ⟨out.datagram, ⟨out, hout, rfl⟩, hrest⟩

theorem linked_step_other : (network.step event).Linked event.side.other conn ↔
    network.Linked event.side.other conn := by
  unfold Linked
  rw [engine_step_other, peer_step]

/-- A call that leaves the connection with the other engine alone changes nothing. -/
theorem Sound.of_undisturbed (hsound : network.Sound yielded) (hundisturbed :
      (network.engine event.side).Undisturbed event.call (network.peer event.side)) :
    (network.step event).Sound (yielded ∨ network.Yields event) := by
  have hstays : ¬network.Yields event := by
    intro hyields
    have hafter := hyields.responds
    rw [state?_step_self, Engine.state?, hundisturbed.find] at hafter
    cases hafter.symm.trans hyields.done
  have hyielded : (yielded ∨ network.Yields event) = yielded :=
    propext ⟨fun hyes => hyes.resolve_right hstays, .inl⟩
  have htold : (network.step event).Told event.side = network.Told event.side := by
    funext packet
    refine propext (told_step_self.trans ⟨fun hyes => hyes.resolve_right ?_, .inl⟩)
    rintro ⟨out, hout, hparse, hreceiver⟩
    exact hundisturbed.queued out hout ⟨packet, hparse, hreceiver⟩
  have hfind : ((network.step event).engine event.side).table.find?
      ((network.step event).peer event.side) =
      (network.engine event.side).table.find? (network.peer event.side) := by
    rw [engine_step_self, peer_step, hundisturbed.find]
  have hhit : ((network.step event).engine event.side).hit = (network.engine event.side).hit :=
    (network.continues_step event event.side).hit
  rw [hyielded]
  intro side conn hlinked
  rcases side.eq_or_eq_other event.side with rfl | rfl
  · rw [view_step_self yielded, htold]
    refine hsound _ conn ?_
    unfold Linked at hlinked ⊢
    rwa [hfind, hhit, peer_step] at hlinked
  · have hresponds : (network.step event).Responds event.side = network.Responds event.side := by
      unfold Responds
      rw [hfind]
    rw [view_step_other yielded, htold, hresponds]
    have hbefore := hsound _ conn (linked_step_other.mp hlinked)
    exact hbefore.mono (fun _ htold => by simpa [view] using htold)
      (fun hresponds => by simpa [view] using hresponds) id hbefore.yields

section Drives

variable {stimulus : Stimulus} {before moved : Connection} (hdrives :
  (network.engine event.side).Drives event.call (network.peer event.side) stimulus before moved)
include hdrives

/-- The engine that begins anew is seen to do so by its connection. -/
theorem yields_iff (hform : before.WellFormed) : network.Yields event ↔
    before.state = .established ∧ ¬before.Responds ∧ moved.state = .r2Sent := by
  constructor
  · rintro ⟨hdone, ⟨keys, hkeys, hrole⟩, hresponds⟩
    rw [state?_step_self] at hresponds
    obtain ⟨found, hfound, hstate⟩ := Option.map_eq_some_iff.mp hdone
    obtain rfl : before = found := hdrives.eq_of_find? hfound
    refine ⟨hstate, ?_, ?_⟩
    · rintro ⟨held, hheld, hresponder⟩
      obtain rfl := Option.some.inj (hkeys.symm.trans (Engine.keys?_of_find? hfound hheld))
      rw [hrole] at hresponder
      cases hresponder
    · rcases hdrives.kept with hfind | ⟨-, hnone, -⟩
      · have hafter :=
          Engine.state?_of_find? hfind (show moved.settled.state = moved.state from rfl)
        exact Option.some.inj (hafter.symm.trans hresponds)
      · cases hnone.symm.trans hfound
  · rintro ⟨hstate, hinitiated, hr2Sent⟩
    have hfind : (network.engine event.side).table.find? (network.peer event.side) =
        some before := by
      rcases hdrives.offered with hfind | ⟨-, address, rfl⟩
      · exact hfind
      · cases hstate
    obtain ⟨keys, hkeys⟩ := Option.isSome_iff_exists.mp (hform.established hstate)
    have hrole : keys.isInitiator = true := by
      rw [← Bool.not_eq_false]
      exact fun hresponder => hinitiated ⟨keys, hkeys, hresponder⟩
    refine ⟨Engine.state?_of_find? hfind hstate,
      ⟨keys, Engine.keys?_of_find? hfind hkeys, hrole⟩, ?_⟩
    rw [state?_step_self]
    rcases hdrives.kept with hafter | ⟨hidle, -⟩
    · exact Engine.state?_of_find? hafter hr2Sent
    · cases hidle.symm.trans hr2Sent

/-- A packet that is no I1 was queued by the other engine. -/
theorem told_of_stimulus (hadmits : network.Admits event) {packet : Packet}
    (hstimulus : stimulus = .packet packet) (hkind : packet.kind ≠ .i1) :
    network.Told event.side.other packet := by
  obtain ⟨hsender, hreceiver, datagram, source, now, hcall, hparse⟩ :=
    hdrives.packet packet hstimulus
  refine ⟨datagram, hadmits.queued datagram source now packet hcall hparse hsender hkind,
    hparse, ?_⟩
  rw [hreceiver, peer, Side.other_other]

/-- What this move changes for the engine that is called. -/
theorem moves_of_move (yielded : Prop) (hadmits : network.Admits event) (hform : before.WellFormed)
    {ctx : Context} (hparty : ctx.party = (network.engine event.side).party)
    (hmove : before.Move ctx stimulus moved) :
    (network.view yielded event.side).Moves ctx stimulus before moved
      ((network.step event).Told event.side) (yielded ∨ network.Yields event) := by
  refine ⟨hparty, hmove, fun packet => told_of_stimulus hdrives hadmits, fun packet htold => ?_,
    fun datagram packet hout hparse hreceiver => ?_, fun packet htold => ?_, ?_⟩
  · exact told_step_self.mpr (.inl htold)
  · have hsent : ⟨moved.address, datagram⟩ ∈ moved.outgoing :=
      Connection.mem_outgoing_iff.mpr ⟨rfl, hout⟩
    exact told_step_self.mpr
      (.inr ⟨_, hdrives.queued _ hsent, hparse, hreceiver.trans hdrives.peer_eq⟩)
  · refine (told_step_self.mp htold).imp_right ?_
    rintro ⟨out, hout, hparse, hreceiver⟩
    obtain ⟨-, htransmit⟩ :=
      Connection.mem_outgoing_iff.mp (hdrives.queuedOnly out hout ⟨packet, hparse, hreceiver⟩)
    exact ⟨out.datagram, htransmit, hparse⟩
  · exact or_congr_right (yields_iff hdrives hform)

theorem moves_step (yielded : Prop) (hadmits : network.Admits event) (hform : before.WellFormed) :
    ∃ ctx, (network.view yielded event.side).Moves ctx stimulus before moved
      ((network.step event).Told event.side) (yielded ∨ network.Yields event) := by
  obtain ⟨ctx, hparty, -, hmove⟩ := hdrives.move
  exact ⟨ctx, moves_of_move hdrives yielded hadmits hform hparty hmove⟩

/-- A call that moves the connection with the other engine leaves things right on both sides. -/
theorem Sound.of_drives (hhonest : network.Honest) (hadmits : network.Admits event)
    (hsound : network.Sound yielded) :
    (network.step event).Sound (yielded ∨ network.Yields event) := by
  have hlinked : network.Linked event.side before := hdrives.offered
  have howns : (network.view yielded event.side).Owns before := hhonest.owns hlinked
  obtain ⟨ctx, hmoves⟩ := moves_step hdrives yielded hadmits howns.form
  have hbefore := hsound _ before hlinked
  have hmoved := hbefore.move howns (hhonest.key _) hmoves (hhonest.distinct _) (hsound.trusts _)
  have hform := howns.form.move hmoves.move
  intro side conn hafter
  rcases side.eq_or_eq_other event.side with rfl | rfl
  · rw [view_step_self yielded]
    unfold Linked at hafter
    rw [engine_step_self, peer_step] at hafter
    rcases hdrives.kept with hfind | ⟨hstate, -, hnone⟩
    · rcases hafter with hfound | ⟨hnone, -⟩
      · obtain rfl := Option.some.inj (hfind.symm.trans hfound)
        exact hmoved.settled
      · cases hnone.symm.trans hfind
    · rcases hafter with hfound | ⟨-, address, rfl⟩
      · cases hnone.symm.trans hfound
      · exact hmoved.of_keyless (hform.keyless (.inl hstate)) rfl rfl (by simp [Connection.fresh])
  · rw [view_step_other yielded]
    have hother := linked_step_other.mp hafter
    have hothers := hsound _ conn hother
    refine hothers.mono (fun packet htold => ?_) (fun hresponds => ?_) .inl ?_
    · refine told_step_self.mpr (.inl ?_)
      simpa [view] using htold
    · have hours : before.Responds := hlinked.of_responds (by simpa [view] using hresponds)
      have hstill := hmoves.move.responds howns.form hours
      rcases hdrives.kept with hfind | ⟨hstate, -⟩
      · refine ⟨moved.settled, ?_, hstill⟩
        rw [engine_step_self, peer_step]
        exact hfind
      · obtain ⟨keys, hkeys, -⟩ := hstill
        cases (hform.keyless (.inl hstate)).symm.trans hkeys
    · rintro (hold | hyields)
      · exact hothers.yields hold
      · obtain ⟨hdone, hinitiated, -⟩ := (yields_iff hdrives howns.form).mp hyields
        exact hother.of_responds ((hbefore.established hdone).resolve_left hinitiated)

end Drives

/-- Whatever the network brings about leaves things right on both sides. -/
theorem Sound.step (hhonest : network.Honest) (hadmits : network.Admits event)
    (hsound : network.Sound yielded) :
    (network.step event).Sound (yielded ∨ network.Yields event) := by
  rcases Engine.undisturbed_or_drives (hhonest.reachable event.side) (hhonest.key event.side)
    (hhonest.isOpen event.side) hadmits.notClose (network.peer event.side) with
    hundisturbed | ⟨stimulus, before, moved, hdrives⟩
  · exact hsound.of_undisturbed hundisturbed
  · exact Sound.of_drives hdrives hhonest hadmits hsound

theorem Sound.run {events : List Event} (hhonest : network.Honest) (hlawful : network.Lawful events)
    (hsound : network.Sound yielded) :
    (network.run events).Sound (yielded ∨ network.YieldsIn events) := by
  induction events generalizing network yielded with
  | nil =>
    rw [show (yielded ∨ network.YieldsIn []) = yielded from or_false yielded]
    exact hsound
  | cons event rest ih =>
    obtain ⟨hadmits, hrest⟩ := hlawful
    rw [YieldsIn, ← or_assoc]
    exact ih (hhonest.step hadmits) hrest (hsound.step hhonest hadmits)

end Step

section Start

variable {left right : Engine}

theorem not_told_start {side : Side} {packet : Packet} : ¬(start left right).Told side packet :=
  fun ⟨_, hsent, _⟩ => List.not_mem_nil hsent

variable (hleft : left.table = .empty) (hright : right.table = .empty)
include hleft hright

theorem fresh_of_linked_start {side : Side} {conn : Connection}
    (hlinked : (start left right).Linked side conn) :
    ∃ address,
      conn = Connection.fresh ((start left right).engine side).hit ((start left right).peer side)
      address := by
  have hnone : ((start left right).engine side).table.find? ((start left right).peer side) =
      none := by
    cases side with
    | left => exact congrArg (ConnectionTable.find? · _) hleft
    | right => exact congrArg (ConnectionTable.find? · _) hright
  rcases hlinked with hfind | ⟨-, hfresh⟩
  · cases hnone.symm.trans hfind
  · exact hfresh

/-- Two engines without connections have told each other nothing. -/
theorem sound_start : (start left right).Sound False := by
  intro side conn hlinked
  obtain ⟨address, rfl⟩ := fresh_of_linked_start hleft hright hlinked
  exact {
    spoken := fun packet id htold => absurd htold not_told_start
    keyed := fun packet htold => absurd htold not_told_start
    last := fun packet htold => absurd htold not_told_start
    unique := fun packet _ htold => absurd htold not_told_start
    answers := fun packet htold => absurd htold not_told_start
    pending := fun pending hsome => by cases hsome
    initiator := fun keys hsome => by cases hsome
    responder := fun keys hsome => by cases hsome
    established := fun hstate => by cases hstate
    larger := fun packet htold => absurd htold not_told_start
    yields := False.elim }

end Start

section Done

variable (hsound : network.Sound yielded) {mine theirs : Connection}
  (hmine : (network.engine side).table.find? (network.peer side) = some mine)
  (htheirs : (network.engine side.other).table.find? (network.peer side.other) = some theirs)
include hsound hmine htheirs

/-- The keys of an initiator are those of the responder: both are those of the one I2. -/
theorem Sound.sameKeys (hhonest : network.Honest) {keys shared : KeySet}
    (hkeys : mine.keys = some keys) (hinitiator : keys.isInitiator = true)
    (hshared : theirs.keys = some shared) (hresponder : shared.isInitiator = false) :
      keys.SameKeys shared := by
  have hours := hsound side mine (.inl hmine)
  obtain ⟨packet, solution, htold, hkind, hsolution, hderived⟩ :=
    hours.initiator keys hkeys hinitiator
  obtain ⟨heard, answer, hheard, hheardKind, hanswer, hderivedShared⟩ :=
    (hsound side.other theirs (.inl htheirs)).responder shared hshared hresponder
  simp only [view, Side.other_other] at hheard hderivedShared
  obtain rfl := hours.unique packet heard htold hkind hheard hheardKind
  obtain rfl := Option.some.inj (hsolution.symm.trans hanswer)
  exact hderived.sameKeys (hhonest.lengths side) (hhonest.agreement side) hderivedShared hinitiator
    hresponder

/-- If both are responders, the one with the smaller HIT was an initiator and began anew. -/
theorem Sound.yielded_of_responds (hours : mine.Responds)
    (hothers : theirs.Responds) : yielded := by
  have hpacket : ∀ side conn, (network.engine side).table.find? (network.peer side) = some conn →
      conn.Responds → ∃ packet, network.Told side.other packet ∧ packet.kind = .i2 := by
    rintro side conn hfind ⟨keys, hkeys, hrole⟩
    obtain ⟨packet, -, htold, hkind, -⟩ :=
      (hsound side conn (.inl hfind)).responder keys hkeys hrole
    exact ⟨packet, htold, hkind⟩
  obtain ⟨heard, hheard, hheardKind⟩ := hpacket side mine hmine hours
  obtain ⟨packet, htold, hkind⟩ := hpacket side.other theirs htheirs hothers
  rw [Side.other_other] at htold
  have hlarger := (hsound side mine (.inl hmine)).larger packet htold hkind hours
  have hlargerOther :=
    (hsound side.other theirs (.inl htheirs)).larger heard hheard hheardKind hothers
  simp only [view, Side.other_other] at hlarger hlargerOther
  cases hlarger with
  | inl hlt =>
    cases hlargerOther with
    | inl hgt => exact absurd hgt (Nat.lt_asymm hlt)
    | inr hyielded => exact hyielded
  | inr hyielded => exact hyielded

/-- If nobody began anew, the two hold the same keys, in different roles. -/
theorem Sound.agree (hhonest : network.Honest) (hnot : ¬yielded) (hdone : mine.state = .established)
    {keys shared : KeySet} (hkeys : mine.keys = some keys) (hshared : theirs.keys = some shared) :
    keys.SameKeys shared ∧ keys.isInitiator ≠ shared.isInitiator := by
  cases hrole : keys.isInitiator with
  | true =>
    have hours : ¬mine.Responds := by simp [Connection.responds_iff hkeys, hrole]
    have hanswered := ((hsound side mine (.inl hmine)).established hdone).resolve_left hours
    have hothers : theirs.Responds := Linked.of_responds (.inl htheirs) hanswered
    have hother := (Connection.responds_iff hshared).mp hothers
    refine ⟨hsound.sameKeys hmine htheirs hhonest hkeys hrole hshared hother, ?_⟩
    simp [hother]
  | false =>
    have hours : mine.Responds := (Connection.responds_iff hkeys).mpr hrole
    have hother : shared.isInitiator = true := by
      rw [← Bool.not_eq_false, ← Connection.responds_iff hshared]
      exact fun hothers => hnot (hsound.yielded_of_responds hmine htheirs hours hothers)
    have hback : (network.engine side.other.other).table.find? (network.peer side.other.other) =
        some mine := by
      rw [Side.other_other]
      exact hmine
    have hsame := hsound.sameKeys htheirs hback hhonest hshared hother hkeys hrole
    refine ⟨⟨hsame.1.symm, hsame.2.symm⟩, ?_⟩
    simp [hother]

end Done

/-- Whatever the network does to two honest engines that had nothing to do with each other: when
    both are done with each other, they hold the same keys, one of them as the initiator and one as
    the responder, unless an engine that was done as the initiator began anew, which leaves two
    responders. -/
theorem keys_agree {left right : Engine} (hhonest : (start left right).Honest)
    (hleft : left.table = .empty) (hright : right.table = .empty) {events : List Event}
    (hlawful : (start left right).Lawful events)
    (hdone : ∀ side, ((start left right).run events).state? side = some .established) :
    ∃ mine theirs : KeySet, ((start left right).run events).keys? .left = some mine ∧
      ((start left right).run events).keys? .right = some theirs ∧
      (¬(start left right).YieldsIn events →
        mine.SameKeys theirs ∧ mine.isInitiator ≠ theirs.isInitiator) ∧
      ((start left right).YieldsIn events → mine.isInitiator = false ∧ theirs.isInitiator =
        false) := by
  have hsound := (sound_start hleft hright).run hhonest hlawful
  have hstill := hhonest.run hlawful
  rw [false_or] at hsound
  generalize (start left right).run events = network at hsound hstill hdone
  generalize (start left right).YieldsIn events = yielded at hsound
  have hkeys : ∀ side, ∃ conn keys,
      (network.engine side).table.find? (network.peer side) = some conn ∧
      conn.state = .established ∧ conn.keys = some keys := by
    intro side
    obtain ⟨conn, hfind, hstate⟩ := Option.map_eq_some_iff.mp (hdone side)
    obtain ⟨hmem, -⟩ := ConnectionTable.find?_eq_some_iff.mp hfind
    have hsome := ((hstill.reachable side).wellFormed hmem).established hstate
    obtain ⟨keys, hkeys⟩ := Option.isSome_iff_exists.mp hsome
    exact ⟨conn, keys, hfind, hstate, hkeys⟩
  obtain ⟨ours, mine, hours, hestablished, hmine⟩ := hkeys .left
  obtain ⟨others, theirs, hothers, -, htheirs⟩ := hkeys .right
  refine ⟨mine, theirs, Engine.keys?_of_find? hours hmine, Engine.keys?_of_find? hothers htheirs,
    fun hnot => hsound.agree hours hothers hstill hnot hestablished hmine htheirs,
      fun hyielded => ?_⟩
  exact ⟨(Connection.responds_iff hmine).mp ((hsound .left ours (.inl hours)).yields hyielded),
    (Connection.responds_iff htheirs).mp ((hsound .right others (.inl hothers)).yields hyielded)⟩

/-- Two hosts whose I2s cross agree if only one of them is delivered. -/
theorem exists_keys_agree : ∃ (left right : Engine) (events : List Event) (mine theirs : KeySet),
    (start left right).Lawful events ∧
    (∀ side, ((start left right).run events).state? side = some .established) ∧
    ((start left right).run events).keys? .left = some mine ∧
    ((start left right).run events).keys? .right = some theirs ∧
    ¬(start left right).YieldsIn events ∧ mine.SameKeys theirs ∧
    mine.isInitiator ≠ theirs.isInitiator := by
  obtain ⟨left, right, hleft, hright, hmeetsLeft, hmeetsRight, hsmaller⟩ := SampleHost.exists_meets
  obtain ⟨events, hlawful, hdone, keys, hkeys, hrole⟩ :=
    exists_settled hmeetsLeft hmeetsRight hsmaller
  obtain ⟨mine, theirs, hmine, htheirs, hagree, hyielded⟩ :=
    keys_agree (honest_of_meets hmeetsLeft hmeetsRight) hleft.table hright.table hlawful hdone
  obtain rfl := Option.some.inj (hmine.symm.trans hkeys)
  have hnot : ¬(start left right).YieldsIn events := by
    intro hyields
    rw [(hyielded hyields).1] at hrole
    cases hrole
  exact ⟨left, right, events, mine, theirs, hlawful, hdone, hmine, htheirs, hnot, hagree hnot⟩

/-- Not every run leaves one initiator and one responder: the late I2 of the larger HIT leaves two
    responders, though the engines were just created and time never went back. -/
theorem not_forall_one_initiator : ¬∀ (left right : Engine) (events : List Event),
    (∃ config identity source rest seed now log,
      Engine.create config identity source seed now = (.ok (left, log), rest)) →
    (∃ config identity source rest seed now log,
      Engine.create config identity source seed now = (.ok (right, log), rest)) →
    (start left right).Honest → (start left right).Lawful events → Event.Timely events →
    (∀ side, ((start left right).run events).state? side = some .established) →
    ∃ mine theirs : KeySet, ((start left right).run events).keys? .left = some mine ∧
      ((start left right).run events).keys? .right = some theirs ∧ mine.SameKeys theirs ∧
      mine.isInitiator ≠ theirs.isInitiator := by
  intro hall
  obtain ⟨left, right, hleft, hright, hmeetsLeft, hmeetsRight, hsmaller⟩ := SampleHost.exists_meets
  obtain ⟨events, hlawful, htimely, hfinal⟩ := exists_two_responders hmeetsLeft hmeetsRight hsmaller
  obtain ⟨leftLog, leftRest, hleftCreated⟩ := hleft.created
  obtain ⟨rightLog, rightRest, hrightCreated⟩ := hright.created
  obtain ⟨mine, theirs, hmine, htheirs, -, hroles⟩ := hall left right events
    ⟨_, _, _, _, _, _, _, hleftCreated⟩ ⟨_, _, _, _, _, _, _, hrightCreated⟩
    (honest_of_meets hmeetsLeft hmeetsRight) hlawful htimely fun side => (hfinal side).1
  obtain ⟨-, leftKeys, hleftKeys, hleftRole⟩ := hfinal .left
  obtain ⟨-, rightKeys, hrightKeys, hrightRole⟩ := hfinal .right
  obtain rfl := Option.some.inj (hmine.symm.trans hleftKeys)
  obtain rfl := Option.some.inj (htheirs.symm.trans hrightKeys)
  exact hroles (hleftRole.trans hrightRole.symm)

end DietExchange.Network
