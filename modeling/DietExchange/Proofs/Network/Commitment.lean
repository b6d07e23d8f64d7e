import DietExchange.Proofs.Engine.Completion
import DietExchange.Proofs.Network.Agreement

namespace DietExchange

/-- A connection that does not begin a handshake waits for no answer. -/
theorem Connection.Move.needsRetransmission_eq_false {ctx : Context} {stimulus : Stimulus}
    {conn moved : Connection} (hmove : conn.Move ctx stimulus moved) (hform : conn.WellFormed)
    (hstimulus : stimulus ≠ .initiate) (hrest : conn.state.needsRetransmission = false) :
    moved.state.needsRetransmission = false := by
  have hnot : ∀ state, conn.state = state → state.needsRetransmission = true → False := by
    rintro _ rfl hwaits
    cases hrest.symm.trans hwaits
  cases hmove with
  | initiate => exact absurd rfl hstimulus
  | ignore | answerI1 | resendR2 | wait | rest | search | lose | resend => exact hrest
  | answerI2AsI1 hstate | takeUpR1 hstate | acceptR2 hstate => exact (hnot _ hstate rfl).elim
  | answerI2 => simp [respond, holdTo, State.needsRetransmission]
  | establish | giveUp => simp [emit, State.needsRetransmission]
  | solve hpending => exact (hnot _ (hform.pending _ hpending).1 rfl).elim

/-- A connection that holds keys and waits for no answer is held or done. -/
theorem Connection.WellFormed.committed {conn : Connection} (hform : conn.WellFormed)
    (hkeys : conn.keys.isSome) (hrest : conn.state.needsRetransmission = false) :
    conn.state = .r2Sent ∨ conn.state = .established := by
  cases hstate : conn.state with
  | unassociated =>
    rw [hform.keyless (.inl hstate)] at hkeys
    cases hkeys
  | i1Sent | i2Sent =>
    rw [hstate] at hrest
    cases hrest
  | r2Sent => exact .inl rfl
  | established => exact .inr rfl
  | closing => exact absurd hstate hform.live.1
  | closed => exact absurd hstate hform.live.2

namespace Engine

/-- Whether an engine waits for no answer of a peer. -/
def IsPassive (engine : Engine) (peer : Hit) : Prop :=
  ∀ conn, engine.table.find? peer = some conn → conn.state.needsRetransmission = false

/-- An engine that is not asked to connect to a peer begins nothing with it. -/
theorem IsPassive.after {engine : Engine} {peer : Hit} (hpassive : engine.IsPassive peer)
    (hreachable : engine.Reachable) {call : Call}
    (hcall : ∀ address now, call ≠ .connect peer address now) :
      (engine.after call).IsPassive peer := by
  intro conn hfind
  obtain ⟨hmem, rfl⟩ := ConnectionTable.find?_eq_some_iff.mp hfind
  rcases (engine.after_spec call).connections conn hmem with hold | ⟨before, moved, hmoves, rfl⟩
  · exact hpassive conn (ConnectionTable.find?_eq_some_iff.mpr ⟨hold, rfl⟩)
  rw [Connection.peer_settled] at hpassive hcall
  cases hmoves with
  | @connect peer address now _ _ hoffers hmove =>
    obtain rfl := hmove.peer_eq.trans hoffers.peer_eq
    exact absurd rfl (hcall address now)
  | handlePacket _ _ _ hoffers hmove =>
    rw [hmove.peer_eq, hoffers.peer_eq] at hpassive
    have hbefore : before.WellFormed ∧ before.state.needsRetransmission = false := by
      rcases hoffers with hfind | ⟨-, -, rfl⟩
      · exact ⟨hreachable.wellFormed (ConnectionTable.find?_eq_some_iff.mp hfind).1,
          hpassive before hfind⟩
      · exact ⟨Connection.wellFormed_fresh _ _ _, rfl⟩
    exact hmove.needsRetransmission_eq_false hbefore.1 (by simp) hbefore.2
  | handleTimeout hold helapses =>
    have hbefore := hpassive before
      (ConnectionTable.find?_eq_some_iff.mpr ⟨hold, helapses.peer_eq.symm⟩)
    have hkept := helapses.preserves
      (P := fun conn => conn.WellFormed ∧ conn.state.needsRetransmission = false)
      (fun stimulus _ _ htime hmove hboth => ⟨hboth.1.move hmove,
        hmove.needsRetransmission_eq_false hboth.1 (by rintro rfl; simp at htime) hboth.2⟩)
      ⟨hreachable.wellFormed hold, hbefore⟩
    exact hkept.2

end Engine

namespace Network

/-- What holds of a host that never begins anything with the other: it waits for no answer, and it
    has sent no I2. -/
structure Follows (network : Network) (side : Side) : Prop where
  passive : (network.engine side).IsPassive (network.peer side)
  silent : ∀ packet, network.Told side packet → packet.kind ≠ .i2

variable {network : Network} {event : Event} {side : Side}

theorem Follows.step (hfollows : network.Follows side) (hhonest : network.Honest)
    (hadmits : network.Admits event) (hcall : event.side = side → ∀ address now,
      event.call ≠ .connect (network.peer side) address now) :
        (network.step event).Follows side := by
  rcases side.eq_or_eq_other event.side with rfl | rfl
  · have hpassive : ((network.step event).engine event.side).IsPassive
        ((network.step event).peer event.side) := by
      rw [engine_step_self, peer_step]
      exact hfollows.passive.after (hhonest.reachable _) (hcall rfl)
    refine ⟨hpassive, fun packet htold hkind => ?_⟩
    rcases Engine.undisturbed_or_drives (hhonest.reachable event.side) (hhonest.key event.side)
      (hhonest.isOpen event.side) hadmits.notClose (network.peer event.side) with
      hundisturbed | ⟨stimulus, before, moved, hdrives⟩
    · rcases told_step_self.mp htold with hold | ⟨out, hout, hparse, hreceiver⟩
      · exact hfollows.silent packet hold hkind
      · exact hundisturbed.queued out hout ⟨packet, hparse, hreceiver⟩
    · have howns : (network.view False event.side).Owns before := hhonest.owns hdrives.offered
      obtain ⟨ctx, hmoves⟩ := moves_step hdrives False hadmits howns.form
      rcases hmoves.i2_cases howns (hhonest.key _) htold hkind with hold | ⟨hstate, -⟩
      · exact hfollows.silent packet hold hkind
      · rw [engine_step_self, peer_step] at hpassive
        rcases hdrives.kept with hfind | ⟨hidle, -⟩
        · have hwaits := hpassive _ hfind
          rw [show moved.settled.state = .i2Sent from hstate] at hwaits
          cases hwaits
        · cases hidle.symm.trans hstate
  · constructor
    · rw [engine_step_other, peer_step]
      exact hfollows.passive
    · rw [told_step_other]
      exact hfollows.silent

/-- A host that is never asked to connect to the other begins nothing with it. -/
theorem Follows.run {events : List Event} (hfollows : network.Follows side)
    (hhonest : network.Honest) (hlawful : network.Lawful events) (hcalls : ∀ event ∈ events,
      event.side = side → ∀ address now, event.call ≠ .connect (network.peer side) address now) :
        (network.run events).Follows side := by
  induction events generalizing network with
  | nil => exact hfollows
  | cons event rest ih =>
    obtain ⟨hadmits, hrest⟩ := hlawful
    have hfirst := hfollows.step hhonest hadmits (hcalls event List.mem_cons_self)
    refine ih hfirst (hhonest.step hadmits) hrest fun other hmem => ?_
    rw [peer_step]
    exact hcalls other (List.mem_cons_of_mem _ hmem)

section Follower

variable {yielded : Prop} (hsound : network.Sound yielded) {initiator : Side}
  (hfollows : network.Follows initiator.other)
include hsound hfollows

/-- The host that begins is no responder to one that does not. -/
theorem Follows.not_responds {conn : Connection} (hlinked : network.Linked initiator conn) :
    ¬conn.Responds := by
  rintro ⟨keys, hkeys, hrole⟩
  obtain ⟨packet, -, htold, hkind, -⟩ := (hsound initiator conn hlinked).responder keys hkeys hrole
  exact hfollows.silent packet htold hkind

/-- Keys that the host holds that does not begin are those of a responder, and the other one holds
    the same as the initiator. -/
theorem Follows.exists_keys (hhonest : network.Honest) {theirs : Connection} {shared : KeySet}
    (hfind : (network.engine initiator.other).table.find? (network.peer initiator.other) =
      some theirs) (hshared : theirs.keys = some shared) : shared.isInitiator = false ∧ ∃ mine keys,
      (network.engine initiator).table.find? (network.peer initiator) = some mine ∧
      mine.keys = some keys ∧ keys.isInitiator = true ∧ keys.SameKeys shared := by
  have hothers := hsound initiator.other theirs (.inl hfind)
  have hresponder : shared.isInitiator = false := by
    rw [← Bool.not_eq_true]
    intro hrole
    obtain ⟨packet, -, htold, hkind, -⟩ := hothers.initiator shared hshared hrole
    exact hfollows.silent packet htold hkind
  obtain ⟨packet, -, hheard, hkind, -⟩ := hothers.responder shared hshared hresponder
  have htold : network.Told initiator packet := by simpa [view] using hheard
  -- whoever has sent an I2 has a connection with keys
  obtain ⟨mine, hlinked⟩ := network.exists_linked initiator
  have hkeyed := (hsound initiator mine hlinked).keyed packet htold hkind
  obtain ⟨keys, hkeys⟩ := Option.isSome_iff_exists.mp hkeyed
  have hmine : (network.engine initiator).table.find? (network.peer initiator) = some mine := by
    refine hlinked.resolve_right ?_
    rintro ⟨-, address, rfl⟩
    cases hkeys
  have hinitiator : keys.isInitiator = true := by
    rw [← Bool.not_eq_false, ← Connection.responds_iff hkeys]
    exact hfollows.not_responds hsound hlinked
  exact ⟨hresponder, mine, keys, hmine, hkeys, hinitiator,
    hsound.sameKeys hmine hfind hhonest hkeys hinitiator hshared hresponder⟩

end Follower

/-- Whatever the network does to two honest engines that had nothing to do with each other, if only
    one of them is ever asked to connect to the other: the other one holds keys only when this one
    holds the same, as the initiator, and when this one is done, the other one holds its keys and is
    in R2_SENT or done itself. -/
theorem commits_in_order {left right : Engine} (hhonest : (start left right).Honest)
    (hleft : left.table = .empty) (hright : right.table = .empty) (initiator : Side)
    {events : List Event} (hlawful : (start left right).Lawful events)
    (hsingle : ∀ event ∈ events, event.side = initiator.other → ∀ address now,
      event.call ≠ .connect ((start left right).peer initiator.other) address now) :
    (∀ theirs, ((start left right).run events).keys? initiator.other = some theirs →
      theirs.isInitiator = false ∧
      ∃ mine, ((start left right).run events).keys? initiator = some mine ∧
        mine.isInitiator = true ∧ mine.SameKeys theirs) ∧
    (((start left right).run events).state? initiator = some .established →
      (((start left right).run events).state? initiator.other = some .r2Sent ∨
        ((start left right).run events).state? initiator.other = some .established) ∧
      ∃ mine theirs, ((start left right).run events).keys? initiator = some mine ∧
        ((start left right).run events).keys? initiator.other = some theirs ∧
        mine.SameKeys theirs) := by
  have hsound := (sound_start hleft hright).run hhonest hlawful
  have hfollows : (start left right).Follows initiator.other := by
    constructor
    · intro conn hfind
      cases initiator with
      | left => cases (congrArg (ConnectionTable.find? · _) hright).symm.trans hfind
      | right => cases (congrArg (ConnectionTable.find? · _) hleft).symm.trans hfind
    · rintro packet ⟨datagram, hsent, -⟩
      exact absurd hsent List.not_mem_nil
  have hafter := hfollows.run hhonest hlawful hsingle
  have hstill := hhonest.run hlawful
  generalize (start left right).run events = network at hsound hafter hstill
  have hholds : ∀ theirs, network.keys? initiator.other = some theirs → theirs.isInitiator = false ∧
      ∃ mine, network.keys? initiator = some mine ∧ mine.isInitiator = true ∧
        mine.SameKeys theirs := by
    intro theirs hkeys
    obtain ⟨other, hfind, htheirs⟩ := Option.bind_eq_some_iff.mp hkeys
    obtain ⟨hresponder, conn, mine, hconn, hmine, hinitiator, hsame⟩ :=
      hafter.exists_keys hsound hstill hfind htheirs
    exact ⟨hresponder, mine, Engine.keys?_of_find? hconn hmine, hinitiator, hsame⟩
  refine ⟨hholds, fun hdone => ?_⟩
  obtain ⟨conn, hconn, hestablished⟩ := Option.map_eq_some_iff.mp hdone
  have hanswered := ((hsound initiator conn (.inl hconn)).established hestablished).resolve_left
    (hafter.not_responds hsound (.inl hconn))
  obtain ⟨other, hother, theirs, htheirs, -⟩ := hanswered
  have hshared : network.keys? initiator.other = some theirs := Engine.keys?_of_find? hother htheirs
  obtain ⟨-, mine, hmine, -, hsame⟩ := hholds theirs hshared
  obtain ⟨hmem, -⟩ := ConnectionTable.find?_eq_some_iff.mp hother
  have hcommitted := ((hstill.reachable initiator.other).wellFormed hmem).committed
    (Option.isSome_of_eq_some htheirs) (hafter.passive other hother)
  exact ⟨hcommitted.imp (Engine.state?_of_find? hother) (Engine.state?_of_find? hother),
    mine, theirs, hmine, hshared, hsame⟩

end Network

namespace Handshake

/-- The prompt handshake up to where the initiator is done, as the network brings it about. -/
def promptEvents (initiator responder : Engine) (now : Nat) : List Event :=
  let handshake := prompt initiator responder now
  [⟨.left, handshake.connectCall⟩, ⟨.right, handshake.i1Call⟩, ⟨.left, handshake.r1Call⟩,
    ⟨.left, .handleTimeout [] now⟩, ⟨.right, handshake.i2Call⟩, ⟨.left, handshake.r2Call⟩]

theorem Conforms.lawful_promptEvents {initiator responder : Engine} {now : Nat}
    (hconforms : (prompt initiator responder now).Conforms) :
    (Network.start initiator responder).Lawful (promptEvents initiator responder now) := by
  let handshake := prompt initiator responder now
  let network (count : Nat) :=
    (Network.start initiator responder).run ((promptEvents initiator responder now).take count)
  have hinitiatorKey : initiator.identity.HasCurveKey := hconforms.compatible.initiatorKey
  have hresponderKey : responder.identity.HasCurveKey := hconforms.compatible.responderKey
  obtain ⟨-, ⟨asker, asking, -, -, -, hi1⟩, -⟩ := hconforms.asks
  obtain ⟨-, ⟨secret, cookie, theirs, replying, -, hparty, -, -, -, hr1⟩, -⟩ := hconforms.challenges
  obtain ⟨puzzle, keys, hunderway⟩ := hconforms.underway
  obtain ⟨mine, solving, answer, sealed, hmine, -, -, hseal, hi2, -⟩ := hunderway.answer
  obtain ⟨-, ⟨confirmer, confirming, r2, -, hconfirm, hr2, -⟩, -⟩ := hconforms.responds hunderway
  rw [← show theirs.identity = responder.identity from congrArg Party.identity
    hparty] at hresponderKey
  rw [← show mine.identity = initiator.identity from congrArg Party.identity hmine] at hinitiatorKey
  have hr1Sent : handshake.r1Bytes ∈ (network 2).sent .right := Network.mem_sent_run [] [] rfl
    (mem_of_parse_packetTo (Context.parse_r1 hresponderKey hr1))
  have hi2Sent : handshake.i2Bytes ∈ (network 4).sent .left := by
    obtain ⟨out, hout, hbytes⟩ :=
      mem_of_parse_packetTo (Context.parse_i2 none hinitiatorKey hseal hi2)
    have hqueued : out ∈ handshake.afterR1.queuedBy (.handleTimeout [] now) := by
      rwa [← List.append_nil (handshake.afterR1.queuedBy (.handleTimeout [] now))]
    exact Network.mem_sent_run [handshake.connectCall, handshake.r1Call]
      [] rfl ⟨out, hqueued, hbytes⟩
  have hr2Sent : handshake.r2Bytes ∈ (network 5).sent .right :=
    Network.mem_sent_run [handshake.i1Call] [] rfl
      (mem_of_parse_packetTo (Context.parse_r2 hconfirm hr2))
  exact ⟨Network.admits_connect _ _ _ _, Network.admits_of_i1 (Context.parse_i1 hi1) rfl _ _ _,
    Network.admits_of_sent hr1Sent _ _, Network.admits_timeout _ _ _,
    Network.admits_of_sent hi2Sent _ _, Network.admits_of_sent hr2Sent _ _, trivial⟩

end Handshake

/-- The sample hosts commit in order when one of them begins and the R2 has just arrived. -/
theorem Network.exists_commits_in_order : ∃ (left right : Engine) (events : List Event)
    (mine theirs : KeySet), (start left right).Honest ∧ (start left right).Lawful events ∧
    (∀ event ∈ events, event.side = .right → ∀ address now,
      event.call ≠ .connect ((start left right).peer .right) address now) ∧
    ((start left right).run events).state? .left = some .established ∧
    (((start left right).run events).state? .right = some .r2Sent ∨
      ((start left right).run events).state? .right = some .established) ∧
    ((start left right).run events).keys? .left = some mine ∧
    ((start left right).run events).keys? .right = some theirs ∧ mine.SameKeys theirs := by
  obtain ⟨left, right, hleft, hright, hmeetsLeft, hmeetsRight, -⟩ := SampleHost.exists_meets
  have hconforms := Handshake.conforms_sample hleft hright
  have hhonest := honest_of_meets hmeetsLeft hmeetsRight
  let events := Handshake.promptEvents left right 0
  have hlawful : (start left right).Lawful events := hconforms.lawful_promptEvents
  have hsingle : ∀ event ∈ events, event.side = .right → ∀ address now,
      event.call ≠ .connect ((start left right).peer .right) address now := by
    simp [events, Handshake.promptEvents, Handshake.i1Call, Handshake.i2Call]
  have hdone : ((start left right).run events).state? .left = some .established := by
    obtain ⟨puzzle, keys, hunderway⟩ := hconforms.underway
    obtain ⟨-, -, ⟨conn, hfind, hdone⟩, -⟩ := hconforms.concludes hunderway
    rw [state?, engine_run, peer_run]
    exact Engine.state?_of_find? hfind hdone.state
  obtain ⟨-, hcommitted⟩ := commits_in_order hhonest hleft.table hright.table .left hlawful hsingle
  obtain ⟨hstate, mine, theirs, hmine, htheirs, hsame⟩ := hcommitted hdone
  exact ⟨left, right, events, mine, theirs, hhonest, hlawful, hsingle, hdone, hstate, hmine,
    htheirs, hsame⟩

end DietExchange
