import DietExchange.Proofs.Engine.Admission
import DietExchange.Proofs.Network.Recovery
import DietExchange.Proofs.Network.Stranded

namespace DietExchange

namespace Network

/-- Whether two honest hosts that fit together and had nothing to do with each other can come to
    this. -/
def IsReached (network : Network) : Prop :=
  ∃ left right events, (start left right).Honest ∧ left.table = .empty ∧ right.table = .empty ∧
    left.party.Compatible right.party ∧ right.party.Compatible left.party ∧
    (start left right).Lawful events ∧ network = (start left right).run events

/-- Whether no challenge of old comes back: the secrets that the host still draws lead to none that
    it has given, and neither does any secret of the one that has started again. -/
structure DrawsAnew (network : Network) (side : Side) : Prop where
  survivor : ∀ puzzle secret, network.Posed side puzzle →
    (network.engine side).entropy.CanGive secret →
    puzzle.challenge ≠ challengeFor secret (network.peer side) (network.engine side).hit []
  renewed : network.Spent side.other

variable {network : Network} {side : Side} {fresh : Engine}

section Reached

variable (hreached : network.IsReached)
include hreached

theorem IsReached.honest : network.Honest := by
  obtain ⟨left, right, events, hhonest, -, -, -, -, hlawful, rfl⟩ := hreached
  exact hhonest.run hlawful

theorem IsReached.fits (side : Side) :
    (network.engine side).party.Compatible (network.engine side.other).party := by
  obtain ⟨left, right, events, -, -, -, hcompatible, hback, -, rfl⟩ := hreached
  rw [((start left right).continues_run events side).party,
    ((start left right).continues_run events side.other).party]
  cases side with
  | left => exact hcompatible
  | right => exact hback

theorem IsReached.recorded : network.IsRecorded := by
  have hfits := hreached.fits
  obtain ⟨left, right, events, hhonest, hleft, hright, hcompatible, hback, hlawful, rfl⟩ := hreached
  refine (isRecorded_start hleft hright).run hhonest (fun side => ?_) hlawful
  rw [← ((start left right).continues_run events side).config]
  exact (hfits side).initiatorAccepted

theorem IsReached.step {event : Event} (hadmits : network.Admits event) :
    (network.step event).IsReached := by
  obtain ⟨left, right, events, hhonest, hleft, hright, hcompatible, hback, hlawful, rfl⟩ := hreached
  refine ⟨left, right, events ++ [event], hhonest, hleft, hright, hcompatible, hback,
    lawful_append hlawful ⟨hadmits, trivial⟩, ?_⟩
  rw [run_append]
  rfl

theorem IsReached.exists_sound : ∃ yielded, network.Sound yielded := by
  obtain ⟨left, right, events, hhonest, hleft, hright, -, -, hlawful, rfl⟩ := hreached
  exact ⟨_, (sound_start hleft hright).run hhonest hlawful⟩

end Reached

/-- A host that has started again knows nothing. -/
theorem find?_restart_self (hrenews : fresh.Renews (network.engine side)) :
    ((network.restart side fresh).engine side).table.find?
      ((network.restart side fresh).peer side) =
      none := by
  obtain ⟨-, -, htable, -⟩ := hrenews.spec
  rw [engine_restart_self, htable]
  rfl

theorem fits_restart (hrenews : fresh.Renews (network.engine side))
    (hfits : ∀ side, (network.engine side).party.Compatible (network.engine side.other).party)
    (reading : Side) : ((network.restart side fresh).engine reading).party.Compatible
      ((network.restart side fresh).engine reading.other).party := by
  rw [(extends_restart hrenews).party, (extends_restart hrenews).party]
  exact hfits reading

section Lost

variable (hlasts : network.Lasts) (hremembers : network.Remembers side)
  (hunknown : (network.engine side.other).table.find? (network.peer side.other) = none)
  (hanew : network.DrawsAnew side) {conn : Connection} (hlinked : network.Linked side conn)
include hlasts hremembers hunknown hanew hlinked

/-- A host that goes by what was promised before, and has nothing more to offer, leads. -/
theorem leads_of_ahead (hfind : (network.engine side).table.find? (network.peer side) = some conn)
    (hahead : network.WorksAlone side conn ∨ conn.state = .i2Sent ∨
      conn.state = .established ∧ ¬conn.Responds)
    (hresponds : ¬conn.Responds) (hnone : ¬∃ r1, network.Invites side r1) : network.Leads side where
  ahead := ⟨conn, hfind, hahead⟩
  silent packet htold hkind := by
    obtain ⟨yielded, hours⟩ := hremembers conn hlinked
    exact hresponds (hours.answers packet htold hkind)
  refused := hanew.renewed.refused rfl hlasts.recorded
  spent puzzle := by
    rintro ⟨packet, htold, hkind, hpuzzle⟩ secret (hmem | hgives) hsecret
    · obtain ⟨r1, hsent, hparse, hreceiver⟩ := htold
      exact hnone ⟨r1, hsent, packet, puzzle, hparse, hkind, hreceiver, hpuzzle, secret,
        hmem, hsecret⟩
    · exact hanew.survivor puzzle secret ⟨packet, htold, hkind, hpuzzle⟩ hgives hsecret
  trails other := by
    rintro (hfound | ⟨-, address, rfl⟩)
    · cases hunknown.symm.trans hfound
    · exact ⟨by simp [Connection.fresh], fun ⟨keys, hkeys, _⟩ => by cases hkeys⟩

/-- A host whose connection cannot be used once more has missed the other one for good. -/
theorem misses_of_not_reopens (hnot : ¬network.Reopens side conn) : network.Misses side := by
  have howns : (network.view False side).Owns conn := hlasts.honest.owns hlinked
  have hfind : (network.engine side).table.find? (network.peer side) = some conn := by
    refine hlinked.resolve_right ?_
    rintro ⟨-, address, rfl⟩
    exact hnot trivial
  have hleads := leads_of_ahead hlasts hremembers hunknown hanew hlinked hfind
  have hinitiates : conn.state ≠ .r2Sent → conn.state ≠ .established → ¬conn.Responds :=
    fun hheld hdone hresponds => (howns.form.of_responds hresponds).elim hheld hdone
  unfold Reopens at hnot
  cases hstate : conn.state with
  | unassociated | r2Sent =>
    rw [hstate] at hnot
    exact absurd trivial hnot
  | i1Sent =>
    rw [hstate] at hnot
    obtain ⟨hsolving, hnone, hquiet, hcannot⟩ : conn.pending ≠ none ∧
        (¬∃ r1, network.Invites side r1) ∧
        (∀ packet, network.Told side.other packet → packet.kind ≠ .i2) ∧
        ((∀ packet, network.Told side packet → packet.kind ≠ .r1) ∨
          (network.engine side.other).hit < (network.engine side).hit) := by
      refine ⟨fun hidle => hnot (.inl hidle), fun hinvites => hnot (.inr (.inl hinvites)),
        fun packet htold hkind => hnot (.inr (.inr (.inl ⟨packet, htold, hkind⟩))), ?_⟩
      by_contra hlarger
      obtain ⟨hr1, hnotSmaller⟩ := not_or.mp hlarger
      refine hnot (.inr (.inr (.inr ⟨hnotSmaller, ?_⟩)))
      by_contra hnone
      exact hr1 fun packet htold hkind => hnone ⟨packet, htold, hkind⟩
    obtain ⟨pending, hpending⟩ := Option.ne_none_iff_exists'.mp hsolving
    obtain ⟨hposed, -⟩ := (hlasts.recorded side conn hlinked).pending pending hpending
    have hworks : network.WorksAlone side conn :=
      ⟨⟨pending, hpending, hanew.renewed _ hposed⟩, hquiet, hcannot⟩
    exact .inl (hleads (.inl hworks) (hinitiates (by simp [hstate]) (by simp [hstate])) hnone)
  | i2Sent =>
    rw [hstate] at hnot
    by_cases hinvites : ∃ r1, network.Invites side r1
    · refine .inr ⟨side, Engine.state?_of_find? hfind hstate, ?_, fun packet htold hkind => ?_,
        hanew.renewed.refused rfl hlasts.recorded⟩
      · by_contra hlarger
        exact hnot ⟨hinvites, .inl hlarger⟩
      · exact hnot ⟨hinvites, .inr ⟨packet, htold, hkind⟩⟩
    · exact .inl
        (hleads (.inr (.inl hstate)) (hinitiates (by simp [hstate]) (by simp [hstate])) hinvites)
  | established =>
    rw [hstate] at hnot
    obtain ⟨hresponds, hnone⟩ := not_or.mp hnot
    exact .inl (hleads (.inr (.inr ⟨hstate, hresponds⟩)) hresponds hnone)
  | closing => exact absurd hstate howns.form.live.1
  | closed => exact absurd hstate howns.form.live.2

end Lost

theorem Lawful.not_mem_callsTo {events : List Event} (hlawful : network.Lawful events)
    (side : Side) : .close ∉ Event.callsTo side events := by
  induction events generalizing network with
  | nil => exact List.not_mem_nil
  | cons event rest ih =>
    obtain ⟨hadmits, hrest⟩ := hlawful
    unfold Event.callsTo at ih ⊢
    rw [List.filter_cons]
    split
    · rw [List.map_cons]
      exact List.not_mem_cons_of_ne_of_not_mem hadmits.notClose.symm (ih hrest)
    · exact ih hrest

/-- A host without room for the other one never knows it. -/
theorem not_done_of_not_hasRoom (hhonest : network.Honest) (hnot : ¬network.HasRoom side)
    {events : List Event} (hlawful : network.Lawful events) :
    (network.run events).state? side ≠ some .established := by
  obtain ⟨hnone, hfull⟩ := Classical.not_imp.mp hnot
  have hstill := (hhonest.reachable side).find?_run_of_full (hlawful.not_mem_callsTo side) hnone
    (Nat.not_lt.mp hfull)
  rw [state?, peer_run, engine_run, Engine.state?, hstill]
  simp

section Outcome

variable (hreached : network.IsReached) {lost : Side} (hrenews : fresh.Renews (network.engine lost))
include hreached hrenews

/-- Where the connection of the survivor can be used once more, both can come to an end by
    themselves. -/
theorem recovers_of_canResume (hresumes : (network.restart lost fresh).CanResume lost.other)
    (hrotation : (network.restart lost fresh).NeedsTime lost.other →
      0 < fresh.config.rotationInterval)
    (hends : (network.restart lost fresh).PuzzlesEnd) (now : Nat) :
    (network.restart lost fresh).Recovers now := by
  obtain ⟨yielded, hsound⟩ := hreached.exists_sound
  obtain ⟨hroom, conn, hlinked, hreopens⟩ := hresumes
  have hable : (network.restart lost fresh).Able :=
    ⟨hreached.honest.restart hrenews, fits_restart hrenews hreached.fits, hends⟩
  have hunknown := find?_restart_self hrenews
  have hsurvives : (network.restart lost fresh).Survives lost.other := by
    refine ⟨hable, hreached.recorded.restart hrenews, hsound.remembers hrenews, ?_⟩
    rw [Side.other_other]
    exact ⟨hunknown, hroom lost hunknown⟩
  refine hsurvives.recovers (hroom lost.other) (fun hneeds => ?_) hlinked hreopens now
  rw [Side.other_other, engine_restart_self]
  exact hrotation hneeds

/-- Where it cannot and no challenge of old comes back, they never do. -/
theorem not_done_of_not_canResume (hnot : ¬(network.restart lost fresh).CanResume lost.other)
    (hanew : (network.restart lost fresh).DrawsAnew lost.other) {later : List Event}
    (hlawful : (network.restart lost fresh).Lawful later) :
    ¬∀ side, ((network.restart lost fresh).run later).state? side = some .established := by
  intro hdone
  obtain ⟨yielded, hsound⟩ := hreached.exists_sound
  have hhonest := hreached.honest.restart hrenews
  have hlasts : (network.restart lost fresh).Lasts :=
    ⟨hhonest, fun side => (fits_restart hrenews hreached.fits side).initiatorAccepted,
      hreached.recorded.restart hrenews⟩
  by_cases hroom : ∀ host, (network.restart lost fresh).HasRoom host
  · obtain ⟨conn, hlinked⟩ := (network.restart lost fresh).exists_linked lost.other
    have hunknown := find?_restart_self hrenews
    have hmisses :=
      misses_of_not_reopens hlasts (hsound.remembers hrenews) (by rwa [Side.other_other]) hanew
      hlinked fun hreopens => hnot ⟨hroom, conn, hlinked, hreopens⟩
    exact hmisses.run hlasts hlawful hdone
  · obtain ⟨host, hfull⟩ := not_forall.mp hroom
    exact not_done_of_not_hasRoom hhonest hfull hlawful (hdone host)

/-- When one of two honest hosts starts again, both can come to an end by themselves from any time
    on, as long as the connection of the survivor can be used once more and each finds the Js that
    it needs. If it cannot, and no challenge of old comes back, then they never do, whatever the
    network does. -/
theorem recovers_or_misses :
    ((network.restart lost fresh).CanResume lost.other →
      ((network.restart lost fresh).NeedsTime lost.other → 0 < fresh.config.rotationInterval) →
      (network.restart lost fresh).PuzzlesEnd → ∀ now, (network.restart lost fresh).Recovers now) ∧
    (¬(network.restart lost fresh).CanResume lost.other →
      (network.restart lost fresh).DrawsAnew lost.other →
      ∀ later, (network.restart lost fresh).Lawful later →
        ¬∀ side, ((network.restart lost fresh).run later).state? side = some .established) :=
  ⟨recovers_of_canResume hreached hrenews,
    fun hnot hanew _ => not_done_of_not_canResume hreached hrenews hnot hanew⟩

end Outcome

section Easy

/-- Puzzles that are no work are all solved. -/
theorem puzzlesEnd_of_zero (hhonest : network.Honest)
    (hfits : ∀ side, (network.engine side).party.Compatible (network.engine side.other).party)
    (hzero : ∀ side, (network.engine side).config.puzzleComplexity = 0) : network.PuzzlesEnd := by
  intro events hlawful asker secret cookie r1 now ⟨conn, hfind, hawaits⟩ hchallenges
  refine ⟨[[]], fun solved hsolved => ?_⟩
  have hstill := hhonest.run hlawful
  have hextends := network.extends_run events
  obtain ⟨_, keys, i2, later, -, -, -, -, hlater, hrests⟩ := hchallenges.answered_at_once
    (by rw [hextends.party, hextends.party]; exact hfits asker) (.refl _) (hstill.reachable asker)
    (hstill.isOpen asker) hfind hawaits asker.remote now
    (by rw [(network.continues_run events asker.other).config]; exact hzero asker.other) []
  rw [engine_run, callsTo_takingUp_self] at hsolved
  obtain rfl := Option.some.inj (hlater.symm.trans hsolved)
  obtain ⟨hmem, -⟩ := ConnectionTable.find?_eq_some_iff.mp hlater
  exact hrests.awaits.isSolving_eq_false (((hstill.reachable asker).run _).wellFormed hmem)

/-- A host that answers with an R1 tells of a puzzle under that secret, and of nothing else. -/
theorem told_of_challenges {event : Event} (hkey : (network.engine event.side).identity.HasCurveKey)
    {secret : Block} {cookie : UInt16} {r1 : List UInt8} (hchallenges :
      (network.engine event.side).Challenges (network.engine event.side.other) secret cookie r1)
    {address : Address}
    (hqueued : (network.engine event.side).queuedBy event.call = [⟨address, r1⟩]) {packet : Packet}
    (htold : (network.step event).Told event.side packet) : network.Told event.side packet ∨
      packet.kind = .r1 ∧ ∀ puzzle, packet.puzzle? = some puzzle → puzzle.challenge =
        challengeFor secret (network.engine event.side.other).hit
          (network.engine event.side).hit [] := by
  refine (told_step_self.mp htold).imp_right fun ⟨out, hout, hparse, _⟩ => ?_
  rw [hqueued] at hout
  obtain rfl := List.mem_singleton.mp hout
  obtain ⟨ctx, replying, hparty, -, -, -, hencode⟩ := hchallenges
  have hsame : ctx.identity = (network.engine event.side).identity := congrArg Party.identity hparty
  obtain rfl := Except.ok.inj (hparse.symm.trans (Context.parse_r1 (hsame ▸ hkey) hencode))
  refine ⟨rfl, fun puzzle hpuzzle => ?_⟩
  rw [Context.puzzle?_r1] at hpuzzle
  obtain rfl := Option.some.inj hpuzzle
  rfl

/-- Two hosts of which the left one has asked for a puzzle of the right one and got it. -/
structure HasPosed (network : Network) (secret : Block) : Prop where
  reached : network.IsReached
  easy : ∀ side, (network.engine side).config.puzzleComplexity = 0
  asks : ∀ packet, network.Told .left packet → packet.kind = .i1
  answers : ∀ packet, network.Told .right packet → packet.kind = .r1 ∧
    ∀ puzzle, packet.puzzle? = some puzzle → puzzle.challenge =
      challengeFor secret (network.engine .left).hit (network.engine .right).hit []
  blank : network.IsBlank .right
  room : 0 < (network.engine .left).config.maxConnections

/-- Whether the left one works on it as well. -/
structure HasBegun (network : Network) (secret : Block) : Prop extends network.HasPosed secret where
  works : ∃ conn, (network.engine .left).table.find? (network.peer .left) = some conn ∧
    conn.state = .i1Sent ∧ conn.pending ≠ none

section HasBegun

variable {secret : Block} (hbegun : network.HasBegun secret)
include hbegun

/-- Whichever of them starts again, the puzzles are no work. -/
theorem HasBegun.puzzlesEnd {lost : Side} (hrenews : fresh.Renews (network.engine lost)) :
    (network.restart lost fresh).PuzzlesEnd := by
  refine puzzlesEnd_of_zero (hbegun.reached.honest.restart hrenews)
    (fits_restart hrenews hbegun.reached.fits) fun side => ?_
  rw [show ((network.restart lost fresh).engine side).config = (network.engine side).config from
    congrArg Party.config ((extends_restart hrenews).party side)]
  exact hbegun.easy side

/-- If the host that works on the puzzle starts again, the other one can be met as if nothing had
    been. -/
theorem HasBegun.canResume (hrenews : fresh.Renews (network.engine .left)) :
    (network.restart .left fresh).CanResume .right ∧
    ¬(network.restart .left fresh).NeedsTime .right := by
  have hextends := extends_restart hrenews
  have hblank : (network.restart .left fresh).IsBlank .right := by
    rw [IsBlank, hextends.peer, show (network.restart .left fresh).engine .right =
      network.engine .right from @engine_restart_other network .left fresh]
    exact hbegun.blank
  refine ⟨⟨fun host _ => ?_, _, .inr ⟨hblank.1, Side.right.remote, rfl⟩, trivial⟩, ?_⟩
  · cases host with
    | left => exact (isBlank_restart hrenews hbegun.room).2
    | right => exact hblank.2
  · rintro ⟨conn, hfound | ⟨-, address, rfl⟩, hstate, -⟩
    · cases hblank.1.symm.trans hfound
    · cases hstate

variable (hrenews : fresh.Renews (network.engine .right))
include hrenews

/-- If the other one starts again, the one that works on its puzzle cannot be met. -/
theorem HasBegun.not_canResume : ¬(network.restart .right fresh).CanResume .left := by
  rintro ⟨-, conn, hlinked, hreopens⟩
  obtain ⟨works, hfind, hstate, hpending⟩ := hbegun.works
  obtain rfl : conn = works := by
    rcases (linked_restart_other hrenews).mp hlinked with hfound | ⟨hnone, -⟩
    · exact Option.some.inj (hfound.symm.trans hfind)
    · cases hnone.symm.trans hfind
  unfold Reopens at hreopens
  rw [hstate, told_restart hrenews, told_restart hrenews] at hreopens
  rcases hreopens with hidle | ⟨r1, hinvites⟩ | ⟨packet, htold, hkind⟩ | ⟨-, packet, htold, hkind⟩
  · exact hpending hidle
  · obtain ⟨packet, puzzle, hparse, hkind, hreceiver, -⟩ := hinvites.kept
    have htold : (network.restart .right fresh).Told .left packet :=
      ⟨r1, hinvites.sent, hparse, hreceiver⟩
    rw [told_restart hrenews] at htold
    cases hkind.symm.trans (hbegun.asks packet htold)
  · cases hkind.symm.trans (hbegun.answers packet htold).1
  · cases hkind.symm.trans (hbegun.asks packet htold)

/-- Nothing leads to the puzzle again if the new secrets do not. -/
theorem HasBegun.drawsAnew (hanew : ∀ kept, fresh.CanKeep kept →
      challengeFor secret (network.engine .left).hit (network.engine .right).hit [] ≠
        challengeFor kept (network.engine .left).hit (network.engine .right).hit []) :
    (network.restart .right fresh).DrawsAnew .left where
  survivor puzzle kept := by
    rintro ⟨packet, htold, hkind, -⟩
    rw [told_restart hrenews] at htold
    cases hkind.symm.trans (hbegun.asks packet htold)
  renewed puzzle := by
    rintro ⟨packet, htold, -, hpuzzle⟩ kept hkeeps
    rw [told_restart hrenews] at htold
    rw [(hbegun.answers packet htold).2 puzzle hpuzzle, (extends_restart hrenews).peer,
      (extends_restart hrenews).hit]
    refine hanew kept ?_
    rwa [show (network.restart .right fresh).engine Side.left.other = fresh from
      @engine_restart_self network .right fresh] at hkeeps

end HasBegun

/-- The left host takes up the R1. -/
theorem HasPosed.begins {secret : Block} (hposed : network.HasPosed secret)
    (hawaits : network.Awaits .left) {cookie : UInt16} {r1 : List UInt8}
    (hr1 : r1 ∈ network.sent .right)
    (hchallenges : (network.engine .right).Challenges (network.engine .left) secret cookie r1) :
    (network.step ⟨.left, .handlePacket r1 Side.left.remote 0⟩).HasBegun secret := by
  let event : Event := ⟨.left, .handlePacket r1 Side.left.remote 0⟩
  have hadmits : network.Admits event := @admits_of_sent network .left _ hr1 _ _
  have hcontinues := network.continues_step event
  have hhonest := hposed.reached.honest
  obtain ⟨conn, hfind, hconn⟩ := hawaits
  obtain ⟨-, hnone, -, puzzle, keys, taken, -, -, htaken, hsolves⟩ := hchallenges.takesUp
    (hposed.reached.fits .left) (.refl _) (hhonest.reachable .left)
    (hhonest.isOpen .left) hfind hconn Side.left.remote 0
  refine ⟨⟨hposed.reached.step hadmits, fun side => ?_, fun packet htold => ?_, ?_, ?_, ?_⟩,
    taken, ?_, hsolves.state, ?_⟩
  · rw [(hcontinues side).config]
    exact hposed.easy side
  · rcases (@told_step_self network event packet).mp htold with hold | ⟨out, hout, -⟩
    · exact hposed.asks packet hold
    · rw [show (network.engine event.side).queuedBy event.call = [] from hnone] at hout
      exact absurd hout List.not_mem_nil
  · rw [show (network.step event).Told .right = network.Told .right from @told_step_other
      network event, (hcontinues .left).hit, (hcontinues .right).hit]
    exact hposed.answers
  · exact (@isBlank_step_other network event).mpr hposed.blank
  · rw [(hcontinues .left).config]
    exact hposed.room
  · rw [peer_step]
    exact htaken
  · obtain ⟨search, -, hpending⟩ := hsolves.pending
    simp [hpending]

/-- The right host answers an I1 of the left one, which has sent nothing else, with a puzzle. -/
theorem hasPosed_of_answer (hreached : network.IsReached)
    (heasy : ∀ side, (network.engine side).config.puzzleComplexity = 0)
    (hasks : ∀ packet, network.Told .left packet → packet.kind = .i1)
    (hsilent : ∀ packet, ¬network.Told .right packet) (hblank : network.IsBlank .right)
    (hroom : 0 < (network.engine .left).config.maxConnections) {i1 r1 : List UInt8} {now : Nat}
    {secret : Block} {cookie : UInt16}
    (hadmits : network.Admits ⟨.right, .handlePacket i1 Side.right.remote now⟩)
    (hchallenges : (network.engine .right).Challenges (network.engine .left) secret cookie r1)
    (hqueued : (network.engine .right).queuedBy (.handlePacket i1 Side.right.remote now) =
      [⟨Side.right.remote, r1⟩])
    (htable : ((network.engine .right).after (.handlePacket i1 Side.right.remote now)).table =
      (network.engine .right).table) :
    (network.step ⟨.right, .handlePacket i1 Side.right.remote now⟩).HasPosed secret := by
  let event : Event := ⟨.right, .handlePacket i1 Side.right.remote now⟩
  have hcontinues := network.continues_step event
  refine ⟨hreached.step hadmits, fun side => ?_, fun packet htold => ?_, fun packet htold => ?_,
    @IsBlank.step_self network event hblank htable, ?_⟩
  · rw [(hcontinues side).config]
    exact heasy side
  · rw [show (network.step event).Told .left = network.Told .left from @told_step_other network
      event] at htold
    exact hasks packet htold
  · rw [(hcontinues .left).hit, (hcontinues .right).hit]
    rcases @told_of_challenges network event (hreached.honest.key .right) _ _ _ hchallenges _
      hqueued _ htold with hold | hposed
    · exact absurd hold (hsilent packet)
    · exact hposed
  · rw [(hcontinues .left).config]
    exact hroom

section Meets

variable {left right : Engine} (hleft : left.Meets right) (hright : right.Meets left)
include hleft hright

theorem isBlank_of_meets : ∀ side, (start left right).IsBlank side
  | .left => ⟨hleft.unknown, Nat.lt_of_succ_lt hleft.room⟩
  | .right => ⟨hright.unknown, Nat.lt_of_succ_lt hright.room⟩

theorem easy_of_meets : ∀ side, ((start left right).engine side).config.puzzleComplexity = 0
  | .left => hleft.easy
  | .right => hright.easy

theorem isReached_of_meets (hleftTable : left.table = .empty) (hrightTable : right.table = .empty) :
    (start left right).IsReached :=
  ⟨left, right, [], honest_of_meets hleft hright, hleftTable, hrightTable, hleft.compatible,
    hright.compatible, trivial, rfl⟩

theorem exists_hasBegun (hleftTable : left.table = .empty) (hrightTable : right.table = .empty) :
    ∃ events secret, right.issuer.window.newest? = some secret ∧
      ((start left right).run events).HasBegun secret := by
  have hreached := isReached_of_meets hleft hright hleftTable hrightTable
  have hblank := isBlank_of_meets hleft hright
  have hzero := easy_of_meets hleft hright
  have hable : (start left right).Able :=
    ⟨hreached.honest, hreached.fits, puzzlesEnd_of_zero hreached.honest hreached.fits hzero⟩
  -- the left host connects
  let first : Event := ⟨.left, .connect right.hit Side.left.remote 0⟩
  let asked := (start left right).step first
  have hfirst : (start left right).Admits first := admits_connect ..
  have hcontinues := (start left right).continues_step first
  have hextends := (start left right).extends_step first
  obtain ⟨-, hgreets⟩ := greets_of_connect (start left right) .left rfl hleft.isOpen
    hright.compatible.distinct hleft.unknown (Nat.lt_of_succ_lt hleft.room)
    (fun packet htold => absurd htold not_told_start) Side.left.remote 0
  obtain ⟨hawaits, i1, -, hasks⟩ := hable.connects (hblank .left).isIdle 0
  -- the right one answers
  have hstill : asked.IsBlank .right :=
    (@isBlank_step_other (start left right) first).mpr (hblank .right)
  obtain ⟨secret, cookie, r1, hnewest, hchallenges, hqueued, htable, -⟩ :=
    (hable.step hfirst).offers_r1 (show Side.left.other = .right from rfl) hstill
      (hextends.asks hasks) 0
  let second : Event := ⟨.right, .handlePacket i1 Side.right.remote 0⟩
  have hsecond : asked.Admits second := by
    obtain ⟨ctx, conn, -, -, -, hencode⟩ := hasks
    exact admits_of_i1 (Context.parse_i1 hencode) rfl _ _ _
  have hsilent : ∀ packet, ¬asked.Told .right packet := by
    intro packet htold
    rw [show asked.Told .right = (start left right).Told .right from
      @told_step_other (start left right) first] at htold
    exact not_told_start htold
  have hposed : (asked.step second).HasPosed secret := by
    refine hasPosed_of_answer (hreached.step hfirst) (fun side => ?_) hgreets.only hsilent hstill ?_
      hsecond hchallenges hqueued htable
    · rw [(hcontinues side).config]
      exact hzero side
    · rw [(hcontinues .left).config]
      exact Nat.zero_lt_of_lt hleft.room
  -- the left one takes up the R1
  have hr1 : r1 ∈ (asked.step second).sent .right :=
    @mem_sent_step asked second ⟨Side.right.remote, r1⟩ (hqueued ▸ List.mem_singleton_self _)
  have hbegun := hposed.begins ((@awaits_step_other asked second).mpr hawaits) hr1
    ((asked.extends_step second).challenges hchallenges)
  exact ⟨[first, second, ⟨.left, .handlePacket r1 Side.left.remote 0⟩], secret, hnewest, hbegun⟩

end Meets

end Easy

end Network

namespace SampleHost

/-- A host can start again with a source that always gives the same secret. -/
theorem exists_renews {engine : Engine} (hconfig : engine.config = config) (secret : Block) :
    ∃ fresh : Engine, fresh.Renews engine ∧ ∀ kept, fresh.CanKeep kept → kept = secret := by
  let source : EntropySource := ⟨fun _ => .ok secret, 0⟩
  obtain ⟨fresh, log, rest, hcreate, -⟩ :=
    Engine.exists_create config source rfl (by decide) rfl rfl engine.identity 0 0
  rw [← hconfig] at hcreate
  refine ⟨fresh, ⟨source, rest, 0, 0, log, hcreate⟩, fun kept hkeeps => ?_⟩
  obtain ⟨_, -, hgives⟩ := Engine.canKeep_create hcreate hkeeps
  exact (Except.ok.inj hgives).symm

/-- The secret that the second host begins with and another one lead to different challenges. -/
theorem challengeFor_ne : challengeFor (Vector.replicate 16 3)
    (identity 1).hit (identity 2).hit [] ≠
    challengeFor (Vector.replicate 16 0) (identity 1).hit (identity 2).hit [] := by decide +kernel

/-- One of the hosts can work on a puzzle of the other, and each of them can start again, the other
    one with secrets that do not lead to this puzzle. -/
theorem exists_hasBegun : ∃ network secret, Network.HasBegun network secret ∧
    (∃ fresh : Engine, fresh.Renews (network.engine .left)) ∧
    ∃ fresh : Engine, fresh.Renews (network.engine .right) ∧ ∀ kept, fresh.CanKeep kept →
      challengeFor secret (network.engine .left).hit (network.engine .right).hit [] ≠
        challengeFor kept (network.engine .left).hit (network.engine .right).hit [] := by
  obtain ⟨left, right, hnewLeft, hnewRight, hleft, hright, -⟩ := exists_meets
  obtain ⟨events, secret, hnewest, hbegun⟩ :=
    Network.exists_hasBegun hleft hright hnewLeft.table hnewRight.table
  let network := (Network.start left right).run events
  have hcontinues := (Network.start left right).continues_run events
  have hsecret : secret = Vector.replicate 16 3 := by
    obtain ⟨log, rest, hcreate⟩ := hnewRight.created
    obtain ⟨first, hfirst, hwindow, -⟩ := Engine.create_secret hcreate
    rw [hwindow] at hnewest
    exact (Option.some.inj hnewest).symm.trans (Except.ok.inj hfirst).symm
  let other : Block := Vector.replicate 16 0
  obtain ⟨fresh, hfresh, -⟩ := exists_renews ((hcontinues .left).config.trans hnewLeft.config) other
  obtain ⟨renewed, hrenewed, hkeeps⟩ :=
    exists_renews ((hcontinues .right).config.trans hnewRight.config) other
  refine ⟨network, secret, hbegun, ⟨fresh, hfresh⟩, renewed, hrenewed, fun kept hkept => ?_⟩
  rw [hkeeps kept hkept, hsecret, (hcontinues .left).hit, (hcontinues .right).hit,
    show ((Network.start left right).engine .left).hit = _ from hnewLeft.hit_eq,
    show ((Network.start left right).engine .right).hit = _ from hnewRight.hit_eq]
  exact challengeFor_ne

end SampleHost

namespace Network

/-- If the host that works on a puzzle starts again, both can come to an end; if the one that has
    posed it does, they never do. -/
theorem exists_recovers_or_misses : ∃ (network : Network) (fresh renewed : Engine),
    network.IsReached ∧
    fresh.Renews (network.engine .left) ∧ (∀ now, (network.restart .left fresh).Recovers now) ∧
    renewed.Renews (network.engine .right) ∧ (network.restart .right renewed).DrawsAnew .left ∧
    ∀ later, (network.restart .right renewed).Lawful later →
      ¬∀ side, ((network.restart .right renewed).run later).state? side = some .established := by
  obtain ⟨network, secret, hbegun, ⟨fresh, hfresh⟩, renewed, hrenewed, hanew⟩ :=
    SampleHost.exists_hasBegun
  obtain ⟨hresumes, hquick⟩ := hbegun.canResume hfresh
  have hdraws := hbegun.drawsAnew hrenewed hanew
  refine ⟨network, fresh, renewed, hbegun.reached, hfresh, ?_, hrenewed, hdraws, ?_⟩
  · exact (recovers_or_misses hbegun.reached hfresh).1 hresumes (fun hneeds => absurd hneeds hquick)
      (hbegun.puzzlesEnd hfresh)
  · exact (recovers_or_misses hbegun.reached hrenewed).2 (hbegun.not_canResume hrenewed) hdraws

/-- Two hosts of which one has started again do not always come to an end. -/
theorem not_forall_recovers : ¬∀ (network : Network) (lost : Side) (fresh : Engine),
    network.IsReached →
    fresh.Renews (network.engine lost) → (network.restart lost fresh).PuzzlesEnd →
    ∃ later, (network.restart lost fresh).Proceeds later ∧ Event.Timely later ∧
      ((network.restart lost fresh).run later).IsResolved := by
  intro hall
  obtain ⟨network, secret, hbegun, -, renewed, hrenewed, hanew⟩ := SampleHost.exists_hasBegun
  obtain ⟨later, hproceeds, -, hresolved⟩ :=
    hall network .right renewed hbegun.reached hrenewed (hbegun.puzzlesEnd hrenewed)
  exact not_done_of_not_canResume hbegun.reached hrenewed (hbegun.not_canResume hrenewed)
    (hbegun.drawsAnew hrenewed hanew) hproceeds.lawful fun side => (hresolved side).1

end Network

end DietExchange
