import DietExchange.Proofs.Engine.Timers
import DietExchange.Proofs.Network.Restart

namespace DietExchange

/-- The keys that two hosts agree on under a challenge are those of the responder. -/
theorem Engine.Agrees.eq_of_isDerived {engine other : Engine} {secret : Block}
    {keys shared : KeySet} (hagrees : engine.Agrees other secret keys) {challenge : Block}
    (hchallenge : challenge = challengeFor secret engine.hit other.hit [])
    (hderived : shared.IsDerived other.party engine.hit engine.party.hostId challenge)
    (hrole : shared.isInitiator = false) : shared = { keys with isInitiator := false } := by
  obtain ⟨agreed, hagreed, hderive⟩ := Context.sessionKeys_eq_ok_iff.mp hagrees.shared
  obtain ⟨found, hfound, hfoundDerive⟩ := hderived.derived
  have hagreedHere := HostIdentity.sharedSecret_eq_ok_iff.mp hagreed
  obtain rfl := Except.ok.inj (hagreedHere.symm.trans hfound)
  rw [hrole, hchallenge] at hfoundDerive
  exact Except.ok.inj (hfoundDerive.symm.trans hderive)

/-- An R1 that challenges another engine is one that was queued for it. -/
theorem Engine.Challenges.issued {engine other : Engine} {secret : Block} {cookie : UInt16}
    {r1 : List UInt8} (hchallenges : engine.Challenges other secret cookie r1) :
    engine.Issued other.hit r1 := by
  obtain ⟨ctx, conn, hparty, hcomplexity, hhost, hpeer, hencode⟩ := hchallenges
  exact ⟨ctx, conn, _, cookie, hparty, hcomplexity, hhost, hpeer, hencode⟩

namespace Network

variable {network : Network} {side : Side}

/-- What the survivor of a restart and the datagrams of old make possible. -/
structure Survives (network : Network) (side : Side) : Prop where
  able : network.Able
  recorded : network.IsRecorded
  remembers : network.Remembers side
  blank : network.IsBlank side.other

/-- Whether a host has room for the other, or knows it already. -/
def HasRoom (network : Network) (side : Side) : Prop :=
  (network.engine side).table.find? (network.peer side) = none →
    (network.engine side).connectionCount < (network.engine side).config.maxConnections

/-- Whether a connection can be used once more with a host that has started again: nothing was
    promised under it, its hold will end, or there are packets of old that lead on from it. -/
def Reopens (network : Network) (side : Side) (conn : Connection) : Prop :=
  match conn.state with
  | .unassociated | .r2Sent => True
  | .i1Sent => conn.pending = none ∨ (∃ r1, network.Invites side r1) ∨
    (∃ packet, network.Told side.other packet ∧ packet.kind = .i2) ∨
    ¬(network.engine side.other).hit < (network.engine side).hit ∧
      ∃ packet, network.Told side packet ∧ packet.kind = .r1
  | .i2Sent => (∃ r1, network.Invites side r1) ∧
    (¬(network.engine side).hit < (network.engine side.other).hit ∨
      ∃ packet, network.Told side.other packet ∧ packet.kind = .r2)
  | .established => conn.Responds ∨ ∃ r1, network.Invites side r1
  | .closing | .closed => False

/-- Whether a host works on a puzzle and no datagram of old leads on: then an R1 of the one that has
    started again has to stay good while that one works on a puzzle as well. -/
def NeedsTime (network : Network) (side : Side) : Prop :=
  ∃ conn, network.Linked side conn ∧ conn.state = .i1Sent ∧ conn.pending ≠ none ∧
    (¬∃ r1, network.Invites side r1) ∧ ∀ packet, network.Told side.other packet → packet.kind ≠ .i2

/-- Whether a host can meet the other one again when that one has started anew. -/
def CanResume (network : Network) (side : Side) : Prop :=
  (∀ host, network.HasRoom host) ∧ ∃ conn, network.Linked side conn ∧ network.Reopens side conn

theorem IsBlank.isIdle (hblank : network.IsBlank side) : network.IsIdle side :=
  ⟨_, .inr ⟨hblank.1, hblank.2, rfl⟩, rfl⟩

section Able

variable (hable : network.Able)
include hable

/-- A host that knows nothing of the other connects to it and takes up an R1 of old that is still
    good. -/
theorem Able.recovers_of_invited (hidle : network.IsIdle side.other) (hhears : network.Hears side)
    {secret : Block} {cookie : UInt16} {r1 : List UInt8} (hsent : r1 ∈ network.sent side)
    (hkept : secret ∈ (network.engine side).issuer.window.secrets)
    (hchallenges : (network.engine side).Challenges (network.engine side.other) secret cookie r1)
    (now : Nat) : network.Recovers now := by
  let event : Event := ⟨side.other, .connect (network.peer side.other) side.other.remote now⟩
  have hside : event.side.other = side := Side.other_other side
  have hacts : network.Acts event := .inr ⟨_, now, rfl⟩
  obtain ⟨hawaits, -⟩ := hable.connects hidle now
  have hextends := network.extends_step event
  have hengine : (network.step event).engine side = network.engine side :=
    hside ▸ @engine_step_other network event
  have hstill : (network.step event).Hears side :=
    hside ▸ hears_step_other.mpr (hside.symm ▸ hhears)
  exact ((hable.step hacts.admits).recovers_of_hears (Side.other_other side) hawaits hstill
    (hextends.sent side r1 hsent) (hengine ▸ hkept) (hextends.challenges hchallenges) now).of_step
    hacts rfl (Nat.le_refl now)

/-- A host that is held without keys gives up and connects to the one that knows nothing of it. -/
theorem Able.recovers_of_keyless (hobliges : network.Obliges side.other) {conn : Connection}
    (hfind : (network.engine side).table.find? (network.peer side) = some conn)
    (hstate : conn.state = .r2Sent) (hkeyless : conn.keys = none) (now : Nat) :
    network.Recovers now := by
  obtain ⟨deadline, hle, later, hlater, hidle⟩ := Engine.exists_unassociated
    (hable.honest.reachable side) (hable.honest.key side) (hable.honest.isOpen side) hfind hstate
      hkeyless [] now
  let event : Event := ⟨side, .handleTimeout [] deadline⟩
  have hacts : network.Acts event := .inl (.inl ⟨[], deadline, rfl⟩)
  have hafter : (network.step event).IsIdle side := by
    refine ⟨later, .inl ?_, hidle⟩
    rw [peer_step, show side = event.side from rfl, engine_step_self]
    exact hlater
  exact ((hable.step hacts.admits).recovers_of_idle rfl hafter
    (@Obliges.step_other network event hobliges) deadline).of_step hacts rfl hle

/-- A host that has sent an I1 takes an I2 of old for an I1, and gives up when the hold is over. -/
theorem Able.recovers_of_i2 (hobliges : network.Obliges side.other) (hrecorded : network.IsRecorded)
    (hstate : network.state? side = some .i1Sent) {packet : Packet}
    (htold : network.Told side.other packet) (hkind : packet.kind = .i2) (now : Nat) :
      network.Recovers now := by
  obtain ⟨i2, hsent, hparse, hreceiver, hletter⟩ := hrecorded.letter htold
  obtain ⟨hmandatory, hgroups, -⟩ := hletter.solves hkind
  have hpeer : packet.sender = network.peer side := hletter.sender
  have hours : packet.receiver = (network.engine side).hit := by
    rw [hreceiver, peer, Side.other_other]
  let event : Event := ⟨side, .handlePacket i2 side.remote now⟩
  have hacts : network.Acts event :=
    .inl (delivers_run_of_sent hsent ⟨packet, hparse, hours⟩ _ now [])
  obtain ⟨-, hr2Sent, hkeyless⟩ := Engine.i2_is_answered_as_i1 (hable.honest.reachable side)
    (hable.honest.isOpen side) (hable.honest.key side) hparse hkind hours hmandatory
    (Context.checkOffer_eq_ok_iff.mpr fun offered hoffered => by cases hgroups.symm.trans hoffered)
    (hpeer ▸ hstate) side.remote now
  rw [hpeer] at hr2Sent hkeyless
  obtain ⟨held, hheld, hheldState⟩ := Option.map_eq_some_iff.mp hr2Sent
  have hnone : held.keys = none := by
    rw [← hkeyless, Engine.keys?_of_find? hheld rfl]
  have hfind : ((network.step event).engine side).table.find? ((network.step event).peer side) =
      some held := by
    rw [peer_step, show side = event.side from rfl, engine_step_self]
    exact hheld
  exact ((hable.step hacts.admits).recovers_of_keyless
    (@Obliges.step_other network event hobliges) hfind
    hheldState hnone now).of_step hacts rfl (Nat.le_refl now)

/-- A host with the larger HIT that waits for an R1 takes up one of old. Its I2 makes the other one
    begin anew, and then an R1 of its own leads to the end. -/
theorem Able.recovers_of_larger {asker answerer : Side} (hother : asker.other = answerer)
    (hrecorded : network.IsRecorded) (hawaits : network.Awaits asker)
    (hlarger : ¬(network.engine asker).hit < (network.engine answerer).hit)
    (hstate : network.state? answerer = some .i1Sent) {secret : Block} {cookie : UInt16}
    {r1 : List UInt8} (hr1 : r1 ∈ network.sent answerer)
    (hchallenges : (network.engine answerer).Challenges (network.engine asker) secret cookie r1)
    {own : Block} {ownCookie : UInt16} {ownR1 : List UInt8} (hown : ownR1 ∈ network.sent asker)
    (hownChallenges :
      (network.engine asker).Challenges (network.engine answerer) own ownCookie ownR1) {now : Nat}
    (hkept : ∀ orders, own ∈
      ((network.run (takingUp asker r1 orders now)).engine asker).issuer.window.secrets) :
    network.Recovers now := by
  subst hother
  have hhonest := hable.honest
  obtain ⟨orders, hsolved⟩ := hable.ends [] trivial asker secret cookie r1 now hawaits hchallenges
  obtain ⟨keys, i2, waiting, hanswers, hi2, hwaiting, hwaits⟩ :=
    sends_i2 (.refl _) (.refl _) hhonest now (hable.fits asker) hawaits hchallenges hsolved
  let front := takingUp asker r1 orders now
  have hfront : network.Exchanges front :=
    exchanges_takingUp asker hr1 (hchallenges.exists_parse (hhonest.key asker.other)) orders now
  have hstill : (network.run front).engine asker.other = network.engine asker.other := by
    rw [engine_run, callsTo_takingUp_other]
    rfl
  obtain ⟨packet, hparse, hreceiver, hkind⟩ := hanswers.exists_i2 (hhonest.key asker)
  have htold : (network.run front).Told asker packet :=
    ⟨i2, hi2, hparse, hreceiver.trans (peer_run front asker).symm⟩
  have hextends := network.extends_run front
  have howns : ((network.run front).view False asker).Owns waiting :=
    (hhonest.run hfront.lawful).owns (.inl ((peer_run front asker).symm ▸ hwaiting))
  have hobliges : (network.run front).Obliges asker := by
    refine .inr
      ⟨.inl (.inr ⟨waiting, (peer_run front asker).symm ▸ hwaiting, .inl ⟨hwaits.state, ?_⟩⟩),
      own, ownCookie, ownR1, mem_sent_run_of_mem hown front, hkept orders, ?_⟩
    · rw [howns.host, howns.peer]
      exact fun hsmaller => hlarger (hextends.hit asker ▸ hextends.hit asker.other ▸ hsmaller)
    · exact hextends.challenges hownChallenges
  have hasking : (network.run front).state? asker.other = some .i1Sent := by
    rw [state?, hstill, peer_run]
    exact hstate
  have hfinally : (network.run front).Recovers now :=
    (hable.run hfront.lawful).recovers_of_i2 ((Side.other_other asker).symm ▸ hobliges)
      (hrecorded.run hhonest hable.accepted hfront.lawful) hasking
        ((Side.other_other asker).symm ▸ htold) hkind now
  exact hfinally.of_run hfront.proceeds (by simp [front, takingUp, Call.now?])

/-- A host that waits for an R1 takes up one of old, and then an R2 of old is the one that it waits
    for. -/
theorem Able.recovers_of_replay {asker answerer : Side} (hother : asker.other = answerer)
    (hawaits : network.Awaits asker) {secret : Block} {cookie : UInt16} {r1 r2 : List UInt8}
    (hr1 : r1 ∈ network.sent answerer)
    (hchallenges : (network.engine answerer).Challenges (network.engine asker) secret cookie r1)
    (hr2 : r2 ∈ network.sent answerer) {shared : KeySet}
    (hconfirms : (network.engine answerer).Confirms (network.engine asker) shared r2)
    {theirs : Connection} (hfind : (network.engine answerer).table.find? (network.peer answerer) =
      some theirs) (hshared : theirs.keys = some shared) (hrole : shared.isInitiator = false)
    (hderived : shared.IsDerived (network.engine answerer).party (network.engine asker).hit
      (network.engine asker).party.hostId
      (challengeFor secret (network.engine asker).hit (network.engine answerer).hit []))
      (now : Nat) :
    network.Recovers now := by
  subst hother
  have hhonest := hable.honest
  obtain ⟨orders, hsolved⟩ := hable.ends [] trivial asker secret cookie r1 now hawaits hchallenges
  obtain ⟨keys, i2, waiting, hanswers, -, hwaiting, hwaits⟩ :=
    sends_i2 (.refl _) (.refl _) hhonest now (hable.fits asker) hawaits hchallenges hsolved
  obtain rfl := hanswers.1.eq_of_isDerived rfl hderived hrole
  obtain ⟨deadline, hle, hended⟩ := Engine.exists_isDone (hhonest.reachable asker.other)
    (hhonest.key asker.other) (hhonest.isOpen asker.other) hfind hshared rfl [] now
  rw [peer, Side.other_other] at hended
  let front := takingUp asker r1 orders now
  have hfront : network.Exchanges front :=
    exchanges_takingUp asker hr1 (hchallenges.exists_parse (hhonest.key asker.other)) orders now
  have hstill : (network.run front).engine asker.other = network.engine asker.other := by
    rw [engine_run, callsTo_takingUp_other]
    rfl
  have hlast : (network.run front).Exchanges (concluding asker r2 now deadline) :=
    exchanges_concluding asker (mem_sent_run_of_mem hr2 front)
      ((network.continues_run front asker).hit ▸ hconfirms.exists_parse) now deadline
  have hresolved :=
    resolves (network.continues_run front asker) (network.continues_run front asker.other)
    (hhonest.run hfront.lawful) now (hable.fits asker) hwaiting hwaits (hstill ▸ hended) hconfirms
  refine ⟨front ++ concluding asker r2 now deadline, (exchanges_append hfront hlast).proceeds,
    timelyFrom_settlement asker r1 i2 r2 orders 0 hle, ?_⟩
  rw [run_append]
  exact hresolved

end Able

namespace Survives

variable (hsurvives : network.Survives side)
include hsurvives

/-- The R1s of old challenge the host that has started again. -/
theorem challenges {r1 : List UInt8} (hsent : r1 ∈ network.sent side) {packet : Packet}
    (hparse : Packet.parse r1 = .ok packet) (hkind : packet.kind = .r1)
    (hreceiver : packet.receiver = network.peer side) {puzzle : Puzzle}
    (hpuzzle : packet.puzzle? = some puzzle) {secret : Block}
    (hsecret : puzzle.challenge =
      challengeFor secret (network.peer side) (network.engine side).hit []) :
    ∃ cookie, (network.engine side).Challenges (network.engine side.other) secret cookie r1 := by
  obtain ⟨-, _, _, hchallenges⟩ :=
    (hsurvives.recorded.letter_of_sent hsent hparse hreceiver).invites hkind
  exact hchallenges.issued.challenges (hsurvives.able.honest.key side) hparse hpuzzle hsecret

/-- An R1 of old that is still good leads to the end where its I2 is heard. -/
theorem recovers_of_invites {r1 : List UInt8} (hinvites : network.Invites side r1)
    (hhears : network.Hears side) (now : Nat) : network.Recovers now := by
  obtain ⟨packet, puzzle, hparse, hkind, hreceiver, hpuzzle, secret, hkept, hsecret⟩ :=
    hinvites.kept
  obtain ⟨cookie, hchallenges⟩ :=
    hsurvives.challenges hinvites.sent hparse hkind hreceiver hpuzzle hsecret
  exact hsurvives.able.recovers_of_invited hsurvives.blank.isIdle hhears hinvites.sent hkept
    hchallenges now

/-- A host with the larger HIT that has started again comes to an end with the help of any R1 of
    old. -/
theorem recovers_of_larger (hlarger : ¬(network.engine side.other).hit < (network.engine side).hit)
    (hrotation : 0 < (network.engine side.other).config.rotationInterval)
    (hstate : network.state? side = some .i1Sent) {packet : Packet}
    (htold : network.Told side packet) (hkind : packet.kind = .r1) (now : Nat) :
      network.Recovers now := by
  have hable := hsurvives.able
  obtain ⟨conn, hfind, hconn⟩ := Option.map_eq_some_iff.mp hstate
  obtain ⟨i1, hi1, hasks⟩ := (hsurvives.recorded side conn (.inl hfind)).asked hconn
  obtain ⟨r1, hr1, -, -, hletter⟩ := hsurvives.recorded.letter htold
  obtain ⟨-, secret, cookie, hchallenges⟩ := hletter.invites hkind
  -- it answers the I1 of the other one before it connects
  let first : Event := ⟨side.other, .handlePacket i1 side.other.remote now⟩
  let second : Event := ⟨side.other, .connect (network.peer side.other) side.other.remote now⟩
  obtain ⟨own, ownCookie, ownR1, hnewest, hown, hqueued, htable, -⟩ :=
    hable.offers_r1 rfl hsurvives.blank hasks now
  have hownSent :=
    @mem_sent_step network first ⟨side.other.remote, ownR1⟩ (hqueued ▸ List.mem_singleton_self _)
  have hfirst : network.Acts first := by
    obtain ⟨ctx, conn, -, -, hpeer, hencode⟩ := hasks
    refine .inl (delivers_run_of_sent ?_ ⟨_, Context.parse_i1 hencode, hpeer⟩ _ now [])
    rwa [Side.other_other]
  have hblank : (network.step first).IsBlank side.other :=
    @IsBlank.step_self network first hsurvives.blank htable
  obtain ⟨hawaits, -⟩ := (hable.step hfirst.admits).connects hblank.isIdle now
  rw [peer_step] at hawaits
  have hproceeds : network.Proceeds [first, second] := by
    refine ⟨hfirst, .inr ⟨side.other.remote, now, ?_⟩, trivial⟩
    rw [peer_step]
  have hextends := network.extends_run [first, second]
  -- the R1 stays good while the time stands still
  have hkept : ∀ orders, own ∈ (((network.run [first, second]).run
      (takingUp side.other r1 orders now)).engine side.other).issuer.window.secrets := by
    intro orders
    rw [engine_run, engine_run, callsTo_takingUp_self, ← Engine.run_append]
    refine (hable.honest.reachable side.other).hasTimers.newest_mem_run now
      (hable.honest.isOpen side.other) hrotation ?_ ?_ hnewest
    · simp [first, second, Event.callsTo]
    · simp [first, second, Event.callsTo]
  have hstill : (network.run [first, second]).engine side = network.engine side := by
    have hnone : Event.callsTo side [first, second] = [] := by simp [first, second, Event.callsTo]
    rw [engine_run, hnone]
    rfl
  have hfinally : (network.run [first, second]).Recovers now := by
    refine (hable.run hproceeds.lawful).recovers_of_larger (Side.other_other side) ?_ hawaits ?_ ?_
      (hextends.sent _ _ hr1) (hextends.challenges hchallenges) ?_ (hextends.challenges hown) hkept
    · exact hsurvives.recorded.run hable.honest hable.accepted hproceeds.lawful
    · rw [hextends.hit, hextends.hit]
      exact hlarger
    · rw [state?, hstill, peer_run]
      exact hstate
    · exact mem_sent_run_of_mem hownSent [second]
  exact hfinally.of_run hproceeds (by simp [first, second, Call.now?])

/-- So it does where an R2 of old arrives before. -/
theorem recovers_of_r2 {r1 r2 i2 : List UInt8} (hinvites : network.Invites side r1)
    {conn : Connection} (hfind : (network.engine side).table.find? (network.peer side) = some conn)
    {keys : KeySet} (hawaits : conn.AwaitsR2 keys i2) (hsent : r2 ∈ network.sent side.other)
    (hconfirms : (network.engine side.other).Confirms (network.engine side) keys r2) (now : Nat) :
    network.Recovers now := by
  have hable := hsurvives.able
  let event : Event := ⟨side, .handlePacket r2 side.remote now⟩
  have hacts : network.Acts event :=
    .inl (delivers_run_of_sent hsent hconfirms.exists_parse _ now [])
  have hextends := network.extends_step event
  obtain ⟨-, -, done, hdone, hestablished⟩ := hconfirms.concludes (hable.fits side).fits (.refl _)
    (hable.honest.reachable side) (hable.honest.isOpen side) hfind hawaits side.remote now
  obtain ⟨packet, puzzle, hparse, hkind, hreceiver, hpuzzle, secret, hkept, hsecret⟩ :=
    hinvites.kept
  obtain ⟨cookie, hchallenges⟩ :=
    hsurvives.challenges hinvites.sent hparse hkind hreceiver hpuzzle hsecret
  have hengine : (network.step event).engine side = (network.engine side).after event.call :=
    @engine_step_self network event
  have hhears : (network.step event).Hears side := by
    refine .inl (.inr ⟨done, ?_, .inr (.inr hestablished.state)⟩)
    rw [hengine, peer_step]
    exact hdone
  have hissuer : ((network.engine side).after event.call).issuer =
      (network.engine side).issuer := by
    rcases (network.engine side).issuer_after event.call with hsame | ⟨_, _, _, htimeout, -⟩
    · exact hsame
    · simp [event] at htimeout
  have hidle := ((@isBlank_step_other network event).mpr hsurvives.blank).isIdle
  refine ((hable.step hacts.admits).recovers_of_invited hidle hhears
    (hextends.sent side r1 hinvites.sent) ?_ (hextends.challenges hchallenges) now).of_step hacts
      rfl (Nat.le_refl now)
  rwa [hengine, hissuer]

/-- A responder is met again with the packets of old: the host that has started again takes up its
    R1, and then its R2 is the one that is waited for. -/
theorem recovers_of_responds {conn : Connection}
    (hfind : (network.engine side).table.find? (network.peer side) = some conn)
    (hresponds : conn.Responds) (now : Nat) : network.Recovers now := by
  obtain ⟨shared, hshared, hrole⟩ := hresponds
  obtain ⟨⟨-, i2, solution, secret, htold, hi2Kind, hsolution, hsecret, hderived⟩, r2, hr2,
    hconfirms⟩ :=
    (hsurvives.recorded side conn (.inl hfind)).holds shared hshared hrole
  -- the challenge of the I2 is that of an R1
  obtain ⟨_, -, -, -, hletter⟩ := hsurvives.recorded.letter htold
  obtain ⟨-, -, found, puzzle, hfound, hposed, hsame⟩ := hletter.solves hi2Kind
  obtain rfl := Option.some.inj (hfound.symm.trans hsolution)
  rw [Side.other_other] at hposed
  obtain ⟨packet, ⟨r1, hr1, hparse, hreceiver⟩, hkind, hpuzzle⟩ := hposed
  obtain ⟨cookie, hchallenges⟩ :=
    hsurvives.challenges hr1 hparse hkind hreceiver hpuzzle (hsame.trans hsecret)
  -- the host that has started again takes it up
  have hable := hsurvives.able
  let event : Event := ⟨side.other, .connect (network.peer side.other) side.other.remote now⟩
  have hside : event.side.other = side := Side.other_other side
  have hacts : network.Acts event := .inr ⟨_, now, rfl⟩
  obtain ⟨hawaits, -⟩ := hable.connects hsurvives.blank.isIdle now
  have hextends := network.extends_step event
  have hengine : (network.step event).engine side = network.engine side :=
    hside ▸ @engine_step_other network event
  refine ((hable.step hacts.admits).recovers_of_replay (Side.other_other side) hawaits
    (hextends.sent side r1 hr1) (hextends.challenges hchallenges) (hextends.sent side r2 hr2)
    (hextends.confirms hconfirms) (by rwa [hengine, peer_step]) hshared hrole ?_ now).of_step hacts
      rfl (Nat.le_refl now)
  rw [hextends.party, hextends.party, hextends.hit, hextends.hit]
  rw [hsecret] at hderived
  exact hderived

/-- An R2 of old confirms the keys of an initiator: there is one I2 that it can have answered. -/
theorem confirms {conn : Connection} (hlinked : network.Linked side conn) {keys : KeySet}
    (hkeys : conn.keys = some keys) (hinitiator : keys.isInitiator = true) {packet : Packet}
    (htold : network.Told side.other packet) (hkind : packet.kind = .r2) :
    ∃ r2 ∈ network.sent side.other,
      (network.engine side.other).Confirms (network.engine side) keys r2 := by
  have hhonest := hsurvives.able.honest
  obtain ⟨yielded, hours⟩ := hsurvives.remembers conn hlinked
  obtain ⟨own, solution, hown, hownKind, hsolution, hderived⟩ :=
    hours.initiator keys hkeys hinitiator
  obtain ⟨r2, hsent, -, -, hletter⟩ := hsurvives.recorded.letter htold
  obtain ⟨shared, ⟨hresponder, i2, answer, secret, hi2, hi2Kind, hanswer, -, hshared⟩, hconfirms⟩ :=
    hletter.confirms hkind
  rw [Side.other_other] at hi2 hconfirms
  rw [peer, Side.other_other] at hshared
  obtain rfl := hours.unique own i2 hown hownKind hi2 hi2Kind
  obtain rfl := Option.some.inj (hsolution.symm.trans hanswer)
  have hsame : keys.SameKeys shared :=
    hderived.sameKeys (hhonest.lengths side) (hhonest.agreement side) hshared hinitiator hresponder
  refine ⟨r2, hsent, ?_⟩
  unfold Engine.Confirms
  rw [hsame.2]
  exact hconfirms

section Kept

variable {conn : Connection} (hfind : (network.engine side).table.find? (network.peer side) =
  some conn) (hreopens : network.Reopens side conn)
include hfind hreopens

/-- A host that has sent an I1 goes on with it, or the datagrams of old lead on. -/
theorem recovers_of_i1Sent (hstate : conn.state = .i1Sent)
    (hrotation : network.NeedsTime side → 0 < (network.engine side.other).config.rotationInterval)
    (now : Nat) : network.Recovers now := by
  have hable := hsurvives.able
  have hi1Sent : network.state? side = some .i1Sent := Engine.state?_of_find? hfind hstate
  have hidle : conn.pending = none → network.Recovers now := fun hpending => by
    obtain ⟨i1, hsent, hasks⟩ := (hsurvives.recorded side conn (.inl hfind)).asked hstate
    exact hable.recovers_of_asked rfl ⟨conn, hfind, hstate, hpending⟩ (.inl hsurvives.blank)
      hsent hasks now
  have hinvited : (∃ r1, network.Invites side r1) → network.Recovers now := fun ⟨_, hinvites⟩ =>
    hsurvives.recovers_of_invites hinvites (.inr hi1Sent) now
  have hanswered : ∀ packet, network.Told side.other packet → packet.kind = .i2 →
      network.Recovers now :=
    fun _ htold hkind =>
      hable.recovers_of_i2 (.inl hsurvives.blank) hsurvives.recorded hi1Sent htold hkind now
  unfold Reopens at hreopens
  rw [hstate] at hreopens
  rcases hreopens with hpending | hinvites | ⟨packet, htold, hkind⟩ | ⟨hlarger, packet,
    htold, hkind⟩
  · exact hidle hpending
  · exact hinvited hinvites
  · exact hanswered packet htold hkind
  · by_contra hnot
    refine hnot (hsurvives.recovers_of_larger hlarger (hrotation ?_) hi1Sent htold hkind now)
    exact ⟨conn, .inl hfind, hstate, fun hpending => hnot (hidle hpending),
      fun hinvites => hnot (hinvited hinvites),
      fun other hother hi2 => hnot (hanswered other hother hi2)⟩

/-- A host that waits for an R2 hears an I2 that answers its R1, or gets an R2 of old before. -/
theorem recovers_of_i2Sent (hstate : conn.state = .i2Sent) (now : Nat) : network.Recovers now := by
  have howns : (network.view False side).Owns conn := hsurvives.able.honest.owns (.inl hfind)
  unfold Reopens at hreopens
  rw [hstate] at hreopens
  obtain ⟨⟨r1, hinvites⟩, hlarger | ⟨packet, htold, hkind⟩⟩ := hreopens
  · refine hsurvives.recovers_of_invites hinvites (.inl (.inr ⟨conn, hfind, .inl ⟨hstate, ?_⟩⟩)) now
    rw [howns.host, howns.peer]
    exact hlarger
  · obtain ⟨keys, hkeys, hinitiator⟩ := howns.form.i2Sent hstate
    obtain ⟨⟨_, i2⟩, hlast, rfl⟩ := howns.form.lastI2 hstate
    obtain ⟨r2, hsent, hconfirms⟩ := hsurvives.confirms (.inl hfind) hkeys hinitiator htold hkind
    exact hsurvives.recovers_of_r2 hinvites hfind ⟨hstate, hkeys, hlast⟩ hsent hconfirms now

end Kept

/-- Where the connection of the survivor can be used once more, both can come to an end. -/
theorem recovers (hroom : network.HasRoom side)
    (hrotation : network.NeedsTime side → 0 < (network.engine side.other).config.rotationInterval)
    {conn : Connection} (hlinked : network.Linked side conn) (hreopens : network.Reopens side conn)
    (now : Nat) : network.Recovers now := by
  have hable := hsurvives.able
  have howns : (network.view False side).Owns conn := hable.honest.owns hlinked
  rcases hlinked with hfind | ⟨hnone, address, rfl⟩
  swap
  · exact hable.recovers_of_idle rfl ⟨_, .inr ⟨hnone, hroom hnone, rfl⟩,
      rfl⟩ (.inl hsurvives.blank) now
  cases hstate : conn.state with
  | unassociated =>
    exact hable.recovers_of_idle rfl ⟨conn, .inl hfind, hstate⟩ (.inl hsurvives.blank) now
  | i1Sent => exact hsurvives.recovers_of_i1Sent hfind hreopens hstate hrotation now
  | i2Sent => exact hsurvives.recovers_of_i2Sent hfind hreopens hstate now
  | r2Sent =>
    cases hkeys : conn.keys with
    | none => exact hable.recovers_of_keyless (.inl hsurvives.blank) hfind hstate hkeys now
    | some keys =>
      exact hsurvives.recovers_of_responds hfind ⟨keys, hkeys,
        howns.form.r2Sent hstate keys hkeys⟩ now
  | established =>
    unfold Reopens at hreopens
    rw [hstate] at hreopens
    rcases hreopens with hresponds | ⟨r1, hinvites⟩
    · exact hsurvives.recovers_of_responds hfind hresponds now
    · exact hsurvives.recovers_of_invites hinvites
        (.inl (.inr ⟨conn, hfind, .inr (.inr hstate)⟩)) now
  | closing => exact absurd hstate howns.form.live.1
  | closed => exact absurd hstate howns.form.live.2

end Survives

end Network

end DietExchange
