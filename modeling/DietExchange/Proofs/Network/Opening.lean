import DietExchange.Proofs.Engine.Issued
import DietExchange.Proofs.Network.Standstill

namespace DietExchange

/-- An R1 that an engine has queued for another one challenges it under the secret that its
    challenge comes from. -/
theorem Engine.Issued.challenges {engine other : Engine} {r1 : List UInt8}
    (hissued : engine.Issued other.hit r1) (hkey : engine.identity.HasCurveKey) {packet : Packet}
    (hparse : Packet.parse r1 = .ok packet) {puzzle : Puzzle}
    (hpuzzle : packet.puzzle? = some puzzle) {secret : Block}
    (hsecret : puzzle.challenge = challengeFor secret other.hit engine.hit []) :
    ∃ cookie, engine.Challenges other secret cookie r1 := by
  obtain ⟨ctx, conn, challenge, cookie, hparty, hcomplexity, hhost, hpeer, hencode⟩ := hissued
  have hidentity : ctx.identity = engine.identity := congrArg Party.identity hparty
  obtain rfl := Except.ok.inj (hparse.symm.trans (Context.parse_r1 (hidentity ▸ hkey) hencode))
  rw [Context.puzzle?_r1] at hpuzzle
  obtain rfl := Option.some.inj hpuzzle
  exact ⟨cookie, ctx, conn, hparty, hcomplexity, hhost, hpeer, hsecret ▸ hencode⟩

namespace Network

variable {network : Network} {side asker : Side}

/-- Whether a host has queued this R1 for the other one, with a challenge under a secret that it
    still keeps. -/
structure Invites (network : Network) (side : Side) (r1 : List UInt8) : Prop where
  sent : r1 ∈ network.sent side
  kept : ∃ packet puzzle, Packet.parse r1 = .ok packet ∧ packet.kind = .r1 ∧
    packet.receiver = network.peer side ∧ packet.puzzle? = some puzzle ∧
    ∃ secret ∈ (network.engine side).issuer.window.secrets,
      puzzle.challenge = challengeFor secret (network.peer side) (network.engine side).hit []

/-- A host takes up an R1 and works on its puzzle each time that it sees the time, which takes it
    through its connections in these orders. -/
def takingUp (asker : Side) (r1 : List UInt8) (orders : List (List Hit)) (now : Nat) : List Event :=
  ⟨asker, .handlePacket r1 asker.remote now⟩ :: orders.map fun order =>
    ⟨asker, .handleTimeout order now⟩

/-- The other host is handed the I2, twice if it takes the first one for an I1. -/
def confirming (asker : Side) (i2 : List UInt8) (count now : Nat) : List Event :=
  List.replicate count ⟨asker.other, .handlePacket i2 asker.other.remote now⟩

/-- The R2 arrives, and the hold ends. -/
def concluding (asker : Side) (r2 : List UInt8) (now deadline : Nat) : List Event :=
  [⟨asker, .handlePacket r2 asker.remote now⟩, ⟨asker.other, .handleTimeout [] deadline⟩]

/-- Whether a host that takes up an R1 is done with its puzzle when it has seen the time this
    often. -/
def SolvesIn (network : Network) (asker : Side) (r1 : List UInt8) (orders : List (List Hit))
    (now : Nat) : Prop :=
  ∀ conn, ((network.run (takingUp asker r1 orders now)).engine asker).table.find?
    (network.peer asker) = some conn → conn.isSolving = false

/-- Whether a host answers an I2 of the other one with an R2: at once where the I2 is welcome, and
    when it comes again where an R1 is waited for. -/
def Hears (network : Network) (side : Side) : Prop :=
  (network.engine side).Welcomes (network.peer side) ∨ network.state? side = some .i1Sent

section Calls

variable (asker : Side) (r1 i2 r2 : List UInt8) (orders : List (List Hit))
  (times now deadline : Nat)

@[simp]
theorem callsTo_takingUp_self : Event.callsTo asker (takingUp asker r1 orders now) =
    .handlePacket r1 asker.remote now :: orders.map (Call.handleTimeout · now) := by
  simp [takingUp, Event.callsTo, List.filter_map, Function.comp_def]

@[simp]
theorem callsTo_takingUp_other : Event.callsTo asker.other (takingUp asker r1 orders now) = [] := by
  simp [takingUp, Event.callsTo, (Side.other_ne asker).symm]

@[simp]
theorem callsTo_confirming_self : Event.callsTo asker (confirming asker i2 times now) = [] := by
  simp [confirming, Event.callsTo]

@[simp]
theorem callsTo_confirming_other : Event.callsTo asker.other (confirming asker i2 times now) =
    List.replicate times (.handlePacket i2 asker.other.remote now) := by
  simp [confirming, Event.callsTo]

@[simp]
theorem callsTo_concluding_self : Event.callsTo asker (concluding asker r2 now deadline) =
    [.handlePacket r2 asker.remote now] := by
  simp [concluding, Event.callsTo]

@[simp]
theorem callsTo_concluding_other : Event.callsTo asker.other (concluding asker r2 now deadline) =
    [.handleTimeout [] deadline] := by
  simp [concluding, Event.callsTo, (Side.other_ne asker).symm]

theorem timelyFrom_settlement {now deadline : Nat} (hle : now ≤ deadline) :
    Event.TimelyFrom now (takingUp asker r1 orders now ++
      (confirming asker i2 times now ++ concluding asker r2 now deadline)) := by
  have hlater : ∀ time, orders ≠ [] ∧ time = now ∨ times ≠ 0 ∧ time = now ∨ time = now ∨
      time = deadline → now ≤ time := by
    omega
  simpa [Event.TimelyFrom, takingUp, confirming, concluding, Call.now?, List.pairwise_append,
    List.pairwise_replicate, hle] using
    And.intro hlater fun _ time htime => hlater time (.inr htime)

end Calls

theorem exchanges_takingUp (asker : Side) {r1 : List UInt8} (hsent : r1 ∈ network.sent asker.other)
    (hpacket : ∃ packet, Packet.parse r1 = .ok packet ∧
      packet.receiver = (network.engine asker).hit)
    (orders : List (List Hit)) (now : Nat) : network.Exchanges (takingUp asker r1 orders now) := by
  refine ⟨delivers_run_of_sent hsent hpacket asker.remote now [], exchanges_of_forall ?_⟩
  intro event hmem _
  obtain ⟨order, -, rfl⟩ := List.mem_map.mp hmem
  exact .inl ⟨order, now, rfl⟩

theorem exchanges_concluding (asker : Side) {r2 : List UInt8}
    (hsent : r2 ∈ network.sent asker.other) (hpacket : ∃ packet, Packet.parse r2 = .ok packet ∧
      packet.receiver = (network.engine asker).hit)
    (now deadline : Nat) : network.Exchanges (concluding asker r2 now deadline) :=
  ⟨delivers_run_of_sent hsent hpacket asker.remote now [], .inl ⟨[], deadline, rfl⟩, trivial⟩

/-- Two hosts that are done with the same keys have come to an end. -/
theorem isResolved_of_isDone (side : Side) {mine theirs : Connection} {keys shared : KeySet}
    (hmine : (network.engine side).table.find? (network.peer side) = some mine)
    (hdone : mine.IsDone keys)
    (htheirs : (network.engine side.other).table.find? (network.peer side.other) = some theirs)
    (hended : theirs.IsDone shared) (hsame : keys.SameKeys shared) : network.IsResolved := by
  have hours := Engine.keys?_of_find? hmine hdone.keys
  have hothers := Engine.keys?_of_find? htheirs hended.keys
  intro reading
  rcases reading.eq_or_eq_other side with rfl | rfl
  · exact ⟨Engine.state?_of_find? hmine hdone.state, keys, shared, hours, hothers, hsame⟩
  · refine ⟨Engine.state?_of_find? htheirs hended.state, shared, keys, hothers, ?_, hsame.1.symm,
      hsame.2.symm⟩
    rw [Side.other_other]
    exact hours

/-- The host to which an I2 is welcome answers it. -/
theorem sends_r2_at_once {asking answering : Engine}
    (hanswering : answering.Continues (network.engine asker.other))
    (hreachable : (network.engine asker.other).Reachable)
    (hopen : (network.engine asker.other).closed = false) {secret : Block} {keys : KeySet}
    {i2 : List UInt8} (now : Nat) (hcompatible : asking.party.Compatible answering.party)
    (hwelcomes : (network.engine asker.other).Welcomes asking.hit)
    (hkept : secret ∈ (network.engine asker.other).issuer.window.secrets)
    (hanswers : asking.Answers answering secret keys i2) :
    ∃ r2 conn deadline, answering.Confirms asking keys r2 ∧
      r2 ∈ (network.run (confirming asker i2 1 now)).sent asker.other ∧ now ≤ deadline ∧
      ((network.run (confirming asker i2 1 now)).engine asker.other).table.find? asking.hit =
        some conn ∧ conn.Holds { keys with isInitiator := false } deadline := by
  have hcalls : Event.callsTo asker.other (confirming asker i2 1 now) =
      [.handlePacket i2 asker.other.remote now] :=
    callsTo_confirming_other ..
  obtain ⟨-, r2, conn, hconfirms, ⟨_, hqueued⟩, -, hfind, hholds⟩ :=
    hanswers.confirmed hanswering hreachable hopen asker.other.remote now hcompatible.fits hkept
      (fun _ => hcompatible.unsolicited) hwelcomes
  have hsent : ∃ out ∈ ((network.engine asker.other).run []).queuedBy
      (.handlePacket i2 asker.other.remote now), out.datagram = r2 :=
        ⟨_, hqueued ▸ List.mem_singleton_self _, rfl⟩
  refine ⟨r2, conn, _, hconfirms, mem_sent_run [] [] hcalls hsent, ?_, ?_, hholds⟩
  · exact Nat.le_add_right_of_le (Nat.le_max_right _ _)
  · rw [engine_run, hcalls]
    exact hfind

section Stages

variable {asking answering : Engine} (hasking : asking.Continues (network.engine asker))
  (hanswering : answering.Continues (network.engine asker.other)) (hhonest : network.Honest)
  {secret : Block} {keys : KeySet} {i2 : List UInt8} (now : Nat)
include hasking hanswering hhonest

/-- The host that takes up an R1 sends an I2 and waits for the R2. -/
theorem sends_i2 (hcompatible : asking.party.Compatible answering.party)
    (hawaits : network.Awaits asker) {cookie : UInt16} {r1 : List UInt8}
    (hchallenges : answering.Challenges asking secret cookie r1) {orders : List (List Hit)}
    (hsolved : network.SolvesIn asker r1 orders now) :
    ∃ keys i2 conn, asking.Answers answering secret keys i2 ∧
      i2 ∈ (network.run (takingUp asker r1 orders now)).sent asker ∧
      ((network.run (takingUp asker r1 orders now)).engine asker).table.find? answering.hit =
        some conn ∧ conn.AwaitsR2 keys i2 := by
  obtain ⟨conn, hfind, hconn⟩ := hawaits
  rw [show network.peer asker = answering.hit from hanswering.hit] at hfind
  unfold SolvesIn at hsolved
  rw [engine_run, callsTo_takingUp_self,
    show network.peer asker = answering.hit from hanswering.hit] at hsolved
  obtain ⟨keys, i2, later, hanswers, ⟨out, hout, rfl⟩, -, hlater, hwaits⟩ :=
    hchallenges.answered hcompatible hasking (hhonest.reachable asker)
    (hhonest.isOpen asker) hfind hconn asker.remote now (by simp [Call.Spares]) hsolved
  refine ⟨keys, out.datagram, later, hanswers, ?_, ?_, hwaits⟩
  · rw [sent_run, callsTo_takingUp_self, Engine.queuedIn]
    exact List.mem_append_right _ (List.mem_map_of_mem (List.mem_append_right _ hout))
  · rw [engine_run, callsTo_takingUp_self]
    exact hlater

/-- The host that the I2 is for answers it. -/
theorem sends_r2 (hcompatible : asking.party.Compatible answering.party)
    (hback : answering.party.Compatible asking.party) (hhears : network.Hears asker.other)
    (hkept : secret ∈ (network.engine asker.other).issuer.window.secrets)
    (hanswers : asking.Answers answering secret keys i2) :
    ∃ times r2 conn deadline, answering.Confirms asking keys r2 ∧
      r2 ∈ (network.run (confirming asker i2 times now)).sent asker.other ∧ now ≤ deadline ∧
      ((network.run (confirming asker i2 times now)).engine asker.other).table.find? asking.hit =
        some conn ∧ conn.Holds { keys with isInitiator := false } deadline := by
  let event : Event := ⟨asker.other, .handlePacket i2 asker.other.remote now⟩
  have hpeer : network.peer asker.other = asking.hit := by
    rw [peer, Side.other_other]
    exact hasking.hit
  have hreachable := hhonest.reachable asker.other
  have hopen := hhonest.isOpen asker.other
  rw [Hears, state?, hpeer] at hhears
  rcases hhears with hwelcomes | hstate
  · exact ⟨1, sends_r2_at_once hanswering hreachable hopen now hcompatible hwelcomes hkept hanswers⟩
  -- the first I2 is taken for an I1, and the second one is welcome
  · have hwelcomes :=
      hanswers.welcomes hanswering hreachable hopen asker.other.remote now hback.initiatorKey
      hcompatible.initiatorKey hstate
    have hengine : (network.step event).engine asker.other =
        (network.engine asker.other).after event.call := engine_step_self
    have hissuer : ((network.engine asker.other).after event.call).issuer =
        (network.engine asker.other).issuer := by
      rcases (network.engine asker.other).issuer_after event.call with
        hsame | ⟨_, _, _, htimeout, -⟩
      · exact hsame
      · simp [event] at htimeout
    refine ⟨2, @sends_r2_at_once (network.step event) asker asking answering ?_ ?_ ?_ _ _ _ now
      hcompatible ?_ ?_ hanswers⟩
    · exact hanswering.trans (network.continues_step event asker.other)
    · exact hengine ▸ hreachable.after event.call
    · exact hengine ▸ Engine.closed_after hopen (by simp [event])
    · exact hengine ▸ hwelcomes
    · rwa [hengine, hissuer]

/-- The R2 and the end of the hold bring both to an end. -/
theorem resolves (hcompatible : asking.party.Compatible answering.party) {waiting : Connection}
    (hwaiting : (network.engine asker).table.find? answering.hit = some waiting)
    (hawaits : waiting.AwaitsR2 keys i2) {deadline : Nat}
    (hended : ∃ theirs, ((network.engine asker.other).after
      (.handleTimeout [] deadline)).table.find?
      asking.hit = some theirs ∧ theirs.IsDone { keys with isInitiator := false }) {r2 : List UInt8}
    (hconfirms : answering.Confirms asking keys r2) :
    (network.run (concluding asker r2 now deadline)).IsResolved := by
  obtain ⟨-, -, mine, hmine, hdone⟩ := hconfirms.concludes hcompatible.fits hasking
    (hhonest.reachable asker) (hhonest.isOpen asker) hwaiting hawaits asker.remote now
  obtain ⟨theirs, htheirs, hended⟩ := hended
  refine isResolved_of_isDone asker ?_ hdone ?_ hended ⟨rfl, rfl⟩
  · rw [engine_run, peer_run, callsTo_concluding_self,
      show network.peer asker = _ from hanswering.hit]
    exact hmine
  · rw [engine_run, peer_run, callsTo_concluding_other, peer, Side.other_other, hasking.hit]
    exact htheirs

end Stages

/-- A host that waits for an R1 and one that answers its I2 come to an end with the R1 of the
    latter. -/
theorem exists_resolved_of_hears (asker : Side) (hhonest : network.Honest)
    (hawaits : network.Awaits asker) (hhears : network.Hears asker.other)
    (hfits : ∀ side, (network.engine side).party.Compatible (network.engine side.other).party)
    {secret : Block} {cookie : UInt16} {r1 : List UInt8} (hsent : r1 ∈ network.sent asker.other)
    (hkept : secret ∈ (network.engine asker.other).issuer.window.secrets)
    (hchallenges : (network.engine asker.other).Challenges (network.engine asker) secret cookie r1)
    {orders : List (List Hit)} {now : Nat} (hsolved : network.SolvesIn asker r1 orders now) :
    ∃ later, network.Exchanges later ∧ Event.TimelyFrom now later ∧
      (network.run later).IsResolved := by
  have hback := hfits asker.other
  rw [Side.other_other] at hback
  obtain ⟨keys, i2, waiting, hanswers, hi2, hwaiting, hwaits⟩ :=
    sends_i2 (.refl _) (.refl _) hhonest now (hfits asker) hawaits hchallenges hsolved
  -- the other host has seen nothing of this yet
  let front := takingUp asker r1 orders now
  have hfront : network.Exchanges front :=
    exchanges_takingUp asker hsent (hchallenges.exists_parse (hhonest.key asker.other)) orders now
  have hsolving := hhonest.run hfront.lawful
  have hother : (network.run front).engine asker.other = network.engine asker.other := by
    rw [engine_run, callsTo_takingUp_other]
    rfl
  have hstill : (network.run front).Hears asker.other := by
    rw [Hears, state?, hother, peer_run]
    exact hhears
  obtain ⟨times, r2, holding, deadline, hconfirms, hr2, hlater, hholding, hholds⟩ :=
    sends_r2 (network.continues_run front asker) (network.continues_run front asker.other)
      hsolving now (hfits asker) hback hstill (hother ▸ hkept) hanswers
  -- nor does the asker see anything of the answer
  let middle := confirming asker i2 times now
  have hmiddle : (network.run front).Exchanges middle := by
    have hsent : i2 ∈ (network.run front).sent asker.other.other :=
      (Side.other_other asker).symm ▸ hi2
    refine exchanges_of_forall fun event hmem => ?_
    obtain rfl := List.eq_of_mem_replicate hmem
    exact delivers_run_of_sent hsent (hother ▸ hanswers.exists_parse (hhonest.key asker)) _ now
  have hholder := hsolving.run hmiddle.lawful
  have hcontinues := fun side => (network.continues_run front side).trans
    ((network.run front).continues_run middle side)
  have hwaiter : ((network.run front).run middle).engine asker =
      (network.run front).engine asker := by
    rw [engine_run, callsTo_confirming_self]
    rfl
  have hlast : ((network.run front).run middle).Exchanges (concluding asker r2 now deadline) :=
    exchanges_concluding asker hr2 ((hcontinues asker).hit ▸ hconfirms.exists_parse) now deadline
  obtain ⟨-, hended⟩ := Engine.holds_until (hholder.reachable asker.other) (hholder.key asker.other)
    (hholder.isOpen asker.other) hholding hholds [] (Nat.le_refl deadline)
  have hresolved := resolves (hcontinues asker) (hcontinues asker.other) hholder now (hfits asker)
    (hwaiter ▸ hwaiting) hwaits hended hconfirms
  refine ⟨front ++ (middle ++ concluding asker r2 now deadline),
    exchanges_append hfront (exchanges_append hmiddle hlast),
    timelyFrom_settlement asker r1 i2 r2 orders times hlater, ?_⟩
  rw [run_append, run_append]
  exact hresolved

/-- Two hosts that wait for an R1 of each other come to an end with the R1 of one of them. -/
theorem exists_resolved (asker : Side) (hhonest : network.Honest) (hawaits : ∀ side,
    network.Awaits side) (hfits : ∀ side,
      (network.engine side).party.Compatible (network.engine side.other).party)
    {secret : Block} {cookie : UInt16} {r1 : List UInt8} (hsent : r1 ∈ network.sent asker.other)
    (hkept : secret ∈ (network.engine asker.other).issuer.window.secrets)
    (hchallenges : (network.engine asker.other).Challenges (network.engine asker) secret cookie r1)
    {orders : List (List Hit)} {now : Nat} (hsolved : network.SolvesIn asker r1 orders now) :
    ∃ later, network.Exchanges later ∧ Event.TimelyFrom now later ∧
      (network.run later).IsResolved :=
  exists_resolved_of_hears asker hhonest (hawaits asker) (.inr (hawaits asker.other).state?)
    hfits hsent hkept hchallenges hsolved

/-- A host that waits for an R1 and has queued none has queued I1s only. -/
theorem greets_of_awaits {yielded : Prop} (hsound : network.Sound yielded)
    (hhonest : network.Honest) (hawaits : network.Awaits side) (hnone : ∀ packet,
      network.Told side packet → packet.kind ≠ .r1) :
    network.Greets side := by
  refine ⟨hawaits, fun packet htold => ?_⟩
  obtain ⟨conn, hfind, hconn⟩ := hawaits
  have hours := hsound side conn (.inl hfind)
  obtain ⟨hmem, -⟩ := ConnectionTable.find?_eq_some_iff.mp hfind
  have hkeyless := ((hhonest.reachable side).wellFormed hmem).keyless (.inr hconn.state)
  cases hkind : packet.kind with
  | i1 => rfl
  | r1 => exact absurd hkind (hnone packet htold)
  | i2 =>
    have hkeys := hours.keyed packet htold hkind
    rw [hkeyless] at hkeys
    cases hkeys
  | r2 =>
    obtain ⟨keys, hkeys, -⟩ := hours.answers packet htold hkind
    cases hkeyless.symm.trans hkeys

/-- The R1s of a host challenge the other one. -/
theorem Invites.challenges {left right : Engine} {events : List Event} {r1 : List UInt8}
    (hhonest : (start left right).Honest)
    (hinvites : ((start left right).run events).Invites side r1) :
    ∃ secret ∈ (((start left right).run events).engine side).issuer.window.secrets, ∃ cookie,
      (((start left right).run events).engine side).Challenges
        (((start left right).run events).engine side.other) secret cookie r1 := by
  have hcontinues := (start left right).continues_run events side
  obtain ⟨packet, puzzle, hparse, hkind, hreceiver, hpuzzle, secret, hmem, hchallenge⟩ :=
    hinvites.kept
  have hsent := hinvites.sent
  rw [sent_run] at hsent
  obtain ⟨out, hout, rfl⟩ :=
    List.mem_map.mp ((List.mem_append.mp hsent).resolve_left List.not_mem_nil)
  have hissued :=
    Engine.issued_of_queuedIn (hhonest.reachable side) (hhonest.key side) hout hparse hkind
  rw [hreceiver, ← Engine.Issued.of_continues hcontinues] at hissued
  exact ⟨secret, hmem, hissued.challenges (hcontinues.identity ▸ hhonest.key side) hparse hpuzzle
    hchallenge⟩

/-- Two honest hosts that fit together, had nothing to do with each other and have begun at once, so
    that each waits for an R1: if neither has queued one, both wait for ever, whatever the network
    does. If one of them has, under a secret that it still keeps, and the other finds the J for it,
    then there is a way for both to come to an end by themselves with the same keys. -/
theorem simultaneous_open {left right : Engine} (hhonest : (start left right).Honest)
    (hleft : left.table = .empty) (hright : right.table = .empty)
    (hcompatible : left.party.Compatible right.party) (hback : right.party.Compatible left.party)
    {events : List Event} (hlawful : (start left right).Lawful events)
    (hawaits : ∀ side, ((start left right).run events).Awaits side) :
    ((∀ side packet, ((start left right).run events).Told side packet → packet.kind ≠ .r1) →
      ∀ later, ((start left right).run events).Lawful later → ∀ side,
        ((start left right).run (events ++ later)).state? side = some .i1Sent ∧
        ((start left right).run (events ++ later)).keys? side = none) ∧
    ∀ side r1, ((start left right).run events).Invites side r1 → ∀ orders now,
      ((start left right).run events).SolvesIn side.other r1 orders now →
      ∃ later, ((start left right).run events).Exchanges later ∧ Event.TimelyFrom now later ∧
        ((start left right).run (events ++ later)).IsResolved := by
  have hstill := hhonest.run hlawful
  refine ⟨fun hnone later hlater side => ?_, fun side r1 hinvites orders now hsolved => ?_⟩
  · have hsound := (sound_start hleft hright).run hhonest hlawful
    have hgreets :=
      Greets.run (fun side => greets_of_awaits hsound hstill (hawaits side) (hnone side))
      hstill hlater side
    rw [run_append]
    exact ⟨hgreets.awaits.state?, hgreets.awaits.keys? (hstill.run hlater)⟩
  · have hfits : ∀ side, (((start left right).run events).engine side).party.Compatible
        (((start left right).run events).engine side.other).party := by
      intro side
      rw [((start left right).continues_run events side).party,
        ((start left right).continues_run events side.other).party]
      cases side with
      | left => exact hcompatible
      | right => exact hback
    obtain ⟨secret, hkept, cookie, hchallenges⟩ := hinvites.challenges hhonest
    have hsent := hinvites.sent
    obtain ⟨later, hexchanges, htimely, hresolved⟩ :=
      exists_resolved side.other hstill hawaits hfits
      (by rwa [Side.other_other]) (by rwa [Side.other_other]) (by rwa [Side.other_other]) hsolved
    exact ⟨later, hexchanges, htimely, run_append .. ▸ hresolved⟩

/-- Two hosts that meet can begin at once when one of them has answered an I1 in the name of the
    other, and then the puzzle is solved the first time that the time is seen. -/
theorem exists_invites {left right : Engine} (hleft : left.Meets right)
    (hright : right.Meets left) : ∃ events r1, (start left right).Lawful events ∧
      (∀ side, ((start left right).run events).Awaits side) ∧
      ((start left right).run events).Invites .left r1 ∧
      ((start left right).run events).SolvesIn .right r1 [[]] 0 := by
  obtain ⟨forged, hforged⟩ := right.exists_asks left
  obtain ⟨secret, cookie, r1, own, conn, hnewest, hchallenges, -, hr1Sent, -, -, hfind, hawaits⟩ :=
    hleft.answers_and_asks hright.compatible hforged .left
  obtain ⟨-, -, -, asked, -, -, -, -, -, hasked, hasks, hopen, -⟩ := Engine.connect_sends_i1
    hright.isOpen hleft.compatible.distinct hright.unknown (Nat.lt_of_succ_lt hright.room)
      Side.right.remote 0
  let events : List Event := [⟨.left, Engine.arrival .left forged⟩,
    ⟨.left, Engine.greeting .left right.hit⟩, ⟨.right, Engine.greeting .right left.hit⟩]
  have hengine : ∀ side calls, Event.callsTo side events = calls →
      ((start left right).run events).engine side = ((start left right).engine side).run calls :=
    fun side calls hcalls => by rw [engine_run, hcalls]
  have hpeer := (start left right).peer_run events
  refine ⟨events, r1, ?_, fun side => ?_, ⟨?_, ?_⟩, ?_⟩
  · obtain ⟨ctx, asking, -, -, -, hencode⟩ := hforged
    exact ⟨admits_of_i1 (Context.parse_i1 hencode) rfl _ _ _, admits_connect _ _ _ _,
      admits_connect _ _ _ _, trivial⟩
  · rw [Awaits, hpeer]
    cases side with
    | left =>
      rw [hengine .left [Engine.arrival .left forged, Engine.greeting .left right.hit] rfl]
      exact ⟨conn, hfind, hawaits⟩
    | right =>
      rw [hengine .right [Engine.greeting .right left.hit] rfl]
      exact ⟨asked, hasked, hasks⟩
  · exact mem_sent_run [] [Engine.greeting .left right.hit] rfl hr1Sent
  · obtain ⟨ctx, replying, hparty, -, -, hto, hencode⟩ := hchallenges
    have hidentity : ctx.identity = left.identity := congrArg Party.identity hparty
    have hkey : ctx.identity.HasCurveKey := hidentity ▸ hleft.compatible.initiatorKey
    refine ⟨_, _, Context.parse_r1 hkey hencode, rfl, hto.trans (hpeer .left).symm,
      Context.puzzle?_r1, secret, ?_, ?_⟩
    · rw [hengine .left [Engine.arrival .left forged, Engine.greeting .left right.hit] rfl]
      exact Engine.newest_mem_run_of_countP hnewest _ (by simp [Engine.arrival, Engine.greeting])
    · rw [hpeer, ((start left right).continues_run events .left).hit]
      rfl
  · intro solved hsolved
    have hreachable := hright.reachable.run [Engine.greeting .right left.hit]
    obtain ⟨_, keys, i2, later, -, -, -, -, hlater, hrests⟩ := hright.takes_and_solves
      (right.continues_run _) hreachable hopen hasked hasks hleft.easy hchallenges .right []
    rw [engine_run, callsTo_takingUp_self,
      hengine .right [Engine.greeting .right left.hit] rfl, hpeer] at hsolved
    obtain rfl := Option.some.inj (hlater.symm.trans hsolved)
    obtain ⟨hmem, -⟩ := ConnectionTable.find?_eq_some_iff.mp hlater
    exact hrests.awaits.isSolving_eq_false ((hreachable.run _).wellFormed hmem)

/-- The sample hosts wait for ever when both just connect, and come to an end when the left one has
    answered an I1 in the name of the right one before. -/
theorem exists_simultaneous_open : ∃ (left right : Engine) (crossing opening later : List Event),
    (start left right).Lawful crossing ∧ (start left right).Lawful opening ∧
    (∀ side, ((start left right).run crossing).Awaits side) ∧
    (∀ side, ((start left right).run opening).Awaits side) ∧
    (∀ more, ((start left right).run crossing).Lawful more → ∀ side,
      ((start left right).run (crossing ++ more)).state? side = some .i1Sent) ∧
    ((start left right).run opening).Exchanges later ∧ Event.TimelyFrom 0 later ∧
    ((start left right).run (opening ++ later)).IsResolved := by
  obtain ⟨left, right, hleft, hright, hmeetsLeft, hmeetsRight, -⟩ := SampleHost.exists_meets
  have hhonest := honest_of_meets hmeetsLeft hmeetsRight
  obtain ⟨-, -, hgreets⟩ := greets_of_meets hmeetsLeft hmeetsRight Side.left.remote
    Side.right.remote 0
  obtain ⟨opening, r1, hopening, hawaits, hinvites, hsolved⟩ :=
    exists_invites hmeetsLeft hmeetsRight
  let crossing : List Event := [⟨.left, .connect right.hit Side.left.remote 0⟩,
    ⟨.right, .connect left.hit Side.right.remote 0⟩]
  have hcrossing : (start left right).Lawful crossing :=
    ⟨admits_connect _ _ _ _, admits_connect _ _ _ _, trivial⟩
  obtain ⟨hwaits, -⟩ := simultaneous_open hhonest hleft.table hright.table hmeetsLeft.compatible
    hmeetsRight.compatible hcrossing fun side => (hgreets side).awaits
  have hsilent : ∀ side packet, ((start left right).run crossing).Told side packet →
      packet.kind ≠ .r1 := fun side packet htold heq => by
    cases ((hgreets side).only packet htold).symm.trans heq
  obtain ⟨-, hopens⟩ := simultaneous_open hhonest hleft.table hright.table hmeetsLeft.compatible
    hmeetsRight.compatible hopening hawaits
  obtain ⟨later, hexchanges, htimely, hresolved⟩ := hopens .left r1 hinvites [[]] 0 hsolved
  exact ⟨left, right, crossing, opening, later, hcrossing, hopening,
    fun side => (hgreets side).awaits, hawaits,
      fun more hmore side => (hwaits hsilent more hmore side).1, hexchanges, htimely, hresolved⟩

end Network

end DietExchange
