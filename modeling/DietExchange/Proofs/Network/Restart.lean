import DietExchange.Proofs.Network.Opening
import DietExchange.Proofs.Network.Record

namespace DietExchange

namespace Engine

/-- Whether an engine is a new one of the same host with the same options. -/
def Renews (fresh engine : Engine) : Prop :=
  ∃ source rest seed now log,
    create engine.config engine.identity source seed now = (.ok (fresh, log), rest)

theorem Renews.spec {fresh engine : Engine} (hrenews : fresh.Renews engine) :
    fresh.config = engine.config ∧ fresh.identity = engine.identity ∧ fresh.table = .empty ∧
      fresh.closed = false ∧ fresh.Reachable := by
  obtain ⟨source, rest, seed, now, log, hcreate⟩ := hrenews
  obtain ⟨hconfig, hidentity, htable, -, -, hopen, -⟩ := create_spec hcreate
  exact ⟨hconfig, hidentity, htable, hopen, .create hcreate⟩

end Engine

namespace Network

variable (network : Network)

/-- One of the hosts starts again. What was queued before can still arrive. -/
def restart (side : Side) (fresh : Engine) : Network where
  engine := Function.update network.engine side fresh
  sent := network.sent

/-- Whether two hosts bring an event about by themselves: one of them connects to the other, sees
    the time or takes a datagram that the other one queued for it. -/
def Acts (event : Event) : Prop :=
  network.Delivers event ∨ ∃ address now,
  event.call = .connect (network.peer event.side) address now

/-- Whether two hosts bring one event after the other about by themselves. -/
def Proceeds (network : Network) : List Event → Prop
  | [] => True
  | event :: rest => network.Acts event ∧ (network.step event).Proceeds rest

/-- Whether two hosts can come to an end by themselves from this time on. -/
def Recovers (now : Nat) : Prop :=
  ∃ later, network.Proceeds later ∧ Event.TimelyFrom now later ∧ (network.run later).IsResolved

/-- Whether a J is found for every R1 that one of the hosts ever takes up. -/
def PuzzlesEnd : Prop :=
  ∀ events, network.Lawful events → ∀ asker secret cookie r1 now,
    (network.run events).Awaits asker →
    ((network.run events).engine asker.other).Challenges ((network.run events).engine asker)
      secret cookie r1 → ∃ orders, (network.run events).SolvesIn asker r1 orders now

/-- Two honest hosts that fit together, of whom each finds the Js that it needs. -/
structure Able : Prop where
  honest : network.Honest
  fits : ∀ side, (network.engine side).party.Compatible (network.engine side.other).party
  ends : network.PuzzlesEnd

/-- Whether a host knows nothing of the other, but has room for a connection with it. -/
def IsBlank (side : Side) : Prop :=
  (network.engine side).table.find? (network.peer side) = none ∧
    (network.engine side).connectionCount < (network.engine side).config.maxConnections

/-- Whether the other host can get an R1 of this one that leads to an R2: this one knows nothing of
    it and has room, or it hears the I2 that answers an R1 of old. -/
def Obliges (side : Side) : Prop :=
  network.IsBlank side ∨ network.Hears side ∧ ∃ secret cookie r1, r1 ∈ network.sent side ∧
    secret ∈ (network.engine side).issuer.window.secrets ∧
    (network.engine side).Challenges (network.engine side.other) secret cookie r1

/-- Whether a host can connect to the other. -/
def IsIdle (side : Side) : Prop :=
  ∃ conn, (network.engine side).Offers (network.peer side) side.remote conn ∧
  conn.state = .unassociated

/-- Whether what a host knows of the other is right, but for what the other one still knows of
    it. -/
def Remembers (side : Side) : Prop :=
  ∀ conn, network.Linked side conn →
    ∃ yielded, { network.view yielded side with answered := True }.Sound conn

variable {network} {side : Side} {event : Event}

section Restart

variable {fresh : Engine} (hrenews : fresh.Renews (network.engine side))

@[simp]
theorem engine_restart_self : (network.restart side fresh).engine side = fresh :=
    Function.update_self ..

@[simp]
theorem engine_restart_other : (network.restart side fresh).engine side.other =
    network.engine side.other :=
  Function.update_of_ne (Side.other_ne _) ..

include hrenews

theorem extends_restart : network.Extends (network.restart side fresh) where
  party reading := by
    obtain ⟨hconfig, hidentity, -⟩ := hrenews.spec
    rcases reading.eq_or_eq_other side with rfl | rfl
    · rw [engine_restart_self, Engine.party, hconfig, hidentity]
      rfl
    · rw [engine_restart_other]
  sent _ _ hsent := hsent

theorem Honest.restart (hhonest : network.Honest) : (network.restart side fresh).Honest := by
  have hextends := extends_restart hrenews
  have hidentity : ∀ reading, ((network.restart side fresh).engine reading).identity =
      (network.engine reading).identity := fun reading =>
    congrArg Party.identity (hextends.party reading)
  have hconfig : ∀ reading, ((network.restart side fresh).engine reading).config =
      (network.engine reading).config :=
        fun reading => congrArg Party.config (hextends.party reading)
  obtain ⟨-, -, -, hopen, hreachable⟩ := hrenews.spec
  refine ⟨fun reading => ?_, fun reading => ?_, fun reading => ?_, fun reading => ?_,
    fun reading => ?_, fun reading => ?_⟩
  · rcases reading.eq_or_eq_other side with rfl | rfl
    · rwa [engine_restart_self]
    · rw [engine_restart_other]
      exact hhonest.reachable _
  · rcases reading.eq_or_eq_other side with rfl | rfl
    · rwa [engine_restart_self]
    · rw [engine_restart_other]
      exact hhonest.isOpen _
  · rw [hidentity]
    exact hhonest.key reading
  · rw [hextends.peer, hextends.hit]
    exact hhonest.distinct reading
  · rw [hconfig, hconfig]
    exact hhonest.lengths reading
  · rw [hidentity, hidentity]
    exact hhonest.agreement reading

theorem linked_restart_other {conn : Connection} :
    (network.restart side fresh).Linked side.other conn ↔ network.Linked side.other conn := by
  unfold Linked
  rw [engine_restart_other, (extends_restart hrenews).peer]

theorem told_restart (reading : Side) :
    (network.restart side fresh).Told reading = network.Told reading := by
  funext packet
  unfold Told
  rw [(extends_restart hrenews).peer]
  rfl

/-- The host that started again has nothing to be told of, and the other one is as it was. -/
theorem IsRecorded.restart (hrecorded : network.IsRecorded) :
    (network.restart side fresh).IsRecorded := by
  have hextends := extends_restart hrenews
  intro reading conn hlinked
  rcases reading.eq_or_eq_other side with rfl | rfl
  · obtain ⟨-, -, htable, -⟩ := hrenews.spec
    have hnone : fresh.table.find? ((network.restart reading fresh).peer reading) = none := by
      rw [htable]
      rfl
    unfold Linked at hlinked
    rw [engine_restart_self] at hlinked
    rcases hlinked with hfound | ⟨-, address, rfl⟩
    · cases hnone.symm.trans hfound
    · obtain ⟨before, hbefore⟩ := network.exists_linked reading
      exact ((hrecorded reading before hbefore).mono hextends fun _ hsent _ _ _ =>
        hsent).fresh _ _ _
  · exact (hrecorded _ conn ((linked_restart_other hrenews).mp hlinked)).mono hextends
      fun _ hsent _ _ _ => hsent

/-- The other host goes by what it was told before. -/
theorem Sound.remembers {yielded : Prop} (hsound : network.Sound yielded) :
    (network.restart side fresh).Remembers side.other := by
  have hextends := extends_restart hrenews
  intro conn hlinked
  have hbefore := hsound _ conn ((linked_restart_other hrenews).mp hlinked)
  refine ⟨yielded, ?_⟩
  unfold view
  rw [told_restart hrenews, told_restart hrenews, hextends.party, hextends.party]
  exact hbefore.mono (fun _ hheard => hheard) (fun _ => trivial) id hbefore.yields

theorem isBlank_restart (hroom : 0 < (network.engine side).config.maxConnections) :
    (network.restart side fresh).IsBlank side := by
  obtain ⟨hconfig, -, htable, -⟩ := hrenews.spec
  rw [IsBlank, engine_restart_self, Engine.connectionCount, htable, hconfig]
  exact ⟨rfl, hroom⟩

end Restart

theorem Acts.admits (hacts : network.Acts event) : network.Admits event := by
  rcases hacts with hdelivers | ⟨address, now, hcall⟩
  · exact hdelivers.admits
  · exact ⟨by simp [hcall], fun _ _ _ _ heq => by cases hcall.symm.trans heq⟩

theorem Exchanges.proceeds {events : List Event} (hexchanges : network.Exchanges events) :
    network.Proceeds events := by
  induction events generalizing network with
  | nil => exact trivial
  | cons event rest ih => exact ⟨.inl hexchanges.1, ih hexchanges.2⟩

/-- What two hosts do by themselves, the network can bring about. -/
theorem Proceeds.lawful {events : List Event} (hproceeds : network.Proceeds events) :
    network.Lawful events := by
  induction events generalizing network with
  | nil => exact trivial
  | cons event rest ih => exact ⟨hproceeds.1.admits, ih hproceeds.2⟩

theorem isBlank_step_other : (network.step event).IsBlank event.side.other ↔
    network.IsBlank event.side.other := by
  unfold IsBlank
  rw [engine_step_other, peer_step]

theorem IsBlank.step_self (hblank : network.IsBlank event.side)
    (htable : ((network.engine event.side).after event.call).table =
      (network.engine event.side).table) : (network.step event).IsBlank event.side := by
  unfold IsBlank
  rw [engine_step_self, peer_step, Engine.connectionCount, htable,
    (Engine.continues_after _ _).config]
  exact hblank

theorem hears_step_other : (network.step event).Hears event.side.other ↔
    network.Hears event.side.other := by
  unfold Hears state?
  rw [engine_step_other, peer_step]

theorem Obliges.step_other (hobliges : network.Obliges event.side.other) :
    (network.step event).Obliges event.side.other := by
  refine hobliges.imp isBlank_step_other.mpr
    fun ⟨hhears, secret, cookie, r1, hsent, hkept, hchallenges⟩ =>
    ⟨hears_step_other.mpr hhears, secret, cookie, r1, ?_, ?_, ?_⟩
  · rwa [sent_step_other]
  · rwa [engine_step_other]
  · exact (network.extends_step event).challenges hchallenges

theorem Able.accepted (hable : network.Able) (side : Side) :
    (network.engine side).config.IsAccepted :=
  (hable.fits side).initiatorAccepted

theorem Able.step (hable : network.Able) (hadmits : network.Admits event) :
    (network.step event).Able where
  honest := hable.honest.step hadmits
  fits side := by
    rw [party_step, party_step]
    exact hable.fits side
  ends events hlawful := hable.ends (event :: events) ⟨hadmits, hlawful⟩

theorem Able.run {events : List Event} (hable : network.Able) (hlawful : network.Lawful events) :
    (network.run events).Able := by
  induction events generalizing network with
  | nil => exact hable
  | cons event rest ih => exact ih (hable.step hlawful.1) hlawful.2

/-- Two hosts that can come to an end after an event can do so before it. -/
theorem Recovers.of_step {now time : Nat} (hrecovers : (network.step event).Recovers time)
    (hacts : network.Acts event) (htime : event.call.now? = some time) (hle : now ≤ time) :
    network.Recovers now := by
  obtain ⟨later, hproceeds, htimely, hresolved⟩ := hrecovers
  refine ⟨event :: later, ⟨hacts, hproceeds⟩, ?_, hresolved⟩
  unfold Event.TimelyFrom at htimely ⊢
  rw [List.filterMap_cons, htime]
  refine List.pairwise_cons.mpr ⟨fun moment hmem => ?_, htimely⟩
  rcases List.mem_cons.mp hmem with rfl | hrest
  · exact hle
  · exact Nat.le_trans hle ((List.pairwise_cons.mp htimely).1 moment hrest)

/-- Two hosts that can come to an end after several events at one time can do so before them. -/
theorem Recovers.of_run {events : List Event} {now : Nat}
    (hrecovers : (network.run events).Recovers now) (hproceeds : network.Proceeds events)
    (htime : ∀ event ∈ events, event.call.now? = some now) :
    network.Recovers now := by
  induction events generalizing network with
  | nil => exact hrecovers
  | cons event rest ih =>
    obtain ⟨hacts, hrest⟩ := hproceeds
    exact (ih hrecovers hrest fun later hmem =>
      htime later (List.mem_cons_of_mem _ hmem)).of_step hacts
      (htime event List.mem_cons_self) (Nat.le_refl now)

section Able

variable (hable : network.Able)
include hable

/-- A host that waits for an R1 and one that answers its I2 come to an end with the R1 of the
    latter. -/
theorem Able.recovers_of_hears {asker answerer : Side} (hother : asker.other = answerer)
    (hawaits : network.Awaits asker) (hhears : network.Hears answerer) {secret : Block}
    {cookie : UInt16} {r1 : List UInt8} (hsent : r1 ∈ network.sent answerer)
    (hkept : secret ∈ (network.engine answerer).issuer.window.secrets)
    (hchallenges : (network.engine answerer).Challenges (network.engine asker) secret cookie r1)
    (now : Nat) : network.Recovers now := by
  subst hother
  obtain ⟨orders, hsolved⟩ := hable.ends [] trivial asker secret cookie r1 now hawaits hchallenges
  obtain ⟨later, hexchanges, hrest⟩ :=
    exists_resolved_of_hears asker hable.honest hawaits hhears hable.fits
    hsent hkept hchallenges hsolved
  exact ⟨later, hexchanges.proceeds, hrest⟩

/-- A host that knows nothing of the other answers its I1 with an R1, and that is all. -/
theorem Able.offers_r1 {asker answerer : Side} (hother : asker.other = answerer)
    (hblank : network.IsBlank answerer) {i1 : List UInt8}
    (hasks : (network.engine asker).Asks (network.engine answerer) i1) (now : Nat) :
    ∃ secret cookie r1, (network.engine answerer).issuer.window.newest? = some secret ∧
      (network.engine answerer).Challenges (network.engine asker) secret cookie r1 ∧
      (network.engine answerer).queuedBy (.handlePacket i1 answerer.remote now) =
        [⟨answerer.remote, r1⟩] ∧
      ((network.engine answerer).after (.handlePacket i1 answerer.remote now)).table =
        (network.engine answerer).table ∧
      ((network.engine answerer).after (.handlePacket i1 answerer.remote now)).issuer =
        (network.engine answerer).issuer := by
  subst hother
  obtain ⟨ctx, conn, hidentity, hhost, hpeer, hencode⟩ := hasks
  have hfits := hable.fits asker
  have hcurve : (network.engine asker.other).identity.curve = ctx.identity.curve := by
    rw [hidentity]
    exact hfits.curve.symm
  have hnone : (network.engine asker.other).table.find? conn.host = none := by
    rw [hhost]
    simpa [peer] using hblank.1
  obtain ⟨-, r1, secret, cookie, replying, hnewest, hencodeR1, hfrom, hto, htable, -,
    hissuer, hqueued, -⟩ :=
      Engine.i1_is_answered (hable.honest.reachable asker.other) (hable.honest.isOpen asker.other)
        (hable.honest.key asker.other) hfits.unsolicited hencode hpeer hcurve hnone hblank.2
        asker.other.remote now
  rw [hhost] at hencodeR1 hto
  refine ⟨secret, cookie, r1, hnewest, ⟨_, replying, rfl,
    (hable.honest.reachable asker.other).issuer.1, hfrom, hto, hencodeR1⟩, hqueued, htable, hissuer⟩

/-- A host that connects to the other waits for an R1. -/
theorem Able.connects (hidle : network.IsIdle side) (now : Nat) :
    (network.step ⟨side, .connect (network.peer side) side.remote now⟩).Awaits side ∧
      ∃ i1 ∈ (network.step ⟨side, .connect (network.peer side) side.remote now⟩).sent side,
        (network.engine side).Asks (network.engine side.other) i1 := by
  obtain ⟨conn, hoffers, hstate⟩ := hidle
  have hlinked : network.Linked side conn := hoffers.imp_right fun ⟨hnone, _, hfresh⟩ =>
    ⟨hnone, _, hfresh⟩
  have howns : (network.view False side).Owns conn := hable.honest.owns hlinked
  obtain ⟨-, moved, i1, hencode, hfind, hawaits, -, hqueued, -⟩ := Engine.connect_offered_sends_i1
    (hable.honest.isOpen side) (hable.honest.distinct side) hoffers hstate
    (howns.form.pending_eq_none (by simp [hstate])) howns.outbox now
  let event : Event := ⟨side, .connect (network.peer side) side.remote now⟩
  refine ⟨⟨moved, ?_, hawaits⟩, i1, ?_, _, conn, rfl, howns.host, howns.peer, hencode⟩
  · rw [peer_step, show side = event.side from rfl, engine_step_self]
    exact hfind
  · exact @mem_sent_step network event ⟨conn.address, i1⟩ (hqueued ▸ List.mem_singleton_self _)

/-- A host that waits for an R1 and one that can be made to answer come to an end if the I1 was
    queued. -/
theorem Able.recovers_of_asked {asker answerer : Side} (hother : asker.other = answerer)
    (hawaits : network.Awaits asker) (hobliges : network.Obliges answerer) {i1 : List UInt8}
    (hsent : i1 ∈ network.sent asker)
    (hasks : (network.engine asker).Asks (network.engine answerer) i1)
    (now : Nat) : network.Recovers now := by
  subst hother
  rcases hobliges with hblank | ⟨hhears, secret, cookie, r1, hr1, hkept, hchallenges⟩
  · let event : Event := ⟨asker.other, .handlePacket i1 asker.other.remote now⟩
    have hside : event.side.other = asker := Side.other_other asker
    have hextends := network.extends_step event
    obtain ⟨secret, cookie, r1, hnewest, hchallenges, hqueued, htable, hissuer⟩ :=
      hable.offers_r1 rfl hblank hasks now
    have hr1 :=
      @mem_sent_step network event ⟨asker.other.remote, r1⟩ (hqueued ▸ List.mem_singleton_self _)
    have hacts : network.Acts event := by
      obtain ⟨ctx, conn, -, -, hpeer, hencode⟩ := hasks
      refine .inl (delivers_run_of_sent ?_ ⟨_, Context.parse_i1 hencode, hpeer⟩ _ now [])
      rwa [Side.other_other]
    have hengine : (network.step event).engine asker.other =
        (network.engine asker.other).after event.call := @engine_step_self network event
    have hstill : (network.step event).Awaits asker :=
      hside ▸ awaits_step_other.mpr (hside.symm ▸ hawaits)
    refine ((hable.step hacts.admits).recovers_of_hears rfl hstill
      (.inl (.inl (@IsBlank.step_self network event hblank htable))) hr1 ?_
      (hextends.challenges hchallenges) now).of_step hacts rfl (Nat.le_refl now)
    rw [hengine, hissuer]
    exact List.mem_of_mem_head? hnewest
  · rw [Side.other_other] at hchallenges
    exact hable.recovers_of_hears rfl hawaits hhears hr1 hkept hchallenges now

/-- A host that can connect to one that can be made to answer can come to an end with it. -/
theorem Able.recovers_of_idle {asker answerer : Side} (hother : asker.other = answerer)
    (hidle : network.IsIdle asker) (hobliges : network.Obliges answerer) (now : Nat) :
    network.Recovers now := by
  subst hother
  let event : Event := ⟨asker, .connect (network.peer asker) asker.remote now⟩
  obtain ⟨hawaits, i1, hsent, hasks⟩ := hable.connects hidle now
  have hacts : network.Acts event := .inr ⟨_, now, rfl⟩
  exact ((hable.step hacts.admits).recovers_of_asked rfl hawaits
    (@Obliges.step_other network event hobliges)
    hsent ((network.extends_step event).asks hasks) now).of_step hacts rfl (Nat.le_refl now)

end Able

end Network

end DietExchange
