import DietExchange.Proofs.Engine.Gate
import DietExchange.Proofs.Engine.Impact

namespace DietExchange

instance (out : Outgoing) (receiver : Hit) : Decidable (out.IsFor receiver) :=
  match hparse : Packet.parse out.datagram with
  | .ok packet => decidable_of_iff (packet.receiver = receiver)
    ⟨fun heq => ⟨packet, hparse, heq⟩, fun ⟨_, hfound, heq⟩ =>
      (congrArg Packet.receiver (Except.ok.inj (hparse.symm.trans hfound))).trans heq⟩
  | .error _ => .isFalse fun ⟨_, hfound, _⟩ => by cases hparse.symm.trans hfound

namespace Engine

/-- Whether a datagram is answered with an R1. -/
def AnswersWithR1 (engine : Engine) (datagram : List UInt8) (source : Address) (now : Nat) : Prop :=
  ∃ out ∈ engine.queuedBy (.handlePacket datagram source now), out.IsR1

/-- Whether two engines are the same but for the order in which the connections were opened, and of
    what is queued for different peers. -/
structure SameButOrder (one other : Engine) : Prop extends SameHost one other where
  rng : other.rng = one.rng
  find : ∀ peer, other.table.find? peer = one.table.find? peer
  retransmitting : other.retransmitting = one.retransmitting
  retransmissionTimer : other.retransmissionTimer = one.retransmissionTimer
  rotationTimer : other.rotationTimer = one.rotationTimer
  datagrams : other.datagrams.Perm one.datagrams
  established : other.established.Perm one.established
  inOrder : ∀ peer, other.datagrams.filter (·.IsFor peer) = one.datagrams.filter (·.IsFor peer)

theorem SameButOrder.refl (engine : Engine) : SameButOrder engine engine :=
  ⟨.refl engine, rfl, fun _ => rfl, rfl, rfl, rfl, .refl _, .refl _, fun _ => rfl⟩

theorem SameButOrder.symm {one other : Engine} (hsame : SameButOrder one other) :
    SameButOrder other one where
  config := hsame.config.symm
  identity := hsame.identity.symm
  entropy := hsame.entropy.symm
  issuer := hsame.issuer.symm
  lastNow := hsame.lastNow.symm
  closed := hsame.closed.symm
  rng := hsame.rng.symm
  find peer := (hsame.find peer).symm
  retransmitting := hsame.retransmitting.symm
  retransmissionTimer := hsame.retransmissionTimer.symm
  rotationTimer := hsame.rotationTimer.symm
  datagrams := hsame.datagrams.symm
  established := hsame.established.symm
  inOrder peer := (hsame.inOrder peer).symm

/-- Whether a datagram changes no connection but its sender's from one engine to the next. -/
def ChangesSenderOnly (datagram : List UInt8) (before after : Engine) : Prop :=
  ∀ peer, (∀ packet, Packet.parse datagram = .ok packet → packet.sender ≠ peer) →
    after.table.find? peer = before.table.find? peer

section Absorb

variable {engine : Engine} {mine other : Impact}

/-- Impacts on different peers can be taken in either order. What one leaves of the random stream is
    what there is if the other draws nothing. -/
theorem absorb_comm (hdistinct : ∀ peer, mine.Touches peer → ¬other.Touches peer) :
    SameButOrder ((engine.absorb mine).absorb other)
      ((engine.absorb other).absorb { mine with rng := other.rng }) where
  config := rfl
  identity := rfl
  entropy := rfl
  issuer := rfl
  lastNow := rfl
  closed := rfl
  rng := rfl
  find peer := by
    simp only [find?_absorb]
    by_cases hmine : mine.Touches peer
    · rw [Impact.filter_kept_of_spared (hdistinct peer hmine), Option.none_or, Option.none_or]
    · rw [Impact.filter_kept_of_spared hmine, Option.none_or, Option.none_or]
  retransmitting := Nat.sub_right_comm _ _ _
  retransmissionTimer := by
    simp only [absorb, Timer.calm_calm, Nat.add_comm]
  rotationTimer := rfl
  datagrams := by
    simp only [absorb, List.append_assoc]
    exact List.Perm.append_left _ List.perm_append_comm
  established := by
    simp only [absorb, List.append_assoc]
    exact List.Perm.append_left _ List.perm_append_comm
  inOrder peer := by
    simp only [absorb, List.filter_append, List.append_assoc]
    by_cases hmine : mine.Touches peer
    · have hother : other.queued.filter (·.IsFor peer) = [] :=
        List.filter_eq_nil_iff.mpr fun out hout hfor =>
          hdistinct peer hmine (.inr ⟨out, hout, of_decide_eq_true hfor⟩)
      rw [hother, List.append_nil, List.nil_append]
    · have hnone : mine.queued.filter (·.IsFor peer) = [] :=
        List.filter_eq_nil_iff.mpr fun out hout hfor =>
          hmine (.inr ⟨out, hout, of_decide_eq_true hfor⟩)
      rw [hnone, List.append_nil, List.nil_append]

end Absorb

section Commute

variable {engine : Engine} {first second : List UInt8} {source : Address}

/-- Neither of two datagrams takes notice of the other, as long as one of them draws nothing. -/
theorem impacts_commute (hreachable : Reachable engine) (hkey : engine.identity.HasCurveKey)
    (hroom : engine.connectionCount + 2 ≤ engine.config.maxConnections)
    (hdistinct : ∀ mine other, Packet.parse first = .ok mine → Packet.parse second = .ok other →
      mine.sender ≠ other.sender) (hnothing : engine.DrawsNothing first source)
      (address : Address) :
    let one := engine.absorb (engine.impact first source)
    let other := engine.absorb (engine.impact second address)
    one.turnFor second address = engine.turnFor second address ∧
    other.turnFor first source =
      (engine.turnFor first source).map (Option.map (Turn.withRng other.rng)) ∧
    SameButOrder (one.absorb (one.impact second address))
    (other.absorb (other.impact first source)) := by
  intro one other
  have hfirst : ∀ packet, Packet.parse first = .ok packet →
      ¬(engine.impact second address).Touches packet.sender := by
    intro packet hparse htouches
    obtain ⟨found, hfound, hsender⟩ := sender_of_touches hreachable hkey htouches
    exact hdistinct packet found hparse hfound hsender.symm
  have hsecond : ∀ packet, Packet.parse second = .ok packet →
      ¬(engine.impact first source).Touches packet.sender := by
    intro packet hparse htouches
    obtain ⟨found, hfound, hsender⟩ := sender_of_touches hreachable hkey htouches
    exact hdistinct found packet hfound hparse hsender
  have hone : engine.withRng (engine.impact first source).rng = engine := by
    rw [hnothing.rng_impact]
    rfl
  refine ⟨?_, ?_, ?_⟩
  · rw [turnFor_absorb hroom hsecond, hone]
  · exact (turnFor_absorb hroom hfirst).trans (hnothing _)
  · rw [impact_absorb hroom hsecond, hone, impact_absorb hroom hfirst, hnothing.impact_withRng]
    refine absorb_comm fun peer hmine => ?_
    obtain ⟨found, hfound, rfl⟩ := sender_of_touches hreachable hkey hmine
    exact hfirst found hfound

theorem changesSenderOnly_handlePacket (engine : Engine) (datagram : List UInt8) (source : Address)
    (now : Nat) :
    ChangesSenderOnly datagram engine (engine.after (.handlePacket datagram source now)) := by
  intro peer hothers
  cases hclosed : engine.closed with
  | true => rw [after_of_closed hclosed (by simp)]
  | false =>
    rcases handlePacket_cases hclosed datagram source now with hadvance | ⟨packet, hparse,
      -, hturned⟩
    · rw [show engine.after (.handlePacket datagram source now) = engine.advance now from hadvance]
      rfl
    · rcases hturned.find?_cases peer with hsame | ⟨rfl, -⟩
      · exact hsame
      · exact absurd rfl (hothers packet hparse)

/-- A datagram draws nothing, or it is answered with an R1. -/
theorem drawsNothing_or_answersWithR1 (hreachable : Reachable engine)
    (hopen : engine.closed = false) (hkey : engine.identity.HasCurveKey) (datagram : List UInt8)
    (source : Address) (now : Nat) : (engine.advance now).DrawsNothing datagram source ∨
      engine.AnswersWithR1 datagram source now := by
  rcases (engine.advance now).turnFor_withRng hkey datagram source with hnothing |
    ⟨turn, hturn, out, hout, hr1⟩
  · exact .inl hnothing
  · have habsorb : engine.after (.handlePacket datagram source now) =
        (engine.advance now).absorb ((engine.advance now).impact datagram source) :=
      (handlePacket_eq_absorb hreachable hopen datagram source now).2
    rw [impact, hturn] at habsorb
    refine .inr ⟨out, ?_, hr1⟩
    rw [queuedBy_of_append (congrArg Engine.datagrams habsorb)]
    exact hout

end Commute

/-- Whether it makes no difference to anything but the order in the queues which of two datagrams is
    handled first. -/
structure EitherFirst (engine : Engine) (mine : List UInt8) (source : Address) (other : List UInt8)
    (address : Address) (now : Nat) : Prop where
  result : ((engine.after (.handlePacket other address now)).handlePacket mine source now).result =
    (engine.handlePacket mine source now).result
  otherResult :
    ((engine.after (.handlePacket mine source now)).handlePacket other address now).result =
      (engine.handlePacket other address now).result
  same : SameButOrder
    ((engine.after (.handlePacket mine source now)).after (.handlePacket other address now))
    ((engine.after (.handlePacket other address now)).after (.handlePacket mine source now))

section EitherFirst

variable {engine : Engine} {mine other : List UInt8} {source address : Address} {now : Nat}

theorem EitherFirst.symm (heither : engine.EitherFirst mine source other address now) :
    engine.EitherFirst other address mine source now :=
  ⟨heither.otherResult, heither.result, heither.same.symm⟩

theorem eitherFirst_of_drawsNothing (hreachable : Reachable engine)
    (hopen : engine.closed = false) (hkey : engine.identity.HasCurveKey)
    (hroom : engine.connectionCount + 2 ≤ engine.config.maxConnections)
    (hdistinct : ∀ packet found, Packet.parse mine = .ok packet → Packet.parse other = .ok found →
      packet.sender ≠ found.sender) (hnothing : (engine.advance now).DrawsNothing mine source) :
    engine.EitherFirst mine source other address now := by
  let start := engine.advance now
  have hhandled : ∀ datagram source, engine.after (.handlePacket datagram source now) =
      start.absorb (start.impact datagram source) :=
    fun datagram source => (handlePacket_eq_absorb hreachable hopen datagram source now).2
  have hresult : ∀ datagram source, (engine.handlePacket datagram source now).result =
      (start.turnFor datagram source).map (fun _ => ()) :=
    fun datagram source => (handlePacket_eq_absorb hreachable hopen datagram source now).1
  -- the time has come already when the second of the two is handled
  have hthen : ∀ front origin datagram source,
      let middle := start.absorb (start.impact front origin)
      (middle.handlePacket datagram source now).result =
        (middle.turnFor datagram source).map (fun _ => ()) ∧
      middle.after (.handlePacket datagram source now) =
        middle.absorb (middle.impact datagram source) := by
    intro front origin datagram source middle
    have hmiddle := hreachable.after (.handlePacket front origin now)
    rw [hhandled] at hmiddle
    have hstill : middle.advance now = middle := by
      simp [middle, start, absorb, advance]
    have hsecond := handlePacket_eq_absorb hmiddle hopen datagram source now
    rwa [hstill] at hsecond
  obtain ⟨hother, hmine, hsame⟩ :=
    impacts_commute (hreachable.advance hopen now) hkey hroom hdistinct hnothing address
  refine ⟨?_, ?_, ?_⟩
  · rw [hhandled, (hthen other address mine source).1, hmine, hresult]
    cases start.turnFor mine source <;> rfl
  · rw [hhandled, (hthen mine source other address).1, hother, hresult]
  · rw [hhandled, hhandled, (hthen mine source other address).2,
      (hthen other address mine source).2]
    exact hsame

theorem eitherFirst_of_closed (hclosed : engine.closed = true) :
    engine.EitherFirst mine source other address now := by
  have hafter : ∀ datagram source, engine.after (.handlePacket datagram source now) = engine :=
    fun datagram source => after_of_closed hclosed (by simp)
  constructor
  · rw [hafter]
  · rw [hafter]
  · rw [hafter, hafter, hafter]
    exact .refl engine

end EitherFirst

/-- Whichever of two datagrams of different peers is handled first, each has the same result, and
    the engine is the same but for the order of what is queued for different peers. Both must not be
    answered with an R1, since the second R1 has the next cookie. No connection changes but the
    sender's, either way. -/
theorem packets_of_different_peers_commute {engine : Engine} (hreachable : Reachable engine)
    (hkey : engine.identity.HasCurveKey)
    (hroom : engine.connectionCount + 2 ≤ engine.config.maxConnections) {mine other : List UInt8}
    (hdistinct : ∀ packet found, Packet.parse mine = .ok packet → Packet.parse other = .ok found →
      packet.sender ≠ found.sender) {source address : Address} {now : Nat}
    (honce : ¬(engine.AnswersWithR1 mine source now ∧ engine.AnswersWithR1 other address now)) :
    let first := Call.handlePacket mine source now
    let second := Call.handlePacket other address now
    engine.EitherFirst mine source other address now ∧
      (ChangesSenderOnly mine engine (engine.after first) ∧
        ChangesSenderOnly other (engine.after first) ((engine.after first).after second)) ∧
      ChangesSenderOnly other engine (engine.after second) ∧
        ChangesSenderOnly mine (engine.after second) ((engine.after second).after first) := by
  intro first second
  have hchanges := changesSenderOnly_handlePacket
  refine ⟨?_, ⟨hchanges _ _ _ _, hchanges _ _ _ _⟩, hchanges _ _ _ _, hchanges _ _ _ _⟩
  cases hclosed : engine.closed with
  | true => exact eitherFirst_of_closed hclosed
  | false =>
    rcases drawsNothing_or_answersWithR1 hreachable hclosed hkey mine source now with
      hnothing | hmine
    · exact eitherFirst_of_drawsNothing hreachable hclosed hkey hroom hdistinct hnothing
    · have hnothing :=
        (drawsNothing_or_answersWithR1 hreachable hclosed hkey other address now).resolve_right
        fun hother => honce ⟨hmine, hother⟩
      exact (eitherFirst_of_drawsNothing hreachable hclosed hkey hroom
        (fun found packet hfound hparse => (hdistinct packet found hparse hfound).symm)
          hnothing).symm

/-- An I2 that is answered with an R1, and an R2 out of nowhere. -/
theorem exists_either_first : ∃ (engine : Engine) (mine other : List UInt8) (packet found : Packet),
    Reachable engine ∧ Packet.parse mine = .ok packet ∧ Packet.parse other = .ok found ∧
    packet.sender ≠ found.sender ∧ engine.EitherFirst mine (.ofHost 2) other (.ofHost 3) 0 := by
  obtain ⟨start, hnew⟩ := SampleHost.exists_isNew 1
  obtain ⟨peer, mine, packet, hparse, -, rfl, hstate, -⟩ := exists_keyless_hold hnew
  let engine := start.after (.connect packet.sender (.ofHost 2) 0)
  have hreachable : Reachable engine := hnew.reachable.after _
  have hcontinues := start.continues_after (.connect packet.sender (.ofHost 2) 0)
  have hkey : engine.identity.HasCurveKey := by
    rw [hcontinues.identity, hnew.identity]
    exact SampleHost.hasCurveKey 1
  have hroom : engine.connectionCount + 2 ≤ engine.config.maxConnections := by
    have hcount : engine.connectionCount ≤ start.connectionCount + 1 :=
      start.connectionCount_after_le _
    have hspace := hnew.room
    rw [hcontinues.config]
    omega
  obtain ⟨third, hthird⟩ : ∃ third, packet.sender ≠ third := by
    by_cases hone : packet.sender = (SampleHost.identity 1).hit
    · exact ⟨_, fun htwo => SampleHost.distinct (hone.symm.trans htwo)⟩
    · exact ⟨_, hone⟩
  let bare : Packet := .ofParameters .r2 third engine.hit []
  obtain ⟨other, hencode⟩ := bare.exists_encode_eq_ok .nil (by decide) (by decide)
  have hfound := Packet.parse_of_encode hencode fun id hmem => absurd hmem List.not_mem_nil
  have hnone : engine.table.find? third = none := by
    rcases (connect_cases hnew.isOpen packet.sender (.ofHost 2) 0).find?_cases third with
      hsame | ⟨heq, -⟩
    · exact hsame.trans (hnew.find?_eq_none third)
    · exact absurd heq.symm hthird
  have hforged : ¬engine.Verifies bare.canonical := by
    rintro ⟨keys, hheld, -⟩
    rw [keys?, show engine.table.find? bare.canonical.sender = none from hnone] at hheld
    cases hheld
  have hsilent : engine.queuedBy (.handlePacket other (.ofHost 3) 0) = [] := by
    rw [queuedBy]
    change (engine.handlePacket other (.ofHost 3) 0).engine.datagrams.drop _ = []
    rcases handlePacket_of_not_verifies hreachable hfound (.inr rfl) (.ofHost 3) 0 hforged
      (fun hi2 => by cases hi2) with hsame | hadvance
    · rw [hsame, List.drop_length]
    · rw [hadvance]
      exact List.drop_length
  refine ⟨engine, mine, other, packet, _, hreachable, hparse, hfound, hthird, ?_⟩
  refine (packets_of_different_peers_commute hreachable hkey hroom ?_ ?_).1
  · intro first second hfirst hsecond
    obtain rfl := Except.ok.inj (hparse.symm.trans hfirst)
    obtain rfl := Except.ok.inj (hfound.symm.trans hsecond)
    exact hthird
  · rintro ⟨-, out, hout, -⟩
    rw [hsilent] at hout
    exact absurd hout List.not_mem_nil

end Engine

end DietExchange
