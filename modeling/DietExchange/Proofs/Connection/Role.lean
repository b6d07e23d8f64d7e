import DietExchange.Proofs.Connection.Sent

namespace DietExchange.Connection

/-- Whether the keys of a connection are those of a responder. -/
def Responds (conn : Connection) : Prop := ∃ keys, conn.keys = some keys ∧ keys.isInitiator = false

/-- What a move does to the keys of a connection, to those it would have and to what they are good
    for. -/
inductive Turns (ctx : Context) (conn : Connection) : Stimulus → Connection → Prop where
  /-- There is nothing new about the keys. -/
  | stay {stimulus : Stimulus} {moved : Connection} (hkeys : moved.keys = conn.keys)
    (hpending : ∀ later, moved.pending = some later →
      ∃ pending, conn.pending = some pending ∧ pending.puzzle = later.puzzle ∧
        pending.keys = later.keys)
    (hestablished : moved.state = .established → conn.state = .established ∨ conn.Responds) :
    Turns ctx conn stimulus moved
  | takeUp {packet : Packet} {puzzle : Puzzle} {keys : KeySet} {search : PuzzleSearch}
    {moved : Connection} (hkind : packet.kind = .r1)
    (hvalid : ctx.validateR1 conn.host conn.peer packet = .ok (puzzle, keys))
    (hkeyless : conn.keys = none) (hkeys : moved.keys = none)
    (hpending : moved.pending = some ⟨search, puzzle, keys, packet.echoRequest?⟩) :
    Turns ctx conn (.packet packet) moved
  | initiate {pending : PendingAnswer} {answer : Block} {i2 : Packet} {datagram : List UInt8}
    {moved : Connection} (hpending : conn.pending = some pending)
    (hseal : (ctx.i2 conn pending.puzzle answer).recalculateMac pending.keys.initiator.integrity =
      .ok i2)
    (hencode : (i2.withEcho pending.echo).encode = .ok datagram)
    (hsent : .transmit datagram ∈ moved.outbox) (hstate : moved.state = .i2Sent)
    (hkeys : moved.keys = some pending.keys) (hidle : moved.pending = none) :
    Turns ctx conn .search moved
  | respond {packet : Packet} {keys : KeySet} {cipher : CipherSuite} {moved : Connection}
    (hanswers : conn.AnswersI2 keys) (hkind : packet.kind = .i2)
    (hvalid : ctx.validateI2 conn.host conn.peer packet = .ok (keys, cipher))
    (hstate : moved.state = .r2Sent) (hkeys : moved.keys = some keys)
    (hidle : moved.pending = none) : Turns ctx conn (.packet packet) moved
  | complete {packet : Packet} {moved : Connection} (hkind : packet.kind = .r2)
    (hvalid : ctx.validateR2 conn.keys packet = .ok ()) (hstate : conn.state = .i2Sent)
    (hestablished : moved.state = .established)
    (hkeys : moved.keys = conn.keys) (hidle : moved.pending = none) :
    Turns ctx conn (.packet packet) moved

variable {ctx : Context} {stimulus : Stimulus} {conn moved : Connection} {datagram : List UInt8}

theorem responds_iff {keys : KeySet} (hkeys : conn.keys = some keys) :
    conn.Responds ↔ keys.isInitiator = false := by
  refine ⟨?_, fun hrole => ⟨keys, hkeys, hrole⟩⟩
  rintro ⟨held, hheld, hrole⟩
  obtain rfl := Option.some.inj (hkeys.symm.trans hheld)
  exact hrole

theorem AnswersI2.state_ne {keys : KeySet} (hanswers : conn.AnswersI2 keys) : conn.state ≠
    .i1Sent := by
  rcases hanswers with hstate | ⟨hstate, -⟩ | ⟨hstate, -⟩ | hstate <;> simp [hstate]

theorem Move.turns (hform : conn.WellFormed) (hmove : conn.Move ctx stimulus moved) :
    conn.Turns ctx stimulus moved := by
  have hsame : ∀ later, conn.pending = some later →
      ∃ pending, conn.pending = some pending ∧ pending.puzzle = later.puzzle ∧
        pending.keys = later.keys := fun later hlater => ⟨later, hlater, rfl, rfl⟩
  cases hmove with
  | ignore | wait | rest => exact .stay rfl hsame .inl
  | resend | resendR2 | answerI1 => exact .stay rfl hsame .inl
  | initiate hstate | answerI2AsI1 hstate =>
    refine .stay (by simp [transmit, holdTo]) (fun later hlater => hsame later ?_)
      (by simp [transmit, holdTo])
    simp only [transmit, holdTo, pending_moveTo, Option.ite_none_left_eq_some] at hlater
    exact hlater.2
  | giveUp =>
    refine .stay (by simp) (fun later hlater => hsame later ?_) (by simp)
    simp only [pending_moveTo, Option.ite_none_left_eq_some] at hlater
    exact hlater.2
  | establish hhold _ hkeys =>
    have hstate : conn.state = .r2Sent := hform.hold.mp (Option.isSome_of_eq_some hhold)
    obtain ⟨keys, hkeys⟩ := Option.isSome_iff_exists.mp hkeys
    refine .stay (by simp [emit]) (fun later hlater => hsame later ?_)
      fun _ => .inr ⟨keys, hkeys, hform.r2Sent hstate keys hkeys⟩
    simp only [emit, pending_moveTo, Option.ite_none_left_eq_some] at hlater
    exact hlater.2
  | @search _ pending _ hpending =>
    refine .stay rfl (fun later hlater => ?_) .inl
    obtain rfl := Option.some.inj hlater
    exact ⟨pending, hpending, rfl, rfl⟩
  | lose => exact .stay rfl (fun later hlater => by cases hlater) .inl
  | takeUpR1 hstate hkind _ hvalid =>
    have hkeyless := hform.keyless (.inr hstate)
    exact .takeUp hkind hvalid hkeyless hkeyless rfl
  | solve hpending _ htag hencode =>
    exact .initiate hpending htag hencode (by simp [conclude, transmit]) (by simp [conclude])
      (by simp [conclude]) (by simp [conclude, transmit, pending_moveTo])
  | answerI2 hanswers hkind hvalid =>
    refine .respond hanswers hkind hvalid (by simp [respond, holdTo]) (by simp [respond, holdTo]) ?_
    simp [Connection.respond, holdTo, transmit, pending_moveTo,
      hform.pending_eq_none hanswers.state_ne]
  | acceptR2 hstate hkind hvalid =>
    have hidle : conn.pending = none := hform.pending_eq_none (by simp [hstate])
    exact .complete hkind hvalid hstate (by simp [emit]) (by simp [emit])
      (by simp [emit, pending_moveTo, hidle])

/-- While a puzzle is being solved there are no keys yet. -/
theorem WellFormed.keys_eq_none {pending : PendingAnswer} (hform : conn.WellFormed)
    (hpending : conn.pending = some pending) : conn.keys = none :=
  hform.keyless (.inr (hform.pending pending hpending).1)

/-- Keys that are held are replaced at most. -/
theorem Move.isSome_keys (hform : conn.WellFormed) (hmove : conn.Move ctx stimulus moved)
    (hsome : conn.keys.isSome) : moved.keys.isSome := by
  cases hmove.turns hform with
  | stay hkeys | complete _ _ _ _ hkeys => rwa [hkeys]
  | initiate _ _ _ _ _ hkeys | respond _ _ _ _ hkeys => rw [hkeys]; rfl
  | takeUp _ _ hkeyless =>
    rw [hkeyless] at hsome
    cases hsome

/-- A responder is held or done. -/
theorem WellFormed.of_responds (hform : conn.WellFormed) (hresponds : conn.Responds) :
    conn.state = .r2Sent ∨ conn.state = .established := by
  obtain ⟨keys, hkeys, hrole⟩ := hresponds
  cases hstate : conn.state with
  | unassociated => cases (hform.keyless (.inl hstate)).symm.trans hkeys
  | i1Sent => cases (hform.keyless (.inr hstate)).symm.trans hkeys
  | i2Sent =>
    obtain ⟨own, hown, hinitiator⟩ := hform.i2Sent hstate
    obtain rfl := Option.some.inj (hkeys.symm.trans hown)
    cases hrole.symm.trans hinitiator
  | r2Sent => exact .inl rfl
  | established => exact .inr rfl
  | closing => exact absurd hstate hform.live.1
  | closed => exact absurd hstate hform.live.2

theorem isInitiator_of_validateI2 {packet : Packet} {keys : KeySet} {cipher : CipherSuite}
    {host peer : Hit} (hvalid : ctx.validateI2 host peer packet = .ok (keys, cipher)) :
    keys.isInitiator = false := by
  obtain ⟨solution, id, haccepts⟩ := Context.validateI2_eq_ok_iff.mp hvalid
  exact Context.isInitiator_of_sessionKeys haccepts.derived

/-- A responder stays one. -/
theorem Move.responds (hform : conn.WellFormed) (hmove : conn.Move ctx stimulus moved)
    (hresponds : conn.Responds) : moved.Responds := by
  obtain ⟨keys, hkeys, hrole⟩ := hresponds
  cases hmove.turns hform with
  | stay hsame | complete _ _ _ _ hsame => exact ⟨keys, hsame.trans hkeys, hrole⟩
  | respond _ _ hvalid _ hnew => exact ⟨_, hnew, isInitiator_of_validateI2 hvalid⟩
  | takeUp _ _ hkeyless => cases hkeyless.symm.trans hkeys
  | initiate hpending => cases (hform.keys_eq_none hpending).symm.trans hkeys

/-- Where keys are held already, there is no other I2 than the one that was sent. -/
theorem Move.of_i2Sent (hform : conn.WellFormed) (hmove : conn.Move ctx stimulus moved)
    (hsome : conn.keys.isSome) (hstate : moved.state = .i2Sent) :
    conn.state = .i2Sent ∧ moved.lastSent = conn.lastSent := by
  obtain ⟨keys, hkeys⟩ := Option.isSome_iff_exists.mp hsome
  have hkeyed : conn.state ≠ .unassociated ∧ conn.state ≠ .i1Sent := by
    constructor
    · intro hunassociated
      cases (hform.keyless (.inl hunassociated)).symm.trans hkeys
    · intro hi1Sent
      cases (hform.keyless (.inr hi1Sent)).symm.trans hkeys
  cases hmove with
  | ignore | wait | rest | resend => exact ⟨hstate, rfl⟩
  | search hpending | solve hpending | lose hpending =>
    cases (hform.keys_eq_none hpending).symm.trans hkeys
  | initiate hold | answerI1 hold => exact absurd hold hkeyed.1
  | answerI2AsI1 hold | takeUpR1 hold => exact absurd hold hkeyed.2
  | answerI2 | acceptR2 | establish | giveUp =>
    simp [respond, holdTo, emit] at hstate
  | resendR2 hold => cases hold.symm.trans hstate

theorem keys_of_sameR2? {keys : KeySet} (hsame : Turn.sameR2? conn keys = some datagram) :
    ∃ held, conn.keys = some held := by
  unfold Turn.sameR2? at hsame
  split at hsame
  · rename_i held sent hkeys hsent
    exact ⟨held, hkeys⟩
  · cases hsame

/-- An I2 is transmitted in I2_SENT only, and an R2 by responders only. -/
theorem Move.of_transmit (hform : conn.WellFormed) (houtbox : conn.outbox = [])
    (hmove : conn.Move ctx stimulus moved) (hout : .transmit datagram ∈ moved.outbox) :
    ∃ kind, moved.lastSent = some ⟨kind, datagram⟩ ∧ (kind = .i2 → moved.state = .i2Sent) ∧
      (kind = .r2 → moved.Responds) := by
  have hnone : .transmit datagram ∉ conn.outbox := by
    rw [houtbox]
    exact List.not_mem_nil
  obtain ⟨kind, hsent⟩ := (hmove.lastSent_of_transmit hout).resolve_left hnone
  refine ⟨kind, hsent, ?_⟩
  have hkindOf : ∀ sent, moved.lastSent = some sent → kind = sent.kind := fun sent heq =>
    congrArg SentPacket.kind (Option.some.inj (hsent.symm.trans heq))
  cases hmove with
  | ignore | takeUpR1 | wait | rest | search | lose => exact absurd hout hnone
  | acceptR2 | establish | giveUp => exact absurd (by simpa [emit] using hout) hnone
  | @initiate _ i1 =>
    obtain rfl : kind = .i1 := hkindOf ⟨.i1, i1⟩ (by simp [transmit])
    exact ⟨by simp, by simp⟩
  | @answerI1 _ _ _ _ r1 =>
    obtain rfl : kind = .r1 := hkindOf ⟨.r1, r1⟩ rfl
    exact ⟨by simp, by simp⟩
  | @answerI2AsI1 _ _ _ _ r1 =>
    obtain rfl : kind = .r1 := hkindOf ⟨.r1, r1⟩ (by simp [transmit, holdTo])
    exact ⟨by simp, by simp⟩
  | @solve _ _ _ _ _ i2 =>
    obtain rfl : kind = .i2 := hkindOf ⟨.i2, i2⟩ (by simp [conclude, transmit])
    exact ⟨fun _ => by simp [conclude], by simp⟩
  | @answerI2 _ _ _ _ _ r2 _ _ hvalid =>
    obtain rfl : kind = .r2 := hkindOf ⟨.r2, r2⟩ (by simp [respond, holdTo, transmit])
    refine ⟨by simp, fun _ => ⟨_, ?_, isInitiator_of_validateI2 hvalid⟩⟩
    simp [respond, holdTo]
  | resendR2 hstate _ _ hsame =>
    obtain rfl : kind = .r2 := hkindOf _ (lastSent_of_sameR2? hsame)
    obtain ⟨keys, hkeys⟩ := keys_of_sameR2? hsame
    exact ⟨by simp, fun _ => ⟨keys, hkeys, hform.r2Sent hstate keys hkeys⟩⟩
  | resend hwaiting =>
    have hstate : conn.state = .i1Sent ∨ conn.state = .i2Sent := by
      cases hstate : conn.state <;> simp_all [State.needsRetransmission]
    cases hstate with
    | inl hstate =>
      obtain ⟨sent, hlast, hi1⟩ := hform.lastI1 hstate
      obtain rfl : kind = .i1 := (hkindOf sent hlast).trans hi1
      exact ⟨by simp, by simp⟩
    | inr hstate =>
      obtain ⟨sent, hlast, hi2⟩ := hform.lastI2 hstate
      obtain rfl : kind = .i2 := (hkindOf sent hlast).trans hi2
      exact ⟨fun _ => hstate, by simp⟩

end DietExchange.Connection
