import DietExchange.Proofs.Connection.Agreement
import DietExchange.Proofs.Connection.Sent

namespace DietExchange

/-- Whether a search is for this puzzle between these hosts. -/
structure PuzzleSearch.IsFor (search : PuzzleSearch) (puzzle : Puzzle) (initiator responder : Hit) :
    Prop where
  challenge : search.challenge = puzzle.challenge
  initiator : search.initiator = initiator
  responder : search.responder = responder
  k : search.k = puzzle.k

namespace PuzzleSearch

/-- A search stays for the same puzzle, and what it finds solves it. -/
theorem run_spec (key : CmacKey) (budget : Nat) (search : PuzzleSearch) (rng : RandomStream) :
    (run key budget search rng).search = { search with
        attempts := (run key budget search rng).search.attempts } ∧
      ∀ answer, (run key budget search rng).answer = some answer →
        hasLeadingZeros search.k.toNat
          (answerMac key search.initiator search.responder answer).toList = true := by
  induction budget generalizing search rng with
  | zero => exact ⟨rfl, fun _ hnone => by cases hnone⟩
  | succ budget ih =>
    unfold run
    dsimp only
    split
    · rename_i hzeros
      refine ⟨rfl, fun answer hanswer => ?_⟩
      obtain rfl := Option.some.inj hanswer
      exact hzeros
    · obtain ⟨hsearch, hsolves⟩ := ih { search with attempts := search.attempts + 1 } rng.block.2
      exact ⟨hsearch, hsolves⟩

variable {search : PuzzleSearch} {puzzle : Puzzle} {initiator responder : Hit}

theorem IsFor.step (hfor : search.IsFor puzzle initiator responder) (budget : Nat)
    (rng : RandomStream) : (search.step budget rng).search.IsFor puzzle initiator responder := by
  obtain ⟨hsearch, -⟩ := run_spec (CmacKey.ofBlock search.challenge) budget search rng
  rw [PuzzleSearch.step, hsearch]
  exact ⟨hfor.challenge, hfor.initiator, hfor.responder, hfor.k⟩

theorem IsFor.solves (hfor : search.IsFor puzzle initiator responder) {budget : Nat}
    {rng : RandomStream} {answer : Block}
    (hanswer : (search.step budget rng).answer = some answer) :
    DietExchange.solves puzzle.challenge answer initiator responder puzzle.k = true := by
  obtain ⟨-, hsolves⟩ := run_spec (CmacKey.ofBlock search.challenge) budget search rng
  have hzeros := hsolves answer hanswer
  rw [hfor.challenge, hfor.initiator, hfor.responder, hfor.k] at hzeros
  exact hzeros

/-- Every candidate solves a puzzle of complexity 0. -/
theorem exists_answer_of_k_eq_zero (hk : search.k = 0) {budget : Nat} (hbudget : 0 < budget)
    (rng : RandomStream) : ∃ answer, (search.step budget rng).answer = some answer := by
  obtain ⟨budget, rfl⟩ := Nat.exists_eq_succ_of_ne_zero (Nat.ne_of_gt hbudget)
  refine ⟨rng.block.1, ?_⟩
  unfold step run
  dsimp only
  rw [if_pos (by rw [hk]; rfl)]

end PuzzleSearch

namespace Connection

/-- The I1 was sent, and no R1 was taken up. -/
structure AwaitsR1 (conn : Connection) : Prop where
  state : conn.state = .i1Sent
  pending : conn.pending = none

/-- The puzzle of an R1 is being solved, for an I2 with this sent back. -/
structure Works (conn : Connection) (puzzle : Puzzle) (keys : KeySet) (echo : Option (List UInt8)) :
    Prop where
  state : conn.state = .i1Sent
  pending : ∃ search : PuzzleSearch, search.IsFor puzzle conn.host conn.peer ∧
    conn.pending = some ⟨search, puzzle, keys, echo⟩

/-- The puzzle of an R1 that asks for nothing back is being solved. -/
structure Solves (conn : Connection) (puzzle : Puzzle) (keys : KeySet) : Prop where
  state : conn.state = .i1Sent
  pending : ∃ search : PuzzleSearch, search.IsFor puzzle conn.host conn.peer ∧
    conn.pending = some ⟨search, puzzle, keys, none⟩

/-- The I2 was sent. -/
structure AwaitsR2 (conn : Connection) (keys : KeySet) (datagram : List UInt8) : Prop where
  state : conn.state = .i2Sent
  keys : conn.keys = some keys
  lastSent : conn.lastSent = some ⟨.i2, datagram⟩

theorem AwaitsR2.isSolving_eq_false {conn : Connection} {keys : KeySet} {datagram : List UInt8}
    (hawaits : conn.AwaitsR2 keys datagram) (hform : conn.WellFormed) : conn.isSolving = false := by
  rw [isSolving, hform.pending_eq_none (by simp [hawaits.state])]
  rfl

/-- The R2 was sent, and the hold lasts until `deadline`. -/
structure Holds (conn : Connection) (keys : KeySet) (deadline : Nat) : Prop where
  state : conn.state = .r2Sent
  keys : conn.keys = some keys
  holdUntil : conn.holdUntil = some deadline

/-- The handshake is complete. -/
structure IsDone (conn : Connection) (keys : KeySet) : Prop where
  state : conn.state = .established
  keys : conn.keys = some keys

/-- Whether a datagram is an I2 that answers this puzzle, sealed under these keys. -/
def IsAnswer (party : Party) (host peer : Hit) (puzzle : Puzzle) (keys : KeySet)
    (datagram : List UInt8) : Prop :=
  ∃ (ctx : Context) (conn : Connection) (answer : Block) (sealed : Packet),
    ctx.party = party ∧ conn.host = host ∧ conn.peer = peer ∧
    (ctx.i2 conn puzzle answer).recalculateMac keys.initiator.integrity = .ok sealed ∧
    sealed.encode = .ok datagram ∧
    DietExchange.solves puzzle.challenge answer host peer puzzle.k = true

section Packet

variable {ctx : Context} {conn moved : Connection} {packet : Packet} (houtbox : conn.outbox = [])
  (hmove : conn.Move ctx (.packet packet) moved)
include houtbox hmove

/-- An I1 is answered where nothing is known of its sender, if it is not refused. -/
theorem Move.answers_i1 (hstate : conn.state = .unassociated) (hkind : packet.kind = .i1) :
    ∃ challenge cookie r1, ctx.issuer.issue conn.peer conn.host [] = .ok challenge ∧
      (ctx.r1 conn challenge cookie).encode = .ok r1 ∧ moved.state = .unassociated ∧
      moved.outgoing = [⟨conn.address, r1⟩] ∧ moved.completions = [] := by
  cases hmove with
  | ignore hdeaf => simp [heeds, hstate, hkind] at hdeaf
  | answerI2AsI1 hother | takeUpR1 hother | resendR2 hother | acceptR2 hother =>
    cases hstate.symm.trans hother
  | answerI2 _ hother => cases hkind.symm.trans hother
  | answerI1 _ _ _ _ hissue hencode =>
    refine ⟨_, _, _, hissue, hencode, hstate, ?_, ?_⟩
    · simp [outgoing, transmit, houtbox, Signal.outgoing?]
    · simp [completions, transmit, houtbox, Signal.completion?]

/-- An R1 that is valid is taken up where one is waited for, with nothing to say. -/
theorem Move.takes_up_r1 (hawaits : conn.AwaitsR1) (hkind : packet.kind = .r1) {puzzle : Puzzle}
    {keys : KeySet} (hvalid : ctx.validateR1 conn.host conn.peer packet = .ok (puzzle, keys)) :
    moved.Works puzzle keys packet.echoRequest? ∧ moved.outbox = [] := by
  cases hmove with
  | ignore hdeaf => simp [heeds, hawaits.state, hkind, isSolving, hawaits.pending] at hdeaf
  | answerI1 _ hother | answerI2AsI1 _ hother | answerI2 _ hother | resendR2 _ hother
  | acceptR2 _ hother => cases hkind.symm.trans hother
  | takeUpR1 _ _ _ hfound hstart =>
    obtain ⟨rfl, rfl⟩ := Prod.mk.inj (Except.ok.inj (hvalid.symm.trans hfound))
    obtain ⟨-, hsearch⟩ := ite_error_eq_ok_iff.mp hstart
    obtain rfl := Except.ok.inj hsearch
    exact ⟨⟨hawaits.state, ⟨puzzle.challenge, conn.host, conn.peer, puzzle.k, 0⟩,
      ⟨rfl, rfl, rfl, rfl⟩, rfl⟩, houtbox⟩

theorem Move.takes_r1 (hawaits : conn.AwaitsR1) (hkind : packet.kind = .r1) {puzzle : Puzzle}
    {keys : KeySet} (hvalid : ctx.validateR1 conn.host conn.peer packet = .ok (puzzle, keys))
    (hecho : packet.echoRequest? = none) : moved.Solves puzzle keys ∧ moved.outbox = [] := by
  obtain ⟨hworks, hsilent⟩ := hmove.takes_up_r1 houtbox hawaits hkind hvalid
  rw [hecho] at hworks
  exact ⟨⟨hworks.state, hworks.pending⟩, hsilent⟩

/-- An R2 that is not refused completes the handshake where one is waited for. -/
theorem Move.accepts_r2 {keys : KeySet} {i2 : List UInt8} (hawaits : conn.AwaitsR2 keys i2)
    (hkind : packet.kind = .r2) : moved.IsDone keys ∧ moved.completions = [conn.peer] := by
  cases hmove with
  | ignore hdeaf => simp [heeds, hawaits.state, hkind] at hdeaf
  | answerI1 _ hother | answerI2AsI1 _ hother | takeUpR1 _ hother | answerI2 _ hother
  | resendR2 _ hother => cases hkind.symm.trans hother
  | acceptR2 =>
    refine ⟨⟨by simp [emit], by simpa [emit] using hawaits.keys⟩, ?_⟩
    simp [completions, emit, moveTo, houtbox, hawaits.state, sweepSignals,
      State.needsRetransmission, Signal.completion?, List.filterMap_cons]

/-- An I2 that is valid is answered with an R2 where it is not one of old, and the hold begins. -/
theorem Move.answers_i2 (hkind : packet.kind = .i2) {keys : KeySet} {cipher : CipherSuite}
    (hanswers : conn.AnswersI2 keys)
    (hvalid : ctx.validateI2 conn.host conn.peer packet = .ok (keys, cipher)) :
    ∃ (sealed : Packet) (address : Address) (r2 : List UInt8), moved.peer = conn.peer ∧
      moved.Holds keys ctx.holdEnd ∧
      (ctx.r2 conn).recalculateMac keys.responder.integrity = .ok sealed ∧ sealed.encode = .ok r2 ∧
      moved.outgoing = [⟨address, r2⟩] ∧ moved.completions = [] := by
  have hother : ∀ kind, packet.kind = kind → kind = .i2 := fun _ heq => heq.symm.trans hkind
  have hpeer := hmove.peer_eq
  cases hmove with
  | ignore hdeaf =>
    have hheeds : conn.heeds .i2 = true := by
      rcases hanswers with hstate | ⟨hstate, hlarger⟩ | ⟨hstate, -⟩ | hstate <;> simp [heeds, *]
    rw [hkind, hheeds] at hdeaf
    cases hdeaf
  | answerI1 _ hfound | takeUpR1 _ hfound | acceptR2 _ hfound => cases hother _ hfound
  | answerI2AsI1 hfound =>
    rcases hanswers with hstate | ⟨hstate, -⟩ | ⟨hstate, -⟩ | hstate <;>
      cases hfound.symm.trans hstate
  | resendR2 hfound _ hagain hsame =>
    obtain ⟨rfl, -⟩ := Prod.mk.inj (Except.ok.inj (hagain.symm.trans hvalid))
    rcases hanswers with hstate | ⟨hstate, -⟩ | ⟨-, hnone⟩ | hstate
    · cases hfound.symm.trans hstate
    · cases hfound.symm.trans hstate
    · cases hsame.symm.trans hnone
    · cases hfound.symm.trans hstate
  | @answerI2 _ _ sealed found chosen r2 _ _ hfound htag hencode =>
    obtain ⟨rfl, rfl⟩ := Prod.mk.inj (Except.ok.inj (hfound.symm.trans hvalid))
    refine ⟨sealed, conn.address, r2, hpeer,
      ⟨by simp [respond, holdTo], by simp [respond, holdTo], rfl⟩, htag, hencode, ?_, ?_⟩
    · rcases hanswers with hstate | ⟨hstate, -⟩ | ⟨hstate, -⟩ | hstate <;>
        simp [outgoing, respond, holdTo, moveTo, transmit, houtbox, hstate, sweepSignals,
          State.needsRetransmission, Signal.outgoing?]
    · rcases hanswers with hstate | ⟨hstate, -⟩ | ⟨hstate, -⟩ | hstate <;>
        simp [completions, respond, holdTo, moveTo, transmit, houtbox, hstate, sweepSignals,
          State.needsRetransmission, Signal.completion?]

end Packet

section Elapses

variable {ctx : Context} {conn moved : Connection}

/-- Where nothing is being solved nor held, the last packet is sent again at most. -/
theorem Elapses.of_idle (hform : conn.WellFormed) (hstate : conn.state ≠ .r2Sent)
    (hidle : conn.pending = none) (helapses : conn.Elapses ctx moved) :
    moved = conn ∨ ∃ sent, conn.lastSent = some sent ∧ conn.state.needsRetransmission = true ∧
      moved = conn.emit (.transmit sent.datagram) := by
  rcases helapses.cases_move hform with ⟨hr2Sent, -⟩ | ⟨-, hmove | hmove⟩
  · exact absurd hr2Sent hstate
  · cases hmove with
    | @resend _ sent hwaiting _ hsent => exact .inr ⟨sent, hsent, hwaiting, rfl⟩
  · exact .inl (hmove.eq_of_search hidle)

/-- While a puzzle is being solved, that is all that happens. -/
theorem Elapses.of_solving (hform : conn.WellFormed) {pending : PendingAnswer}
    (hpending : conn.pending = some pending) (helapses : conn.Elapses ctx moved) :
    conn.Move ctx .search moved := by
  have hi1Sent := (hform.pending pending hpending).1
  rcases helapses.cases_move hform with ⟨hr2Sent, -⟩ | ⟨-, hmove | hmove⟩
  · cases hr2Sent.symm.trans hi1Sent
  · cases hmove with
    | resend _ hidle => cases hidle.symm.trans hpending
  · exact hmove

theorem AwaitsR1.elapses (hawaits : conn.AwaitsR1) (hform : conn.WellFormed)
    (houtbox : conn.outbox = []) (helapses : conn.Elapses ctx moved) :
    moved.AwaitsR1 ∧ moved.completions = [] ∧ moved.lastSent = conn.lastSent := by
  rcases helapses.of_idle hform (by simp [hawaits.state]) hawaits.pending with
    rfl | ⟨sent, hsent, -, rfl⟩
  · exact ⟨hawaits, by simp [completions, houtbox], rfl⟩
  · exact ⟨⟨hawaits.state, hawaits.pending⟩,
      by simp [completions, emit, houtbox, Signal.completion?], rfl⟩

theorem AwaitsR2.elapses {keys : KeySet} {datagram : List UInt8}
    (hawaits : conn.AwaitsR2 keys datagram) (hform : conn.WellFormed) (houtbox : conn.outbox = [])
    (helapses : conn.Elapses ctx moved) :
    moved.AwaitsR2 keys datagram ∧ moved.completions = [] := by
  have hidle : conn.pending = none := hform.pending_eq_none (by simp [hawaits.state])
  rcases helapses.of_idle hform (by simp [hawaits.state]) hidle with rfl | ⟨sent, hsent, -, rfl⟩
  · exact ⟨hawaits, by simp [completions, houtbox]⟩
  · exact ⟨⟨hawaits.state, hawaits.keys, hawaits.lastSent⟩,
      by simp [completions, emit, houtbox, Signal.completion?]⟩

theorem IsDone.elapses {keys : KeySet} (hdone : conn.IsDone keys) (hform : conn.WellFormed)
    (houtbox : conn.outbox = []) (helapses : conn.Elapses ctx moved) :
    moved.IsDone keys ∧ moved.completions = [] := by
  have hidle : conn.pending = none := hform.pending_eq_none (by simp [hdone.state])
  rcases helapses.of_idle hform (by simp [hdone.state]) hidle with rfl | ⟨sent, -, hwaiting, -⟩
  · exact ⟨hdone, by simp [completions, houtbox]⟩
  · rw [hdone.state] at hwaiting
    cases hwaiting

/-- A puzzle that was taken up stays so until the I2 is sent that answers it. -/
theorem Solves.elapses {puzzle : Puzzle} {keys : KeySet} (hsolves : conn.Solves puzzle keys)
    (hform : conn.WellFormed) (houtbox : conn.outbox = []) (hcurve : ctx.identity.HasCurveKey)
    (hkey : Config.IsKeyLength keys.initiator.integrity.length)
    (helapses : conn.Elapses ctx moved) :
    moved.completions = [] ∧ ((moved.Solves puzzle keys ∧ moved.outbox = []) ∨ ∃ datagram,
      moved.AwaitsR2 keys datagram ∧ .transmit datagram ∈ moved.outbox ∧
      IsAnswer ctx.party conn.host conn.peer puzzle keys datagram) := by
  obtain ⟨search, hfor, hpending⟩ := hsolves.pending
  have hmove := helapses.of_solving hform hpending
  cases hmove with
  | rest hidle =>
    rw [hpending] at hidle
    cases hidle
  | @search _ pending rng hfound hnone =>
    obtain rfl := Option.some.inj (hfound.symm.trans hpending)
    exact ⟨by simp [completions, houtbox],
      .inl ⟨⟨hsolves.state, _, hfor.step _ _, rfl⟩, houtbox⟩⟩
  | @solve _ pending rng answer i2 datagram hfound hanswer htag hencode =>
    obtain rfl := Option.some.inj (hfound.symm.trans hpending)
    have hsent : (conn.conclude keys datagram).completions = [] := by
      simp [completions, conclude, moveTo, transmit, houtbox, hsolves.state, sweepSignals,
        State.needsRetransmission, Signal.completion?]
    refine ⟨hsent,
      .inr ⟨datagram, ⟨state_moveTo _ _, by simp [conclude], by simp [conclude, transmit]⟩,
      by simp [conclude, transmit], ctx, conn, answer, i2, rfl, rfl, rfl, htag, hencode,
      hfor.solves hanswer⟩⟩
  | @lose _ pending rng answer hfound hanswer hfail =>
    obtain rfl := Option.some.inj (hfound.symm.trans hpending)
    obtain ⟨sealed, datagram, hseal, hencode⟩ :=
      Context.exists_seal_i2 hcurve conn puzzle answer hkey
    exact absurd hencode (hfail sealed datagram hseal)

/-- A puzzle of complexity 0 is not worked on for longer than until the time is seen next. -/
theorem Solves.isSolving_of_k_eq_zero {puzzle : Puzzle} {keys : KeySet}
    (hsolves : conn.Solves puzzle keys) (hform : conn.WellFormed) (hzero : puzzle.k = 0)
    (hbatch : 0 < ctx.config.solveBatch) (helapses : conn.Elapses ctx moved) :
    moved.isSolving = false := by
  obtain ⟨search, hfor, hpending⟩ := hsolves.pending
  have hmove := helapses.of_solving hform hpending
  cases hmove with
  | rest hidle => rw [isSolving, hidle]; rfl
  | @search _ pending rng hfound hnone =>
    obtain rfl := Option.some.inj (hfound.symm.trans hpending)
    obtain ⟨answer, hanswer⟩ :=
      PuzzleSearch.exists_answer_of_k_eq_zero (hfor.k.trans hzero) hbatch rng
    cases hanswer.symm.trans hnone
  | solve => simp [isSolving, conclude, transmit, pending_moveTo]
  | lose => rfl

/-- In R2_SENT only the hold is looked at. -/
theorem Elapses.of_r2Sent (hform : conn.WellFormed) (hstate : conn.state = .r2Sent)
    (helapses : conn.Elapses ctx moved) : conn.Move ctx .hold moved := by
  rcases helapses.cases_move hform with ⟨-, hmove⟩ | ⟨hother, -⟩
  · exact hmove
  · exact absurd hstate hother

/-- The hold does not end before its deadline. -/
theorem Holds.elapses {keys : KeySet} {deadline : Nat} (hholds : conn.Holds keys deadline)
    (hform : conn.WellFormed) (houtbox : conn.outbox = []) (hearly : ctx.now < deadline)
    (helapses : conn.Elapses ctx moved) : moved.Holds keys deadline ∧ moved.completions = [] := by
  have hmove := helapses.of_r2Sent hform hholds.state
  cases hmove with
  | wait => exact ⟨hholds, by simp [completions, houtbox]⟩
  | establish hhold hdue | giveUp hhold hdue =>
    obtain rfl := Option.some.inj (hhold.symm.trans hholds.holdUntil)
    exact absurd hearly (Nat.not_lt.mpr hdue)

/-- The hold ends in ESTABLISHED as soon as the time is seen at its deadline or after it. -/
theorem Holds.elapses_due {keys : KeySet} {deadline : Nat} (hholds : conn.Holds keys deadline)
    (hform : conn.WellFormed) (houtbox : conn.outbox = []) (hdue : deadline ≤ ctx.now)
    (helapses : conn.Elapses ctx moved) : moved.IsDone keys ∧ moved.completions = [conn.peer] := by
  have hmove := helapses.of_r2Sent hform hholds.state
  cases hmove with
  | wait hearly => exact absurd (hearly deadline hholds.holdUntil) (Nat.not_lt.mpr hdue)
  | establish =>
    refine ⟨⟨by simp [emit], by simpa [emit] using hholds.keys⟩, ?_⟩
    simp [completions, emit, moveTo, houtbox, hholds.state, sweepSignals, State.needsRetransmission,
      Signal.completion?]
  | giveUp _ _ hkeys =>
    rw [hholds.keys] at hkeys
    cases hkeys

/-- A hold without keys ends with nothing as soon as the time is seen at its deadline or after
    it. -/
theorem Elapses.state_of_keyless (hform : conn.WellFormed) (hstate : conn.state = .r2Sent)
    (hkeyless : conn.keys = none) {deadline : Nat} (hhold : conn.holdUntil = some deadline)
    (hdue : deadline ≤ ctx.now) (helapses : conn.Elapses ctx moved) : moved.state =
      .unassociated := by
  have hmove := helapses.of_r2Sent hform hstate
  cases hmove with
  | wait hearly => exact absurd (hearly deadline hhold) (Nat.not_lt.mpr hdue)
  | establish _ _ hkeys => simp [hkeyless] at hkeys
  | giveUp => exact state_moveTo _ _

end Elapses

end Connection

end DietExchange
