import DietExchange.Proofs.Connection.Move
import DietExchange.Proofs.Connection.Validation

namespace DietExchange.Connection

/-- What the fields of a connection have to do with its state. Keys are those of an initiator in
    I2_SENT and those of a responder in R2_SENT, where there may still be none. -/
structure WellFormed (conn : Connection) : Prop where
  live : conn.state ≠ .closing ∧ conn.state ≠ .closed
  pending : ∀ pending, conn.pending = some pending →
    conn.state = .i1Sent ∧ pending.keys.isInitiator = true
  hold : conn.holdUntil.isSome ↔ conn.state = .r2Sent
  keyless : conn.state = .unassociated ∨ conn.state = .i1Sent → conn.keys = none
  i2Sent : conn.state = .i2Sent → ∃ keys, conn.keys = some keys ∧ keys.isInitiator = true
  r2Sent : conn.state = .r2Sent → ∀ keys, conn.keys = some keys → keys.isInitiator = false
  established : conn.state = .established → conn.keys.isSome
  cipher : conn.cipher.isSome ↔ ∃ keys, conn.keys = some keys ∧ keys.isInitiator = false
  lastI1 : conn.state = .i1Sent → ∃ sent, conn.lastSent = some sent ∧ sent.kind = .i1
  lastI2 : conn.state = .i2Sent → ∃ sent, conn.lastSent = some sent ∧ sent.kind = .i2
  lastReply : conn.state = .r2Sent → ∃ sent, conn.lastSent = some sent ∧
    sent.kind = if conn.keys.isSome then .r2 else .r1

section Fields

variable (conn : Connection) (next : State)

@[simp]
theorem state_moveTo : (conn.moveTo next).state = next := by
  unfold moveTo
  split
  · assumption
  · rfl

@[simp]
theorem host_moveTo : (conn.moveTo next).host = conn.host := by
  unfold moveTo
  split <;> rfl

@[simp]
theorem peer_moveTo : (conn.moveTo next).peer = conn.peer := by
  unfold moveTo
  split <;> rfl

@[simp]
theorem address_moveTo : (conn.moveTo next).address = conn.address := by
  unfold moveTo
  split <;> rfl

@[simp]
theorem keys_moveTo : (conn.moveTo next).keys = conn.keys := by
  unfold moveTo
  split <;> rfl

@[simp]
theorem cipher_moveTo : (conn.moveTo next).cipher = conn.cipher := by
  unfold moveTo
  split <;> rfl

@[simp]
theorem lastSent_moveTo : (conn.moveTo next).lastSent = conn.lastSent := by
  unfold moveTo
  split <;> rfl

theorem pending_moveTo : (conn.moveTo next).pending =
    if conn.state ≠ next ∧ conn.state = .i1Sent then none else conn.pending := by
  unfold moveTo
  split <;> simp_all

theorem holdUntil_moveTo : (conn.moveTo next).holdUntil =
    if conn.state = next ∨ next = .r2Sent then conn.holdUntil else none := by
  unfold moveTo
  split <;> simp_all

end Fields

theorem WellFormed.pending_eq_none {conn : Connection} (hform : conn.WellFormed)
    (hstate : conn.state ≠ .i1Sent) : conn.pending = none := by
  rw [Option.eq_none_iff_forall_ne_some]
  intro pending hpending
  exact hstate (hform.pending pending hpending).1

theorem WellFormed.holdUntil_eq_none {conn : Connection} (hform : conn.WellFormed)
    (hstate : conn.state ≠ .r2Sent) : conn.holdUntil = none := by
  rw [← Option.not_isSome_iff_eq_none, hform.hold]
  exact hstate

/-- A search does not outlive I1_SENT. -/
theorem WellFormed.pending_moveTo_eq_none {conn : Connection} (hform : conn.WellFormed)
    (next : State) (hnext : next ≠ .i1Sent) : (conn.moveTo next).pending = none := by
  rw [pending_moveTo]
  split
  · rfl
  · rename_i hstay
    cases hpending : conn.pending with
    | none => rfl
    | some pending =>
      have hstate := (hform.pending pending hpending).1
      exact absurd ⟨fun heq => hnext (heq.symm.trans hstate), hstate⟩ hstay

theorem wellFormed_fresh (host peer : Hit) (address : Address) :
    (fresh host peer address).WellFormed := by
  constructor <;> simp [fresh]

section Steps

variable {conn : Connection}

theorem WellFormed.transmitR1 (hform : conn.WellFormed) (hstate : conn.state = .unassociated)
    (datagram : List UInt8) : (conn.transmit .r1 datagram).WellFormed where
  live := hform.live
  pending := hform.pending
  hold := hform.hold
  keyless := hform.keyless
  i2Sent := hform.i2Sent
  r2Sent := hform.r2Sent
  established := hform.established
  cipher := hform.cipher
  lastI1 hi1 := by rw [transmit, hstate] at hi1; cases hi1
  lastI2 hi2 := by rw [transmit, hstate] at hi2; cases hi2
  lastReply hr2 := by rw [transmit, hstate] at hr2; cases hr2

theorem WellFormed.emit (hform : conn.WellFormed) (signal : Signal) :
    (conn.emit signal).WellFormed :=
  ⟨hform.live, hform.pending, hform.hold, hform.keyless, hform.i2Sent, hform.r2Sent,
    hform.established, hform.cipher, hform.lastI1, hform.lastI2, hform.lastReply⟩

theorem WellFormed.settled (hform : conn.WellFormed) : { conn with outbox := [] }.WellFormed :=
  ⟨hform.live, hform.pending, hform.hold, hform.keyless, hform.i2Sent, hform.r2Sent,
    hform.established, hform.cipher, hform.lastI1, hform.lastI2, hform.lastReply⟩

theorem WellFormed.respond (hform : conn.WellFormed) {keys : KeySet}
    (hrole : keys.isInitiator = false) (cipher : CipherSuite) (datagram : List UInt8)
    (deadline : Nat) : (conn.respond keys cipher datagram deadline).WellFormed := by
  have hstate : (conn.respond keys cipher datagram deadline).state = .r2Sent := state_moveTo _ _
  have hkeys : (conn.respond keys cipher datagram deadline).keys = some keys := keys_moveTo _ _
  have hcipher : (conn.respond keys cipher datagram deadline).cipher = some cipher :=
    cipher_moveTo _ _
  have hsent : (conn.respond keys cipher datagram deadline).lastSent = some ⟨.r2, datagram⟩ :=
    lastSent_moveTo _ _
  have hpending : (conn.respond keys cipher datagram deadline).pending = none := by
    have hidle := hform.pending_moveTo_eq_none .r2Sent (by simp)
    unfold Connection.respond holdTo
    rw [pending_moveTo] at hidle ⊢
    exact hidle
  have hhold : (conn.respond keys cipher datagram deadline).holdUntil = some deadline := rfl
  constructor <;> simp [hstate, hkeys, hcipher, hsent, hpending, hhold, hrole]

theorem WellFormed.initiate (hform : conn.WellFormed) (hstate : conn.state = .unassociated)
    (datagram : List UInt8) : ((conn.transmit .i1 datagram).moveTo .i1Sent).WellFormed := by
  have hkeyless := hform.keyless (.inl hstate)
  have hcipher := hform.cipher
  have hpending := hform.pending
  constructor <;> simp_all [transmit, pending_moveTo, holdUntil_moveTo]

theorem WellFormed.holdR1 (hform : conn.WellFormed) (hstate : conn.state = .i1Sent)
    (datagram : List UInt8) (deadline : Nat) :
    ((conn.transmit .r1 datagram).holdTo deadline).WellFormed := by
  have hkeyless := hform.keyless (.inr hstate)
  have hcipher := hform.cipher
  constructor <;> simp_all [transmit, holdTo, pending_moveTo]

/-- In I1_SENT a search may begin, go on and end. -/
theorem WellFormed.setPending (hform : conn.WellFormed) (hstate : conn.state = .i1Sent)
    {pending : Option PendingAnswer}
    (hrole : ∀ later, pending = some later → later.keys.isInitiator = true) :
    { conn with pending := pending }.WellFormed :=
  { hform with pending := fun later hlater => ⟨hstate, hrole later hlater⟩ }

theorem WellFormed.setHold (hform : conn.WellFormed) (hstate : conn.state = .r2Sent)
    (deadline : Nat) : { conn with holdUntil := some deadline }.WellFormed :=
  { hform with hold := by simp [hstate] }

theorem WellFormed.conclude (hform : conn.WellFormed) {pending : PendingAnswer}
    (hpending : conn.pending = some pending) (datagram : List UInt8) :
    (conn.conclude pending.keys datagram).WellFormed := by
  obtain ⟨hstate, hrole⟩ := hform.pending pending hpending
  have hhold := hform.hold
  have hkeyless := hform.keyless (.inr hstate)
  have hcipher := hform.cipher
  constructor <;>
    simp_all [Connection.conclude, transmit, pending_moveTo, holdUntil_moveTo]

theorem WellFormed.acceptR2 (hform : conn.WellFormed) (hstate : conn.state = .i2Sent) :
    ((conn.moveTo .established).emit .connected).WellFormed := by
  have hidle := hform.pending_moveTo_eq_none .established (by simp)
  obtain ⟨keys, hkeys, hrole⟩ := hform.i2Sent hstate
  have hcipher := hform.cipher
  constructor <;> simp_all [Connection.emit, holdUntil_moveTo]

section Hold

variable (hform : conn.WellFormed) {deadline : Nat} (hhold : conn.holdUntil = some deadline)
include hform hhold

/-- With keys the end of a hold completes the handshake. -/
theorem WellFormed.establish (hkeys : conn.keys.isSome) :
    (({ conn with holdUntil := none }.moveTo .established).emit .connected).WellFormed := by
  have hstate := hform.hold.mp (by simp [hhold])
  obtain ⟨keys, hsome⟩ := Option.isSome_iff_exists.mp hkeys
  have hrole := hform.r2Sent hstate keys hsome
  have hcipher := hform.cipher
  have hpending := hform.pending
  constructor <;> simp_all [Connection.emit, pending_moveTo, holdUntil_moveTo]

/-- Without keys nothing is left of it. -/
theorem WellFormed.giveUp (hkeys : conn.keys = none) :
    ({ conn with holdUntil := none }.moveTo .unassociated).WellFormed := by
  have hstate := hform.hold.mp (by simp [hhold])
  have hcipher := hform.cipher
  have hpending := hform.pending
  constructor <;> simp_all [pending_moveTo, holdUntil_moveTo]

end Hold

end Steps

/-- Every move keeps the form of a connection. -/
theorem WellFormed.move {ctx : Context} {stimulus : Stimulus} {conn after : Connection}
    (hform : conn.WellFormed) (hmove : conn.Move ctx stimulus after) : after.WellFormed := by
  cases hmove with
  | ignore | wait | rest => exact hform
  | initiate hstate => exact hform.initiate hstate _
  | resend => exact hform.emit _
  | answerI1 hstate => exact hform.transmitR1 hstate _
  | answerI2AsI1 hstate => exact hform.holdR1 hstate _ _
  | answerI2 hanswers hkind hvalid =>
    obtain ⟨solution, id, haccepts⟩ := Context.validateI2_eq_ok_iff.mp hvalid
    exact hform.respond (Context.isInitiator_of_sessionKeys haccepts.derived) _ _ _
  | resendR2 hstate => exact (hform.emit _).setHold hstate _
  | acceptR2 hstate => exact hform.acceptR2 hstate
  | establish hhold hdue hkeys => exact hform.establish hhold hkeys
  | giveUp hhold hdue hkeys => exact hform.giveUp hhold hkeys
  | takeUpR1 hstate hkind hidle hvalid =>
    obtain ⟨id, haccepts⟩ := Context.validateR1_eq_ok_iff.mp hvalid
    have hrole := Context.isInitiator_of_sessionKeys haccepts.derived
    exact hform.setPending hstate fun later hlater => Option.some.inj hlater ▸ hrole
  | @search _ pending _ hpending =>
    obtain ⟨hstate, hrole⟩ := hform.pending pending hpending
    exact hform.setPending hstate fun later hlater => Option.some.inj hlater ▸ hrole
  | solve hpending => exact hform.conclude hpending _
  | @lose _ pending _ _ hpending =>
    obtain ⟨hstate, -⟩ := hform.pending pending hpending
    exact hform.setPending hstate fun later hlater => nomatch hlater

end DietExchange.Connection
