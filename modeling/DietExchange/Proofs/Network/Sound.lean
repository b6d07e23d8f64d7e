import DietExchange.Proofs.Connection.Role
import DietExchange.Proofs.Engine.Provenance

namespace DietExchange

def Party.hostId (party : Party) : HostId :=
  HostId.ofKey party.identity.curve party.identity.publicKey

/-- Two hosts that agree on a secret derive the same keys from it under the same challenge. -/
theorem KeySet.IsDerived.sameKeys {mine theirs : Party} {keys shared : KeySet} {challenge : Block}
    (hlengths : theirs.config.keyLengths = mine.config.keyLengths)
    (hagreement : ∀ secret other, mine.identity.key.agree theirs.identity.publicKey = .ok secret →
      theirs.identity.key.agree mine.identity.publicKey = .ok other → secret = other)
    (hmine : keys.IsDerived mine theirs.identity.hit theirs.hostId challenge)
    (htheirs : shared.IsDerived theirs mine.identity.hit mine.hostId challenge)
    (hinitiator : keys.isInitiator = true) (hresponder : shared.isInitiator = false) :
    keys.SameKeys shared := by
  obtain ⟨secret, hsecret, hderive⟩ := hmine.derived
  obtain ⟨other, hother, hderiveOther⟩ := htheirs.derived
  obtain rfl := hagreement secret other hsecret hother
  rw [hinitiator] at hderive
  rw [hresponder, hlengths] at hderiveOther
  have hsame := KeyDerivation.derive_role false hderive
  obtain rfl := Except.ok.inj (hderiveOther.symm.trans hsame)
  exact ⟨rfl, rfl⟩

/-- What there is to know for one of two hosts: the packets that each has queued for the other,
    whether the other is a responder, and whether one of them began anew as a responder. -/
structure View where
  mine : Party
  theirs : Party
  told : Packet → Prop
  heard : Packet → Prop
  answered : Prop
  yielded : Prop

namespace View

/-- Whether keys are those that an I2 among these packets leads to. -/
def Settles (view : View) (said : Packet → Prop) (keys : KeySet) : Prop :=
  ∃ packet solution, said packet ∧ packet.kind = .i2 ∧ packet.solution? = some solution ∧
    keys.IsDerived view.mine view.theirs.identity.hit view.theirs.hostId solution.challenge

/-- Whether a connection is ours with the peer. -/
structure Owns (view : View) (conn : Connection) : Prop where
  form : conn.WellFormed
  outbox : conn.outbox = []
  host : conn.host = view.mine.identity.hit
  peer : conn.peer = view.theirs.identity.hit
  speaks : conn.Speaks view.mine.identity

/-- What holds of our connection with the peer. -/
structure Sound (view : View) (conn : Connection) : Prop where
  spoken : ∀ packet id, view.told packet → packet.hostId? = some id → id = view.mine.hostId
  keyed : ∀ packet, view.told packet → packet.kind = .i2 → conn.keys.isSome
  last : ∀ packet, view.told packet → packet.kind = .i2 → conn.state = .i2Sent →
    ∃ datagram, conn.lastSent = some ⟨.i2, datagram⟩ ∧ Packet.parse datagram = .ok packet
  unique : ∀ packet other, view.told packet → packet.kind = .i2 → view.told other →
    other.kind = .i2 → packet = other
  answers : ∀ packet, view.told packet → packet.kind = .r2 → conn.Responds
  pending : ∀ pending, conn.pending = some pending → pending.keys.IsDerived view.mine
    view.theirs.identity.hit view.theirs.hostId pending.puzzle.challenge
  initiator : ∀ keys, conn.keys = some keys → keys.isInitiator = true → view.Settles view.told keys
  responder : ∀ keys, conn.keys = some keys → keys.isInitiator = false →
    view.Settles view.heard keys
  established : conn.state = .established → conn.Responds ∨ view.answered
  larger : ∀ packet, view.told packet → packet.kind = .i2 → conn.Responds →
    view.theirs.identity.hit < view.mine.identity.hit ∨ view.yielded
  yields : view.yielded → conn.Responds

theorem Settles.mono {view : View} {said more : Packet → Prop} {keys : KeySet}
    (hmore : ∀ packet, said packet → more packet) (hsettles : view.Settles said keys) :
    view.Settles more keys := by
  obtain ⟨packet, solution, hsaid, hrest⟩ := hsettles
  exact ⟨packet, solution, hmore packet hsaid, hrest⟩

/-- What happens to the other host leaves things as they are. -/
theorem Sound.mono {view : View} {conn : Connection} (hsound : view.Sound conn)
    {heard : Packet → Prop} {answered yielded : Prop}
    (hheard : ∀ packet, view.heard packet → heard packet) (hanswered : view.answered → answered)
    (hmore : view.yielded → yielded) (hyields : yielded → conn.Responds) :
    { view with heard := heard, answered := answered, yielded := yielded }.Sound conn where
  spoken := hsound.spoken
  keyed := hsound.keyed
  last := hsound.last
  unique := hsound.unique
  answers := hsound.answers
  pending := hsound.pending
  initiator := hsound.initiator
  responder keys hkeys hrole := (hsound.responder keys hkeys hrole).mono hheard
  established hstate := (hsound.established hstate).imp_right hanswered
  larger packet htold hkind hresponds :=
    (hsound.larger packet htold hkind hresponds).imp_right hmore
  yields := hyields

section Move

variable {view : View} {ctx : Context} {stimulus : Stimulus} {conn moved : Connection}

/-- What a connection transmits is an I2 in I2_SENT or an R2 of a responder if it is one at all, and
    tells of our own HOST_ID. -/
theorem Owns.transmits (howns : view.Owns conn) (hkey : view.mine.identity.HasCurveKey)
    (hparty : ctx.party = view.mine) (hmove : conn.Move ctx stimulus moved) {datagram : List UInt8}
    (hout : .transmit datagram ∈ moved.outbox) {packet : Packet}
    (hparse : Packet.parse datagram = .ok packet) :
    (∀ id, packet.hostId? = some id → id = view.mine.hostId) ∧
    (packet.kind = .i2 → moved.state = .i2Sent ∧ moved.lastSent = some ⟨.i2, datagram⟩) ∧
    (packet.kind = .r2 → moved.Responds) := by
  obtain ⟨kind, hsent, hi2, hr2⟩ := hmove.of_transmit howns.form howns.outbox hout
  have hidentity : ctx.identity = view.mine.identity := congrArg Party.identity hparty
  have hspeaks : moved.Speaks ctx.identity :=
    Connection.Speaks.move (hidentity ▸ hkey) hmove (hidentity ▸ howns.speaks)
  obtain ⟨found, hfound, hkind, -, -, hhostId⟩ := hspeaks _ hsent
  obtain rfl := Except.ok.inj (hfound.symm.trans hparse)
  rw [hidentity] at hhostId
  refine ⟨hhostId, fun heq => ?_, fun heq => hr2 (hkind.symm.trans heq)⟩
  obtain rfl : kind = .i2 := hkind.symm.trans heq
  exact ⟨hi2 rfl, hsent⟩

/-- What a move of our connection changes for us. -/
structure Moves (view : View) (ctx : Context) (stimulus : Stimulus) (conn moved : Connection)
    (told : Packet → Prop) (yielded : Prop) : Prop where
  party : ctx.party = view.mine
  move : conn.Move ctx stimulus moved
  heard : ∀ packet, stimulus = .packet packet → packet.kind ≠ .i1 → view.heard packet
  kept : ∀ packet, view.told packet → told packet
  adds : ∀ datagram packet, .transmit datagram ∈ moved.outbox →
    Packet.parse datagram = .ok packet → packet.receiver = conn.peer → told packet
  only : ∀ packet, told packet → view.told packet ∨
    ∃ datagram, .transmit datagram ∈ moved.outbox ∧ Packet.parse datagram = .ok packet
  yielded : yielded ↔ view.yielded ∨
    (conn.state = .established ∧ ¬conn.Responds ∧ moved.state = .r2Sent)

/-- What the other host says is right. -/
structure Trusts (view : View) : Prop where
  spoken : ∀ packet id, view.heard packet → packet.hostId? = some id → id = view.theirs.hostId
  answers : ∀ packet, view.heard packet → packet.kind = .r2 → view.answered

variable {told : Packet → Prop} {yielded : Prop} (howns : view.Owns conn)
  (hkey : view.mine.identity.HasCurveKey)
  (hmoves : view.Moves ctx stimulus conn moved told yielded)
include howns hkey hmoves

/-- An I2 that we told of is one of old, or it has just been sent. -/
theorem Moves.i2_cases {packet : Packet} (htold : told packet) (hkind : packet.kind = .i2) :
    view.told packet ∨ (moved.state = .i2Sent ∧
      ∃ datagram, moved.lastSent = some ⟨.i2, datagram⟩ ∧ Packet.parse datagram = .ok packet) := by
  refine (hmoves.only packet htold).imp_right ?_
  rintro ⟨datagram, hout, hparse⟩
  obtain ⟨-, hi2, -⟩ := howns.transmits hkey hmoves.party hmoves.move hout hparse
  obtain ⟨hstate, hlast⟩ := hi2 hkind
  exact ⟨hstate, datagram, hlast, hparse⟩

variable (hsound : view.Sound conn)
include hsound

theorem Sound.last_move {packet : Packet} (htold : told packet) (hkind : packet.kind = .i2)
    (hstate : moved.state = .i2Sent) :
    ∃ datagram, moved.lastSent = some ⟨.i2, datagram⟩ ∧ Packet.parse datagram = .ok packet := by
  rcases hmoves.i2_cases howns hkey htold hkind with hold | ⟨-, hlast⟩
  · obtain ⟨hbefore, hsame⟩ :=
      hmoves.move.of_i2Sent howns.form (hsound.keyed packet hold hkind) hstate
    rw [hsame]
    exact hsound.last packet hold hkind hbefore
  · exact hlast

/-- There is at most one I2: whoever has sent one has keys, and only sends it again. -/
theorem Sound.unique_move {packet other : Packet} (htold : told packet) (hkind : packet.kind = .i2)
    (hother : told other) (hotherKind : other.kind = .i2) : packet = other := by
  have hsame : moved.state = .i2Sent → packet = other := by
    intro hstate
    obtain ⟨datagram, hlast, hparse⟩ := hsound.last_move howns hkey hmoves htold hkind hstate
    obtain ⟨again, hagain, hparseOther⟩ :=
      hsound.last_move howns hkey hmoves hother hotherKind hstate
    obtain rfl := congrArg SentPacket.datagram (Option.some.inj (hlast.symm.trans hagain))
    exact Except.ok.inj (hparse.symm.trans hparseOther)
  rcases hmoves.i2_cases howns hkey htold hkind with hold | ⟨hstate, -⟩
  · rcases hmoves.i2_cases howns hkey hother hotherKind with holdOther | ⟨hstate, -⟩
    · exact hsound.unique packet other hold hkind holdOther hotherKind
    · exact hsame hstate
  · exact hsame hstate

theorem Sound.keyed_move {packet : Packet} (htold : told packet) (hkind : packet.kind = .i2) :
    moved.keys.isSome := by
  rcases hmoves.i2_cases howns hkey htold hkind with hold | ⟨hstate, -⟩
  · exact hmoves.move.isSome_keys howns.form (hsound.keyed packet hold hkind)
  · obtain ⟨keys, hkeys, -⟩ := (howns.form.move hmoves.move).i2Sent hstate
    exact Option.isSome_of_eq_some hkeys

theorem Sound.answers_move {packet : Packet} (htold : told packet) (hkind : packet.kind = .r2) :
    moved.Responds := by
  rcases hmoves.only packet htold with hold | ⟨datagram, hout, hparse⟩
  · exact hmoves.move.responds howns.form (hsound.answers packet hold hkind)
  · obtain ⟨-, -, hr2⟩ := howns.transmits hkey hmoves.party hmoves.move hout hparse
    exact hr2 hkind

/-- Who becomes a responder though an I2 was sent has the larger HIT, or begins anew. -/
theorem Sound.larger_move (hdistinct : view.theirs.identity.hit ≠ view.mine.identity.hit)
    {packet : Packet} (htold : told packet) (hkind : packet.kind = .i2)
    (hresponds : moved.Responds) : view.theirs.identity.hit < view.mine.identity.hit ∨ yielded := by
  have hform := howns.form
  obtain ⟨keys, hkeys, hrole⟩ := hresponds
  have hold : view.told packet := by
    refine (hmoves.i2_cases howns hkey htold hkind).resolve_right ?_
    rintro ⟨hstate, -⟩
    obtain ⟨own, hown, hinitiator⟩ := (hform.move hmoves.move).i2Sent hstate
    obtain rfl := Option.some.inj (hkeys.symm.trans hown)
    rw [hrole] at hinitiator
    cases hinitiator
  obtain ⟨held, hheld⟩ := Option.isSome_iff_exists.mp (hsound.keyed packet hold hkind)
  have hstill : conn.Responds → view.theirs.identity.hit < view.mine.identity.hit ∨ yielded := by
    intro hbefore
    exact (hsound.larger packet hold hkind hbefore).imp_right fun hyes =>
      hmoves.yielded.mpr (.inl hyes)
  cases hmoves.move.turns hform with
  | stay hsame | complete _ _ _ _ hsame =>
    exact hstill ⟨keys, hsame.symm.trans hkeys, hrole⟩
  | takeUp _ _ hkeyless => cases hkeyless.symm.trans hheld
  | initiate hpending => cases (hform.keys_eq_none hpending).symm.trans hheld
  | respond hanswers _ _ hstate =>
    rcases hanswers with hidle | ⟨-, hlarger⟩ | ⟨hresponding, -⟩ | hdone
    · cases (hform.keyless (.inl hidle)).symm.trans hheld
    · rw [howns.host, howns.peer] at hlarger
      rcases Hit.lt_trichotomy view.theirs.identity.hit view.mine.identity.hit with hlt | heq | hgt
      · exact .inl hlt
      · exact absurd heq hdistinct
      · exact absurd hgt hlarger
    · exact hstill ⟨held, hheld, hform.r2Sent hresponding held hheld⟩
    · by_cases hbefore : conn.Responds
      · exact hstill hbefore
      · exact .inr (hmoves.yielded.mpr (.inr ⟨hdone, hbefore, hstate⟩))

omit hkey in
theorem Sound.yields_move (hyielded : yielded) : moved.Responds := by
  rcases hmoves.yielded.mp hyielded with hold | ⟨hdone, -, hstate⟩
  · exact hmoves.move.responds howns.form (hsound.yields hold)
  · have hsome := hmoves.move.isSome_keys howns.form (howns.form.established hdone)
    obtain ⟨keys, hkeys⟩ := Option.isSome_iff_exists.mp hsome
    exact ⟨keys, hkeys, (howns.form.move hmoves.move).r2Sent hstate keys hkeys⟩

omit hkey in
/-- An initiator is done when the other host has answered. -/
theorem Sound.established_move (htrusts : view.Trusts) (hstate : moved.state = .established) :
    moved.Responds ∨ view.answered := by
  have hform := howns.form
  have hstill : conn.state = .established → moved.Responds ∨ view.answered := fun hbefore =>
    (hsound.established hbefore).imp_left (hmoves.move.responds hform)
  have hsome := (hform.move hmoves.move).established hstate
  cases hmoves.move.turns hform with
  | stay _ _ hestablished =>
    cases hestablished hstate with
    | inl hbefore => exact hstill hbefore
    | inr hresponds => exact .inl (hmoves.move.responds hform hresponds)
  | takeUp _ _ _ hkeys =>
    rw [hkeys] at hsome
    cases hsome
  | initiate _ _ _ _ hi2Sent => cases hi2Sent.symm.trans hstate
  | respond _ _ _ hr2Sent => cases hr2Sent.symm.trans hstate
  | @complete packet _ hkind =>
    have hheard := hmoves.heard packet rfl (by simp [hkind])
    exact .inr (htrusts.answers packet hheard hkind)

omit hkey in
/-- A puzzle that is taken up is one of the other host, who showed its own HOST_ID with it. -/
theorem Sound.pending_move (htrusts : view.Trusts) {pending : PendingAnswer}
    (hpending : moved.pending = some pending) : pending.keys.IsDerived view.mine
      view.theirs.identity.hit view.theirs.hostId pending.puzzle.challenge := by
  have hnone : moved.pending = none → False := by
    intro hnone
    cases hnone.symm.trans hpending
  cases hmoves.move.turns howns.form with
  | stay _ hsame =>
    obtain ⟨before, hbefore, hpuzzle, hkeys⟩ := hsame pending hpending
    rw [← hpuzzle, ← hkeys]
    exact hsound.pending before hbefore
  | @takeUp packet puzzle keys _ _ hkind hvalid _ _ htaken =>
    obtain rfl := Option.some.inj (htaken.symm.trans hpending)
    obtain ⟨id, haccepts⟩ := Context.validateR1_eq_ok_iff.mp hvalid
    have hhost : conn.host = ctx.identity.hit :=
      howns.host.trans (congrArg (·.identity.hit) hmoves.party).symm
    rw [hhost, howns.peer] at haccepts
    obtain ⟨-, hderived⟩ := haccepts.isDerived
    have hheard := hmoves.heard packet rfl (by simp [hkind])
    obtain rfl := htrusts.spoken packet id hheard haccepts.hasHostId
    rw [hmoves.party] at hderived
    exact hderived
  | initiate _ _ _ _ _ _ hidle | respond _ _ _ _ _ hidle | complete _ _ _ _ _ hidle =>
    exact (hnone hidle).elim

/-- The keys of an initiator are those of the I2 that it sends. -/
theorem Sound.initiator_move {keys : KeySet} (hkeys : moved.keys = some keys)
    (hrole : keys.isInitiator = true) : view.Settles told keys := by
  have hstill : conn.keys = some keys → view.Settles told keys := fun hold =>
    (hsound.initiator keys hold hrole).mono hmoves.kept
  cases hmoves.move.turns howns.form with
  | stay hsame | complete _ _ _ _ hsame => exact hstill (hsame.symm.trans hkeys)
  | takeUp _ _ _ hkeyless => cases hkeyless.symm.trans hkeys
  | respond _ _ hvalid _ hnew =>
    obtain rfl := Option.some.inj (hnew.symm.trans hkeys)
    cases (Connection.isInitiator_of_validateI2 hvalid).symm.trans hrole
  | @initiate pending answer sealed datagram _ hpending hseal hencode hsent _ hnew =>
    obtain rfl := Option.some.inj (hnew.symm.trans hkeys)
    have hcurve : ctx.identity.HasCurveKey := by
      rw [show ctx.identity = view.mine.identity from congrArg Party.identity hmoves.party]
      exact hkey
    obtain ⟨hkind, -, hreceiver⟩ := Context.header_i2 pending.echo hseal
    have hparse := Context.parse_i2 pending.echo hcurve hseal hencode
    exact ⟨_, _, hmoves.adds datagram _ hsent hparse hreceiver, hkind, Context.solution?_i2 hseal,
      hsound.pending pending hpending⟩

omit hkey in
/-- The keys of a responder are those of an I2 of the other host, who showed its own HOST_ID in
    it. -/
theorem Sound.responder_move (htrusts : view.Trusts) {keys : KeySet}
    (hkeys : moved.keys = some keys) (hrole : keys.isInitiator = false) :
      view.Settles view.heard keys := by
  cases hmoves.move.turns howns.form with
  | stay hsame | complete _ _ _ _ hsame =>
      exact hsound.responder keys (hsame.symm.trans hkeys) hrole
  | takeUp _ _ _ hkeyless => cases hkeyless.symm.trans hkeys
  | @initiate pending _ _ _ _ hpending _ _ _ _ hnew =>
    obtain rfl := Option.some.inj (hnew.symm.trans hkeys)
    cases (howns.form.pending pending hpending).2.symm.trans hrole
  | @respond packet _ _ _ _ hkind hvalid _ hnew =>
    obtain rfl := Option.some.inj (hnew.symm.trans hkeys)
    obtain ⟨solution, id, haccepts⟩ := Context.validateI2_eq_ok_iff.mp hvalid
    have hhost : conn.host = ctx.identity.hit :=
      howns.host.trans (congrArg (·.identity.hit) hmoves.party).symm
    rw [hhost, howns.peer] at haccepts
    obtain ⟨-, hderived⟩ := haccepts.isDerived
    have hheard := hmoves.heard packet rfl (by simp [hkind])
    obtain rfl := htrusts.spoken packet id hheard haccepts.hasHostId
    rw [hmoves.party] at hderived
    exact ⟨packet, solution, hheard, hkind, haccepts.hasSolution, hderived⟩

/-- Every move of our connection with an honest host leaves things right. -/
theorem Sound.move (hdistinct : view.theirs.identity.hit ≠ view.mine.identity.hit)
    (htrusts : view.Trusts) : { view with told := told, yielded := yielded }.Sound moved where
  spoken packet id htold hid := by
    rcases hmoves.only packet htold with hold | ⟨datagram, hout, hparse⟩
    · exact hsound.spoken packet id hold hid
    · exact (howns.transmits hkey hmoves.party hmoves.move hout hparse).1 id hid
  keyed _ := hsound.keyed_move howns hkey hmoves
  last _ := hsound.last_move howns hkey hmoves
  unique _ _ := hsound.unique_move howns hkey hmoves
  answers _ := hsound.answers_move howns hkey hmoves
  pending _ := hsound.pending_move howns hmoves htrusts
  initiator _ := hsound.initiator_move howns hkey hmoves
  responder _ := hsound.responder_move howns hmoves htrusts
  established hstate := by
    have hanswered := hsound.established_move howns hmoves htrusts hstate
    exact hanswered
  larger _ := hsound.larger_move howns hkey hmoves hdistinct
  yields := hsound.yields_move howns hmoves

end Move

theorem Sound.settled {view : View} {conn : Connection} (hsound : view.Sound conn) :
    view.Sound conn.settled :=
  ⟨hsound.spoken, hsound.keyed, hsound.last, hsound.unique, hsound.answers, hsound.pending,
    hsound.initiator, hsound.responder, hsound.established, hsound.larger, hsound.yields⟩

/-- Where there are no keys and nothing is being solved, nothing was promised to the other host. -/
theorem Sound.of_keyless {view : View} {conn other : Connection} (hsound : view.Sound conn)
    (hkeyless : conn.keys = none) (hkeys : other.keys = none) (hpending : other.pending = none)
    (hstate : other.state ≠ .established) : view.Sound other := by
  have hresponds : ¬conn.Responds := by
    rintro ⟨keys, hsome, -⟩
    cases hkeyless.symm.trans hsome
  have hi2 : ∀ packet, view.told packet → packet.kind ≠ .i2 := by
    intro packet htold hkind
    have hsome := hsound.keyed packet htold hkind
    rw [hkeyless] at hsome
    cases hsome
  exact {
    spoken := hsound.spoken
    keyed := fun packet htold hkind => absurd hkind (hi2 packet htold)
    last := fun packet htold hkind => absurd hkind (hi2 packet htold)
    unique := hsound.unique
    answers := fun packet htold hkind => absurd (hsound.answers packet htold hkind) hresponds
    pending := fun pending hsome => by cases hpending.symm.trans hsome
    initiator := fun keys hsome => by cases hkeys.symm.trans hsome
    responder := fun keys hsome => by cases hkeys.symm.trans hsome
    established := fun hdone => absurd hdone hstate
    larger := fun packet htold hkind => absurd hkind (hi2 packet htold)
    yields := fun hyielded => absurd (hsound.yields hyielded) hresponds }

end View

end DietExchange
