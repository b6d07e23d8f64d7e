import DietExchange.Proofs.Connection.Faults
import DietExchange.Proofs.Engine.Calm
import DietExchange.Proofs.Engine.Completion
import DietExchange.Proofs.Engine.Footing
import DietExchange.Proofs.Engine.Impact
import DietExchange.Proofs.Packet.Acceptance

namespace DietExchange

namespace Turn

variable {turn : Turn} {ctx : Context} {packet : Packet} {error : Error}

/-- With a secret in the window there is a challenge, and an R1 can always be written. -/
theorem hasFault_of_answerI1 (hcurve : ctx.identity.HasCurveKey)
    (hsecret : ∃ secret, ctx.issuer.window.newest? = some secret)
    (hanswer : turn.answerI1 ctx packet = .error error) : packet.HasFault ctx error := by
  rcases bind_eq_error_iff.mp hanswer with hmandatory | ⟨⟨⟩, hmandatory, hanswer⟩
  · exact Packet.hasFault_of_checkMandatory hmandatory
  rcases bind_eq_error_iff.mp hanswer with hoffer | ⟨⟨⟩, hoffer, -⟩
  · exact Context.hasFault_of_checkOffer hoffer
  obtain ⟨secret, hnewest⟩ := hsecret
  have hissue : ctx.issuer.issue turn.conn.peer turn.conn.host [] =
      .ok (challengeFor secret turn.conn.peer turn.conn.host []) := by
    rw [PuzzleIssuer.issue, hnewest]
  obtain ⟨after, hafter⟩ := exists_answerI1 turn ctx packet hmandatory hoffer hissue hcurve
  cases hafter.symm.trans (bind_eq_error_iff.mpr (.inr ⟨(), hmandatory, hanswer⟩))

/-- The keys of an I2 that is accepted can seal an R2. -/
theorem sendR2_ne_error {host peer : Hit} {keys : KeySet} {cipher : CipherSuite}
    (hvalidate : ctx.validateI2 host peer packet = .ok (keys, cipher)) :
    turn.sendR2 ctx keys cipher ≠ .error error := by
  obtain ⟨after, hafter⟩ :=
    turn.exists_sendR2 ctx cipher (Context.isKeyLength_of_validateI2 hvalidate)
  intro hsend
  cases hafter.symm.trans hsend

section Parsed

variable {datagram : List UInt8} (hparse : Packet.parse datagram = .ok packet)
  (haccepted : ctx.config.IsAccepted) (hhost : turn.conn.host = packet.receiver)
  (hpeer : turn.conn.peer = packet.sender)
include hparse haccepted hhost hpeer

/-- No puzzle within our limit is one that can never be solved. -/
theorem hasFault_of_acceptR1 (haccept : turn.acceptR1 ctx packet = .error error) :
    packet.HasFault ctx error := by
  unfold acceptR1 at haccept
  rw [hhost, hpeer] at haccept
  split at haccept
  · cases haccept
  rcases bind_eq_error_iff.mp haccept with hvalidate | ⟨⟨puzzle, keys⟩, hvalidate, haccept⟩
  · exact Context.hasFault_of_validateR1 hparse haccepted hvalidate
  rcases bind_eq_error_iff.mp haccept with hstart | ⟨search, -, hpure⟩
  · obtain ⟨id, haccepts⟩ := Context.validateR1_eq_ok_iff.mp hvalidate
    have hsolvable : puzzle.k ≤ maxComplexity :=
      UInt8.le_trans haccepts.complexity haccepted.maximum
    unfold PuzzleSearch.start at hstart
    rw [if_neg (UInt8.not_lt.mpr hsolvable)] at hstart
    cases hstart
  · cases hpure

theorem hasFault_of_answerI2 (hanswer : turn.answerI2 ctx packet = .error error) :
    packet.HasFault ctx error := by
  unfold answerI2 at hanswer
  rw [hhost, hpeer] at hanswer
  rcases bind_eq_error_iff.mp hanswer with hvalidate | ⟨⟨keys, cipher⟩, hvalidate, hsend⟩
  · exact Context.hasFault_of_validateI2 hparse haccepted hvalidate
  · exact absurd hsend (sendR2_ne_error hvalidate)

theorem hasFault_of_answerI2Again (hanswer : turn.answerI2Again ctx packet = .error error) :
    packet.HasFault ctx error := by
  unfold answerI2Again at hanswer
  rw [hhost, hpeer] at hanswer
  rcases bind_eq_error_iff.mp hanswer with hvalidate | ⟨⟨keys, cipher⟩, hvalidate, hsend⟩
  · exact Context.hasFault_of_validateI2 hparse haccepted hvalidate
  · dsimp only at hsend
    split at hsend
    · cases hsend
    · exact absurd hsend (sendR2_ne_error hvalidate)

/-- A host with accepted options, a key of its curve and a puzzle secret refuses a packet of the
    peer for nothing but a fault of the packet. In I2_SENT it has to hold keys that a tag can be
    checked with. -/
theorem hasFault_of_receive (hcurve : ctx.identity.HasCurveKey)
    (hsecret : ∃ secret, ctx.issuer.window.newest? = some secret)
    (hheld : turn.conn.state = .i2Sent → ∃ keys, turn.conn.keys = some keys ∧
      Config.IsKeyLength keys.responder.integrity.length)
    (hreceive : turn.receive ctx packet = .error error) : packet.HasFault ctx error := by
  unfold receive at hreceive
  split at hreceive
  · exact hasFault_of_answerI1 hcurve hsecret hreceive
  · exact hasFault_of_answerI2 hparse haccepted hhost hpeer hreceive
  · exact hasFault_of_acceptR1 hparse haccepted hhost hpeer hreceive
  · rcases bind_eq_error_iff.mp hreceive with hanswer | ⟨after, -, hpure⟩
    · exact hasFault_of_answerI1 hcurve hsecret hanswer
    · cases hpure
  · split at hreceive
    · cases hreceive
    · exact hasFault_of_answerI2 hparse haccepted hhost hpeer hreceive
  · rename_i hstate _
    obtain ⟨keys, hkeys, hlength⟩ := hheld hstate
    rcases bind_eq_error_iff.mp hreceive with hvalidate | ⟨⟨⟩, -, hpure⟩
    · rw [hkeys] at hvalidate
      exact Context.hasFault_of_validateR2 hparse hlength hvalidate
    · cases hpure
  · exact hasFault_of_answerI2Again hparse haccepted hhost hpeer hreceive
  · exact hasFault_of_answerI2 hparse haccepted hhost hpeer hreceive
  · cases hreceive

end Parsed

end Turn

/-- The errors that no datagram can be blamed for: a parser's own step, a packet of ours that does
    not fit, a secret, a key or a puzzle that is not as the host keeps them, and what only a caller
    can do wrong. -/
inductive Error.IsInternal : Error → Prop where
  | parseIncomplete : IsInternal .parseIncomplete
  | parseError (fault : LayoutFault) : IsInternal (.parseError fault)
  | unknownCurve (code : UInt16) : IsInternal (.unknownCurve code)
  | packetTooLarge (length : Nat) : IsInternal (.packetTooLarge length)
  | keysMissing : IsInternal (.security .keysMissing)
  | unsolvable (k : UInt8) : IsInternal (.security (.unsolvable k))
  | usage (fault : UsageFault) : IsInternal (.usage fault)
  | config (fault : ConfigFault) : IsInternal (.config fault)
  | cmacKeyLength (length : Nat) : IsInternal (.crypto (.cmacKeyLength length))
  | cmacOutputLength (length : Nat) : IsInternal (.crypto (.cmacOutputLength length))
  | expansionTooLong (length : Nat) : IsInternal (.crypto (.expansionTooLong length))
  | entropyFailed (reason : String) : IsInternal (.crypto (.entropyFailed reason))

namespace Engine

variable {engine : Engine} {datagram : List UInt8} {now : Nat} {error : Error}

/-- What is wrong with a datagram that comes at `now`, in the eyes of an engine, and the error that
    says so. -/
inductive Blames (engine : Engine) (now : Nat) (datagram : List UInt8) : Error → Prop where
  | malformed {error : Error} (hparse : Packet.parse datagram = .error error)
    (hrefusal : error.IsRefusal) : Blames engine now datagram error
  | misdirected {packet : Packet} (hparse : Packet.parse datagram = .ok packet)
    (hother : packet.receiver ≠ engine.hit) : Blames engine now datagram .receiverMismatch
  | fault {packet : Packet} {error : Error} (hparse : Packet.parse datagram = .ok packet)
    (hfault : packet.HasFault (engine.context (max engine.lastNow now)) error) :
    Blames engine now datagram error

theorem Blames.not_isInternal (hblames : engine.Blames now datagram error) : ¬error.IsInternal := by
  intro hinternal
  cases hblames with
  | malformed hparse hrefusal => cases hinternal <;> cases hrefusal
  | misdirected => cases hinternal
  | fault hparse hfault =>
    cases hfault with
    | key hid huseless hfault => cases hinternal <;> simp at hfault
    | parameter | groups | curve | solution | tag | complexity | identity | cipher =>
        cases hinternal

/-- The keys that are held in I2_SENT were derived from an R1, in the configured lengths. -/
theorem Reachable.exists_keys_of_i2Sent (hreachable : Reachable engine)
    (haccepted : engine.config.IsAccepted) {conn : Connection}
    (hmem : conn ∈ engine.table.connections) (hstate : conn.state = .i2Sent) :
    ∃ keys, conn.keys = some keys ∧ Config.IsKeyLength keys.responder.integrity.length := by
  obtain ⟨r1, keys, i2, -, -, hrests⟩ := (hreachable.grounded conn hmem).i2Sent hstate
  obtain ⟨puzzle, ⟨ctx, hparty, hvalid⟩, -⟩ := hrests.reply
  obtain ⟨id, haccepts⟩ := Context.validateR1_eq_ok_iff.mp hvalid
  obtain ⟨secret, -, hderive⟩ := Context.sessionKeys_eq_ok_iff.mp haccepts.derived
  refine ⟨keys, hrests.awaits.keys, ?_⟩
  have hconfig : ctx.config = engine.config := congrArg Party.config hparty
  rw [(KeyDerivation.length_integrity_of_derive hderive).2, hconfig]
  exact haccepted.integrity

section Refused

variable (hreachable : Reachable engine) (hopen : engine.closed = false)
  (haccepted : engine.config.IsAccepted) (hcurve : engine.identity.HasCurveKey)
include hreachable hopen haccepted hcurve

/-- An open engine refuses a datagram for nothing but a fault of the datagram. -/
theorem Reachable.blames {source : Address}
    (hrefused : (engine.handlePacket datagram source now).result = .error error) :
    engine.Blames now datagram error := by
  rw [(handlePacket_eq_absorb hreachable hopen datagram source now).1] at hrefused
  have hturn := eq_error_of_map hrefused
  cases hparse : Packet.parse datagram with
  | error found =>
    obtain rfl := Except.error.inj ((turnFor_of_error hparse).symm.trans hturn)
    exact .malformed hparse (Packet.isRefusal_of_parse hparse)
  | ok packet =>
    by_cases hreceiver : packet.receiver = (engine.advance now).hit
    · rw [turnFor_of_eq hparse hreceiver] at hturn
      cases hoffered : (engine.advance now).offered? packet.sender source with
      | none =>
        rw [hoffered] at hturn
        cases hturn
      | some conn =>
        rw [hoffered] at hturn
        have hoffers : engine.Offers packet.sender source conn := offers_of_offered? hoffered
        have hhost : conn.host = engine.hit :=
          hoffers.preserves (fun _ hmem => hreachable.host_eq hmem) fun _ _ => rfl
        have hheld : conn.state = .i2Sent → ∃ keys, conn.keys = some keys ∧
            Config.IsKeyLength keys.responder.integrity.length :=
          hoffers.preserves (fun _ hmem => hreachable.exists_keys_of_i2Sent haccepted hmem)
            fun _ _ hstate => by cases hstate
        have hreceive : Turn.receive ⟨conn, engine.rng, []⟩
            (engine.context (max engine.lastNow now)) packet = .error error := eq_error_of_map hturn
        exact .fault hparse (Turn.hasFault_of_receive hparse haccepted (hhost.trans hreceiver.symm)
          hoffers.peer_eq hcurve hreachable.issuer.2 hheld hreceive)
    · obtain rfl := Except.error.inj ((turnFor_of_ne hparse hreceiver).symm.trans hturn)
      exact .misdirected hparse hreceiver

end Refused

/-- Whatever arrives at an open engine, it is refused for nothing but a fault of its own, never for
    one of the host; and no timeout is refused. -/
theorem only_own_faults_surface (hreachable : Reachable engine) (hopen : engine.closed = false)
    (haccepted : engine.config.IsAccepted) (hstandard : engine.identity.key.IsStandard) :
    (∀ (datagram : List UInt8) (source : Address) (now : Nat) (error : Error),
      (engine.handlePacket datagram source now).result = .error error →
      engine.Blames now datagram error ∧ ¬error.IsInternal) ∧
    ∀ (peers : List Hit) (now : Nat), (engine.handleTimeoutIn peers now).result = .ok () := by
  refine ⟨fun datagram source now error hrefused => ?_, result_handleTimeoutIn hopen⟩
  have hcurve := HostIdentity.hasCurveKey_of_isStandard hstandard
  have hblames := hreachable.blames hopen haccepted hcurve hrefused
  exact ⟨hblames, hblames.not_isInternal⟩

/-- A host of the library waits for an R2 and gets one that has everything but the right tag. -/
theorem exists_own_fault : ∃ (engine : Engine) (peer : Hit) (datagram : List UInt8),
    Reachable engine ∧ engine.closed = false ∧ engine.config.IsAccepted ∧
    engine.identity.key.IsStandard ∧ engine.state? peer = some .i2Sent ∧
    (engine.handlePacket datagram (.ofHost 2) 0).result = .error .badMac ∧
    engine.Blames 0 datagram .badMac ∧
    (engine.handlePacket datagram (.ofHost 2) 0).engine.state? peer = some .i2Sent := by
  obtain ⟨initiator, hinitiator⟩ := SampleHost.exists_isNew 1
  obtain ⟨responder, hresponder⟩ := SampleHost.exists_isNew 2
  let handshake := Handshake.prompt initiator responder 0
  have hconforms : handshake.Conforms := Handshake.conforms_sample hinitiator hresponder
  obtain ⟨puzzle, keys, hunderway⟩ := hconforms.underway
  obtain ⟨conn, hfind, hawaits⟩ := hunderway.awaits
  have hsolving := handshake.continues_beforeR2
  have haccepted : handshake.beforeR2.config.IsAccepted := by
    rw [hsolving.config]
    exact hconforms.nearlyCompatible.initiatorAccepted
  have hstandard : handshake.beforeR2.identity.key.IsStandard := by
    rw [hsolving.identity, show handshake.initiator.identity = _ from hinitiator.identity]
    exact SampleHost.isStandard_one
  -- the R2 of the responder, with a tag that is not the right one
  let theirs := responder.context 0
  let replying := Connection.fresh responder.hit initiator.hit (.ofHost 1)
  obtain ⟨tag, datagram, hparse, hwrong⟩ :=
    theirs.exists_forged_r2 replying hunderway.responderLength
  let mine := handshake.beforeR2.context (max handshake.beforeR2.lastNow 0)
  have hrefuses : mine.validateR2 conn.keys (theirs.r2Under replying tag).canonical =
      .error .badMac := by
    have hcurve : mine.identity.curve = theirs.identity.curve :=
      (congrArg HostIdentity.curve hsolving.identity).trans hconforms.nearlyCompatible.curve
    rw [hawaits.keys]
    exact Context.validateR2_r2Under hcurve hwrong
  have hreceive : Turn.receive ⟨conn, handshake.beforeR2.rng, []⟩ mine
      (theirs.r2Under replying tag).canonical = .error .badMac := by
    unfold Turn.receive
    rw [hawaits.state]
    exact bind_eq_error_iff.mpr (.inl hrefuses)
  obtain ⟨hresult, hengine⟩ := handlePacket_of_refused hunderway.initiatorOpen hparse
    hsolving.hit.symm (.ofHost 2) 0 hfind hreceive
  obtain ⟨hfaults, -⟩ := only_own_faults_surface hconforms.reachable_beforeR2
    hunderway.initiatorOpen haccepted hstandard
  obtain ⟨hblames, -⟩ := hfaults datagram (.ofHost 2) 0 _ hresult
  have hwaiting := state?_of_find? hfind hawaits.state
  exact ⟨handshake.beforeR2, responder.hit, datagram, hconforms.reachable_beforeR2,
    hunderway.initiatorOpen, haccepted, hstandard, hwaiting, hresult, hblames,
    (congrArg (·.state? responder.hit) hengine).trans hwaiting⟩

end Engine

end DietExchange
