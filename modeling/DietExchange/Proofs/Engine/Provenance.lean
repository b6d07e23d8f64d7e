import DietExchange.Proofs.Connection.Role
import DietExchange.Proofs.Engine.Completion
import Mathlib.Data.List.Induction

namespace DietExchange

/-- Whether keys are derived from what a host agrees on with the owner of a HOST_ID on its curve,
    with the HITs in the order of their roles. The HOST_ID belongs to the peer's HIT if the host
    cares. -/
structure KeySet.IsDerived (keys : KeySet) (party : Party) (peer : Hit) (id : HostId)
    (challenge : Block) : Prop where
  curve : id.curve = party.identity.curve
  identity : party.config.verifyHostIdentity → Hit.ofPublicKey id.publicKey = .ok peer
  derived : ∃ secret, party.identity.key.agree id.publicKey = .ok secret ∧
    KeyDerivation.derive secret (if keys.isInitiator then party.identity.hit else peer)
      (if keys.isInitiator then peer else party.identity.hit) challenge keys.isInitiator
      party.config.keyLengths = .ok keys

/-- Whether a challenge is one of an issuer's own for these hosts and is solved. -/
structure PuzzleIssuer.Accepts (issuer : PuzzleIssuer) (solution : Solution)
    (initiator responder : Hit) (complexity : UInt8) : Prop where
  challenge : ∃ secret ∈ issuer.window.secrets,
    challengeFor secret initiator responder [] = solution.challenge
  solved : solves solution.challenge solution.answer initiator responder complexity = true

theorem PuzzleIssuer.accepts_of_verify {issuer : PuzzleIssuer} {solution : Solution}
    {initiator responder : Hit} {complexity : UInt8}
    (hverify : issuer.verify solution.challenge solution.answer initiator responder complexity
      [] = true) :
    issuer.Accepts solution initiator responder complexity := by
  unfold PuzzleIssuer.verify at hverify
  split at hverify
  · cases hverify
  · obtain ⟨hwindow, hsolved⟩ := (Bool.and_eq_true _ _).mp hverify
    obtain ⟨secret, hmem, hchallenge⟩ := List.any_eq_true.mp hwindow
    exact ⟨⟨secret, hmem, beq_iff_eq.mp hchallenge⟩, hsolved⟩

namespace Context

variable {ctx : Context} {host peer : Hit} {packet : Packet} {keys : KeySet}

theorem AcceptsR1.isDerived {id : HostId} {puzzle : Puzzle}
    (haccepts : ctx.AcceptsR1 ctx.identity.hit peer packet id puzzle keys) :
    keys.isInitiator = true ∧ keys.IsDerived ctx.party peer id puzzle.challenge := by
  obtain ⟨hcurve, hidentity⟩ := checkHostId_eq_ok_iff.mp haccepts.identity
  obtain ⟨secret, hsecret, hderive⟩ := sessionKeys_eq_ok_iff.mp haccepts.derived
  have hrole := KeyDerivation.isInitiator_of_derive hderive
  refine ⟨hrole, hcurve, hidentity, secret, HostIdentity.sharedSecret_eq_ok_iff.mp hsecret, ?_⟩
  rw [hrole]
  exact hderive

theorem AcceptsI2.isDerived {id : HostId} {solution : Solution} {cipher : CipherSuite}
    (haccepts : ctx.AcceptsI2 ctx.identity.hit peer packet solution id keys cipher) :
    keys.isInitiator = false ∧ keys.IsDerived ctx.party peer id solution.challenge := by
  obtain ⟨hcurve, hidentity⟩ := checkHostId_eq_ok_iff.mp haccepts.identity
  obtain ⟨secret, hsecret, hderive⟩ := sessionKeys_eq_ok_iff.mp haccepts.derived
  have hrole := KeyDerivation.isInitiator_of_derive hderive
  refine ⟨hrole, hcurve, hidentity, secret, HostIdentity.sharedSecret_eq_ok_iff.mp hsecret, ?_⟩
  rw [hrole]
  exact hderive

end Context

namespace Engine

/-- Whether a packet for us was taken in the course of some calls, by the engine as it was then. -/
def Takes (start : Engine) (calls : List Call) (packet : Packet) (moment : Engine) : Prop :=
  ∃ front datagram source now back, calls = front ++ .handlePacket datagram source now :: back ∧
    moment = start.run front ∧ Packet.parse datagram = .ok packet ∧ packet.receiver = start.hit ∧
    (moment.handlePacket datagram source now).result = .ok ()

theorem Takes.append {start moment : Engine} {calls : List Call} {packet : Packet}
    (htakes : start.Takes calls packet moment) (more : List Call) :
    start.Takes (calls ++ more) packet moment := by
  obtain ⟨front, datagram, source, now, back, rfl, hrest⟩ := htakes
  exact ⟨front, datagram, source, now, back ++ more, by simp, hrest⟩

/-- Whether keys are those of an initiator that an R1 of the peer led to. -/
def Offered (start : Engine) (calls : List Call) (peer : Hit) (keys : KeySet) : Prop :=
  keys.isInitiator = true ∧ ∃ packet moment id puzzle, start.Takes calls packet moment ∧
    packet.kind = .r1 ∧ packet.sender = peer ∧ packet.hostId? = some id ∧
    packet.puzzle? = some puzzle ∧ keys.IsDerived start.party peer id puzzle.challenge

/-- Whether keys were proved by a packet of the peer: an R2 if we are the initiator, an I2 if we are
    the responder. In the first case the HOST_ID and the challenge come of an R1, in the second of
    the I2 itself, and the challenge was one of ours and solved. -/
def Proven (start : Engine) (calls : List Call) (peer : Hit) (keys : KeySet) : Prop :=
  ∃ packet moment id challenge, start.Takes calls packet moment ∧ packet.sender = peer ∧
    packet.kind = (if keys.isInitiator then .r2 else .i2) ∧
    packet.verifyMac keys.peers.integrity = .ok () ∧
    keys.IsDerived start.party peer id challenge ∧
    (keys.isInitiator = true → ∃ r1 earlier puzzle, start.Takes calls r1 earlier ∧ r1.kind = .r1 ∧
      r1.sender = peer ∧ r1.hostId? = some id ∧ r1.puzzle? = some puzzle ∧
      puzzle.challenge = challenge) ∧
    (keys.isInitiator = false → packet.hostId? = some id ∧ ∃ solution,
      packet.solution? = some solution ∧ solution.challenge = challenge ∧
      moment.issuer.Accepts solution peer start.hit start.config.puzzleComplexity)

theorem Offered.append {start : Engine} {calls : List Call} {peer : Hit} {keys : KeySet}
    (hoffered : start.Offered calls peer keys) (more : List Call) :
    start.Offered (calls ++ more) peer keys := by
  obtain ⟨hrole, packet, moment, id, puzzle, htakes, hrest⟩ := hoffered
  exact ⟨hrole, packet, moment, id, puzzle, htakes.append more, hrest⟩

theorem Proven.append {start : Engine} {calls : List Call} {peer : Hit} {keys : KeySet}
    (hproven : start.Proven calls peer keys) (more : List Call) :
    start.Proven (calls ++ more) peer keys := by
  obtain ⟨packet, moment, id, challenge, htakes, hsender, hkind, htag, hderived, hr1, hi2⟩ :=
    hproven
  refine ⟨packet, moment, id, challenge, htakes.append more, hsender, hkind, htag,
    hderived, ?_, hi2⟩
  intro hrole
  obtain ⟨r1, earlier, puzzle, hearlier, hrest⟩ := hr1 hrole
  exact ⟨r1, earlier, puzzle, hearlier.append more, hrest⟩

/-- What the calls so far say of the keys of a connection: those of a responder are proven as soon
    as they are there, those of an initiator in ESTABLISHED. -/
structure Traces (start : Engine) (calls : List Call) (conn : Connection) : Prop where
  pending : ∀ pending, conn.pending = some pending → start.Offered calls conn.peer pending.keys
  initiator : ∀ keys, conn.keys = some keys → keys.isInitiator = true →
    start.Offered calls conn.peer keys
  responder : ∀ keys, conn.keys = some keys → keys.isInitiator = false →
    start.Proven calls conn.peer keys
  established : conn.state = .established → ∀ keys, conn.keys = some keys →
    start.Proven calls conn.peer keys

theorem Traces.append {start : Engine} {calls : List Call} {conn : Connection}
    (htraces : start.Traces calls conn) (more : List Call) : start.Traces (calls ++ more) conn where
  pending pending hpending := (htraces.pending pending hpending).append more
  initiator keys hkeys hrole := (htraces.initiator keys hkeys hrole).append more
  responder keys hkeys hrole := (htraces.responder keys hkeys hrole).append more
  established hstate keys hkeys := (htraces.established hstate keys hkeys).append more

theorem traces_fresh (start : Engine) (calls : List Call) (host peer : Hit) (address : Address) :
    start.Traces calls (Connection.fresh host peer address) where
  pending _ hpending := by cases hpending
  initiator _ hkeys := by cases hkeys
  responder _ hkeys := by cases hkeys
  established hstate := by cases hstate

section Move

variable {start : Engine} {calls : List Call} {ctx : Context} {stimulus : Stimulus}
  {conn moved : Connection} (hparty : ctx.party = start.party) (hhost : conn.host = start.hit)
include hparty hhost

/-- An I2 that was answered proves the keys that it leads to. -/
theorem proven_of_i2 {packet : Packet} {moment : Engine} {keys : KeySet} {cipher : CipherSuite}
    (htakes : start.Takes calls packet moment) (hsender : packet.sender = conn.peer)
    (hissuer : ctx.issuer = moment.issuer)
    (hcomplexity : ctx.issuer.complexity = start.config.puzzleComplexity)
    (hkind : packet.kind = .i2) (hvalid : ctx.validateI2 conn.host conn.peer packet =
      .ok (keys, cipher)) : start.Proven calls conn.peer keys := by
  obtain ⟨solution, id, haccepts⟩ := Context.validateI2_eq_ok_iff.mp hvalid
  have hhit : conn.host = ctx.identity.hit :=
    hhost.trans (congrArg (·.identity.hit) hparty).symm
  rw [hhit] at haccepts
  obtain ⟨hrole, hderived⟩ := haccepts.isDerived
  have hsolved := PuzzleIssuer.accepts_of_verify haccepts.solved
  rw [hcomplexity, hissuer, ← hhit, hhost] at hsolved
  rw [hparty] at hderived
  refine ⟨packet, moment, id, solution.challenge, htakes, hsender, ?_, ?_, hderived, ?_, ?_⟩
  · rw [hrole]
    exact hkind
  · rw [KeySet.peers, hrole]
    exact haccepts.tag
  · intro hinitiator
    rw [hrole] at hinitiator
    cases hinitiator
  · exact fun _ => ⟨haccepts.hasHostId, solution, haccepts.hasSolution, rfl, hsolved⟩

/-- An R1 that is taken up leads to keys of an initiator. -/
theorem offered_of_r1 {packet : Packet} {moment : Engine} {puzzle : Puzzle} {keys : KeySet}
    (htakes : start.Takes calls packet moment) (hsender : packet.sender = conn.peer)
    (hkind : packet.kind = .r1)
    (hvalid : ctx.validateR1 conn.host conn.peer packet = .ok (puzzle, keys)) :
    start.Offered calls conn.peer keys := by
  obtain ⟨id, haccepts⟩ := Context.validateR1_eq_ok_iff.mp hvalid
  have hhit : conn.host = ctx.identity.hit := hhost.trans (congrArg (·.identity.hit) hparty).symm
  rw [hhit] at haccepts
  obtain ⟨hrole, hderived⟩ := haccepts.isDerived
  rw [hparty] at hderived
  exact ⟨hrole, packet, moment, id, puzzle, htakes, hkind, hsender, haccepts.hasHostId,
    haccepts.hasPuzzle, hderived⟩

omit hparty hhost in
/-- An R2 that is accepted proves the keys that an R1 led to. -/
theorem Offered.proven {peer : Hit} {keys : KeySet} (hoffered : start.Offered calls peer keys)
    {packet : Packet} {moment : Engine} (htakes : start.Takes calls packet moment)
    (hsender : packet.sender = peer) (hkind : packet.kind = .r2)
    (htag : packet.verifyMac keys.responder.integrity = .ok ()) : start.Proven calls peer keys := by
  obtain ⟨hrole, r1, earlier, id, puzzle, hr1, hkindR1, hsenderR1, hid, hpuzzle, hderived⟩ :=
    hoffered
  refine ⟨packet, moment, id, puzzle.challenge, htakes, hsender, ?_, ?_, hderived, ?_, ?_⟩
  · rw [hrole]
    exact hkind
  · rw [KeySet.peers, hrole]
    exact htag
  · exact fun _ => ⟨r1, earlier, puzzle, hr1, hkindR1, hsenderR1, hid, hpuzzle, rfl⟩
  · intro hresponder
    rw [hrole] at hresponder
    cases hresponder

/-- Every move is accounted for by what was taken so far. -/
theorem Traces.move (hform : conn.WellFormed) (hmove : conn.Move ctx stimulus moved)
    (htaken : ∀ packet, stimulus = .packet packet → packet.sender = conn.peer ∧
      ctx.issuer.complexity = start.config.puzzleComplexity ∧
      ∃ moment, start.Takes calls packet moment ∧ ctx.issuer = moment.issuer)
    (htraces : start.Traces calls conn) : start.Traces calls moved := by
  have hmoved := hform.move hmove
  obtain ⟨hpending, hinitiator, hresponder, hestablished⟩ := htraces
  rw [← hmove.peer_eq] at hpending hinitiator hresponder hestablished
  cases hmove.turns hform with
  | stay hkeys hsame hdone =>
    rw [← hkeys] at hinitiator hresponder hestablished
    refine ⟨fun later hlater => ?_, hinitiator, hresponder, fun hstate keys hheld => ?_⟩
    · obtain ⟨before, hbefore, -, heq⟩ := hsame later hlater
      rw [← heq]
      exact hpending before hbefore
    · cases hdone hstate with
      | inl hbefore => exact hestablished hbefore keys hheld
      | inr hresponds =>
        exact hresponder keys hheld ((Connection.responds_iff (hkeys ▸ hheld)).mp hresponds)
  | @takeUp packet puzzle keys search _ hkind hvalid _ hkeyless htaking =>
    obtain ⟨hsender, -, moment, htakes, -⟩ := htaken packet rfl
    have hnone : ∀ keys, moved.keys ≠ some keys := by simp [hkeyless]
    refine ⟨fun later hlater => ?_, fun keys hheld => absurd hheld (hnone keys),
      fun keys hheld => absurd hheld (hnone keys), fun _ keys hheld => absurd hheld (hnone keys)⟩
    obtain rfl := Option.some.inj (htaking.symm.trans hlater)
    rw [hmove.peer_eq]
    exact offered_of_r1 hparty hhost htakes hsender hkind hvalid
  | @initiate pending _ _ _ _ hbefore _ _ _ hstate hkeys hidle =>
    have hoffered := hpending pending hbefore
    refine ⟨fun later hlater => ?_, fun keys hheld _ => ?_, fun keys hheld hrole => ?_,
      fun hdone => ?_⟩
    · cases hidle.symm.trans hlater
    · obtain rfl := Option.some.inj (hkeys.symm.trans hheld)
      exact hoffered
    · obtain rfl := Option.some.inj (hkeys.symm.trans hheld)
      cases (hform.pending pending hbefore).2.symm.trans hrole
    · cases hstate.symm.trans hdone
  | @respond packet keys cipher _ _ hkind hvalid hstate hkeys hidle =>
    obtain ⟨hsender, hcomplexity, moment, htakes, hissuer⟩ := htaken packet rfl
    have hproven := proven_of_i2 hparty hhost htakes hsender hissuer hcomplexity hkind hvalid
    rw [← hmove.peer_eq] at hproven
    refine ⟨fun later hlater => ?_, fun held hheld hrole => ?_, fun held hheld _ => ?_,
      fun hdone => ?_⟩
    · cases hidle.symm.trans hlater
    · obtain rfl := Option.some.inj (hkeys.symm.trans hheld)
      cases (Connection.isInitiator_of_validateI2 hvalid).symm.trans hrole
    · obtain rfl := Option.some.inj (hkeys.symm.trans hheld)
      exact hproven
    · cases hstate.symm.trans hdone
  | @complete packet _ hkind hvalid hstate _ hkeys hidle =>
    rw [← hkeys] at hinitiator hresponder
    refine ⟨fun later hlater => ?_, hinitiator, hresponder, fun _ keys hheld => ?_⟩
    · cases hidle.symm.trans hlater
    · obtain ⟨hsender, -, moment, htakes, -⟩ := htaken packet rfl
      obtain ⟨-, -, held, hown, htag⟩ := Context.validateR2_eq_ok_iff.mp hvalid
      obtain rfl := Option.some.inj (hheld.symm.trans (hkeys.trans hown))
      obtain ⟨own, hsame, hrole⟩ := hform.i2Sent hstate
      obtain rfl := Option.some.inj (hown.symm.trans hsame)
      exact (hinitiator _ hheld hrole).proven htakes (hsender.trans hmove.peer_eq.symm) hkind htag

end Move

/-- What a call makes of the connections of a run is accounted for by the run and the call. -/
theorem Traces.moves {start : Engine} (hreachable : Reachable start) {calls : List Call}
    (htraces : ∀ conn ∈ (start.run calls).table.connections, start.Traces calls conn) {call : Call}
    {before moved : Connection} (hmoves : (start.run calls).Moves call before moved) :
    start.Traces (calls ++ [call]) moved := by
  have hrun := hreachable.run calls
  have hcontinues := start.continues_run calls
  have hcomplexity : (start.run calls).issuer.complexity = start.config.puzzleComplexity := by
    rw [hrun.issuer.1, hcontinues.config]
  have hparty : ∀ now, ((start.run calls).context now).party = start.party :=
    fun _ => hcontinues.party
  let Good (conn : Connection) : Prop :=
    conn.WellFormed ∧ conn.host = start.hit ∧ start.Traces (calls ++ [call]) conn
  have hold : ∀ conn ∈ (start.run calls).table.connections, Good conn := fun conn hmem =>
    ⟨hrun.wellFormed hmem, (hrun.host_eq hmem).trans hcontinues.hit, (htraces conn hmem).append _⟩
  have hfresh : ∀ peer address, Good (Connection.fresh (start.run calls).hit peer address) :=
    fun peer address => ⟨Connection.wellFormed_fresh _ _ _, hcontinues.hit, traces_fresh _ _ _ _ _⟩
  cases hmoves with
  | connect hoffers hmove =>
    obtain ⟨hform, hhost, hbefore⟩ := hoffers.preserves hold hfresh
    exact hbefore.move (hparty _) hhost hform hmove fun packet heq => by cases heq
  | @handlePacket datagram source now packet _ _ hparse hreceiver hresult hoffers hmove =>
    obtain ⟨hform, hhost, hbefore⟩ := hoffers.preserves hold hfresh
    have htakes : start.Takes (calls ++ [.handlePacket datagram source now]) packet
        (start.run calls) :=
      ⟨calls, datagram, source, now, [], rfl, rfl, hparse, hreceiver.trans hcontinues.hit, hresult⟩
    refine hbefore.move (hparty _) hhost hform hmove fun found heq => ?_
    obtain rfl := Stimulus.packet.inj heq
    exact ⟨hoffers.peer_eq.symm, hcomplexity, start.run calls, htakes, rfl⟩
  | @handleTimeout order now _ _ hmem helapses =>
    have hlater : (((start.run calls).after (.handleTimeout order now)).context now).party =
        start.party :=
      (hcontinues.trans (continues_after _ _)).party
    obtain ⟨hform, hhost, hbefore⟩ := hold _ hmem
    obtain ⟨stimulus, hpacket, hmove⟩ := helapses.exists_move hform
    exact hbefore.move hlater hhost hform hmove fun packet heq => absurd heq (hpacket packet)

/-- Every connection is accounted for by the calls that were made since the engine was new. -/
theorem traces_run {start : Engine} (hreachable : Reachable start) (hnew : start.table = .empty)
    (calls : List Call) : ∀ conn ∈ (start.run calls).table.connections,
    start.Traces calls conn := by
  induction calls using List.reverseRecOn with
  | nil =>
    intro conn hmem
    rw [show (start.run []).table = .empty from hnew] at hmem
    exact absurd hmem List.not_mem_nil
  | append_singleton calls call ih =>
    intro conn hmem
    rw [run_append] at hmem
    rcases ((start.run calls).after_spec call).connections conn hmem with
      hold | ⟨before, moved, hmoves, rfl⟩
    · exact (ih conn hold).append [call]
    · have hmoved := Traces.moves hreachable ih hmoves
      exact ⟨hmoved.pending, hmoved.initiator, hmoved.responder, hmoved.established⟩

/-- Whatever an engine was told to do since it was created: if the handshake with a peer is in
    ESTABLISHED, or in R2_SENT with keys, then the keys were proved to it by that peer. -/
theorem keys_are_proven {config : Config} {identity : HostIdentity} {source rest : EntropySource}
    {systemSeed : UInt64} {now : Nat} {start : Engine} {log : List Log.Event}
    (hcreate : create config identity source systemSeed now = (.ok (start, log), rest))
    (calls : List Call) {peer : Hit}
    (hstate : (start.run calls).state? peer = some .established ∨
      ((start.run calls).state? peer = some .r2Sent ∧ ((start.run calls).keys? peer).isSome)) :
    ∃ keys, (start.run calls).keys? peer = some keys ∧ start.Proven calls peer keys := by
  have hreachable : Reachable start := .create hcreate
  have hnew : start.table = .empty := (create_spec hcreate).2.2.1
  have htraces := traces_run hreachable hnew calls
  rcases hstate with hfound | ⟨hfound, hsome⟩
  · obtain ⟨conn, hfind, hestablished⟩ := Option.map_eq_some_iff.mp hfound
    obtain ⟨hmem, rfl⟩ := ConnectionTable.find?_eq_some_iff.mp hfind
    have hform := (hreachable.run calls).wellFormed hmem
    obtain ⟨keys, hkeys⟩ := Option.isSome_iff_exists.mp (hform.established hestablished)
    exact ⟨keys, keys?_of_find? hfind hkeys,
      (htraces conn hmem).established hestablished keys hkeys⟩
  · obtain ⟨conn, hfind, hr2Sent⟩ := Option.map_eq_some_iff.mp hfound
    obtain ⟨hmem, rfl⟩ := ConnectionTable.find?_eq_some_iff.mp hfind
    have hform := (hreachable.run calls).wellFormed hmem
    rw [keys?_of_find? hfind rfl] at hsome
    obtain ⟨keys, hkeys⟩ := Option.isSome_iff_exists.mp hsome
    have hrole := hform.r2Sent hr2Sent keys hkeys
    exact ⟨keys, keys?_of_find? hfind hkeys, (htraces conn hmem).responder keys hkeys hrole⟩

/-- Keys of the sample hosts, proven by the R2. -/
theorem exists_keys_proven : ∃ (start : Engine) (calls : List Call) (peer : Hit),
    (start.run calls).state? peer = some .established ∧
    ∃ keys, (start.run calls).keys? peer = some keys ∧ start.Proven calls peer keys := by
  obtain ⟨initiator, hinitiator⟩ := SampleHost.exists_isNew 1
  obtain ⟨responder, hresponder⟩ := SampleHost.exists_isNew 2
  have hconforms := Handshake.conforms_sample hinitiator hresponder
  obtain ⟨log, rest, hcreate⟩ := hinitiator.created
  obtain ⟨puzzle, keys, hunderway⟩ := hconforms.underway
  obtain ⟨-, -, -, conn, hfind, hdone⟩ := hconforms.concludes hunderway
  let handshake := Handshake.prompt initiator responder 0
  have hestablished : (initiator.run handshake.initiatorCalls).state? responder.hit =
      some .established := state?_of_find? hfind hdone.state
  exact ⟨initiator, handshake.initiatorCalls, responder.hit, hestablished,
    keys_are_proven hcreate _ (.inl hestablished)⟩

end Engine

end DietExchange
