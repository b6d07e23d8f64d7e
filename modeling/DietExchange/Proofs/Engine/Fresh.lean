import DietExchange.Proofs.Connection.Agreement
import DietExchange.Proofs.Engine.Invariant
import DietExchange.Proofs.Engine.Stage

namespace DietExchange

namespace ConnectionTable

theorem size_put_le (table : ConnectionTable) (conn : Connection) :
    (table.put conn).size ≤ table.size + 1 := by
  unfold put size
  split
  · have hlength := congrArg List.length (map_peer_replace conn table.connections)
    rw [List.length_map, List.length_map] at hlength
    exact Nat.le_succ_of_le (Nat.le_of_eq hlength)
  · exact Nat.le_of_eq List.length_append

/-- A table with no other peers is not larger. -/
theorem size_le_of_isSome {old new : ConnectionTable}
    (hfind : ∀ peer, (new.find? peer).isSome → (old.find? peer).isSome) : new.size ≤ old.size := by
  have hsubset : new.connections.map Connection.peer ⊆ old.connections.map Connection.peer :=
    fun peer hmem => find?_isSome_iff.mp (hfind peer (find?_isSome_iff.mpr hmem))
  have hlength := new.nodup.length_le_of_subset hsubset
  rwa [List.length_map, List.length_map] at hlength

/-- A table with the same peers and one more is larger. -/
theorem size_lt_of_isSome {old new : ConnectionTable}
    (hkept : ∀ peer, (old.find? peer).isSome → (new.find? peer).isSome) {peer : Hit}
    (hnone : old.find? peer = none) (hsome : (new.find? peer).isSome) : old.size < new.size := by
  have hnew : peer ∉ old.connections.map Connection.peer := by
    intro hmem
    have hold := find?_isSome_iff.mpr hmem
    rw [hnone] at hold
    cases hold
  have hsubset : peer :: old.connections.map Connection.peer ⊆ new.connections.map
      Connection.peer := by
    intro other hmem
    rcases List.mem_cons.mp hmem with rfl | hold
    · exact find?_isSome_iff.mp hsome
    · exact find?_isSome_iff.mp (hkept other (find?_isSome_iff.mpr hold))
  have hlength := (List.nodup_cons.mpr ⟨hnew, old.nodup⟩).length_le_of_subset hsubset
  rwa [List.length_cons, List.length_map, List.length_map] at hlength

end ConnectionTable

namespace Engine

theorem connectionCount_of_turned {engine after : Engine} {stimulus : Stimulus} {peer : Hit}
    {address : Address} {now : Nat}
    (hturned : (engine.advance now).Turned stimulus peer address after) :
    after.connectionCount ≤ engine.connectionCount + 1 := by
  obtain ⟨-, ⟨htable, -⟩ | ⟨conn, moved, -, -, -, -, ⟨htable, -⟩ | ⟨htable, -⟩⟩⟩ := hturned.effect
  · rw [connectionCount, htable]
    exact Nat.le_succ _
  · rw [connectionCount, htable]
    exact ConnectionTable.size_put_le _ _
  · rw [connectionCount, htable]
    exact Nat.le_succ _

theorem connectionCount_after_le (engine : Engine) (call : Call) :
    (engine.after call).connectionCount ≤ engine.connectionCount + 1 := by
  have hbecomes := engine.becomes_after call
  generalize engine.after call = after at hbecomes ⊢
  cases hbecomes with
  | idle | polled | dropped => exact Nat.le_succ _
  | connected _ hturned | received _ _ _ hturned => exact connectionCount_of_turned hturned
  | elapsed _ helapsed =>
    refine Nat.le_succ_of_le (ConnectionTable.size_le_of_isSome fun peer hsome => ?_)
    rw [helapsed.find, Option.isSome_map] at hsome
    exact hsome
  | closed => exact Nat.zero_le _

/-- A packet brings the time that it arrives at, whatever comes of it. -/
theorem lastNow_handlePacket {engine : Engine} (hopen : engine.closed = false)
    (datagram : List UInt8) (source : Address) (now : Nat) :
    (engine.after (.handlePacket datagram source now)).lastNow = max engine.lastNow now := by
  rcases handlePacket_cases hopen datagram source now with hadvance | ⟨packet, -, -, hturned⟩
  · exact congrArg Engine.lastNow hadvance
  · exact hturned.effect.1.lastNow

/-- An engine is created if there is a key agreement and the source of secrets answers, once when it
    is tried and once for the first puzzle secret. -/
theorem exists_create (config : Config) (source : EntropySource) {probe secret : Block}
    (hagreements : config.agreements.isEmpty = false)
    (hcomplexity : config.puzzleComplexity ≤ maxComplexity)
    (hprobe : source.answer source.calls = .ok probe)
    (hsecret : source.answer (source.calls + 1) = .ok secret) (identity : HostIdentity)
    (systemSeed : UInt64) (now : Nat) :
    ∃ engine log rest, create config identity source systemSeed now = (.ok (engine, log), rest) ∧
      engine.lastNow = now := by
  have hhelpers : config.checkHelpers source = (.ok (), source.draw.2) := by
    unfold Config.checkHelpers
    rw [hagreements, if_neg Bool.false_ne_true, EntropySource.draw, hprobe]
  have hissuer : PuzzleIssuer.create config.puzzleComplexity source.draw.2 =
      (.ok ⟨config.puzzleComplexity, 0, SecretWindow.empty.push secret⟩, source.draw.2.draw.2) := by
    unfold PuzzleIssuer.create PuzzleIssuer.freshSecret
    rw [if_neg (UInt8.not_lt.mpr hcomplexity), EntropySource.draw, EntropySource.answer_draw,
      EntropySource.calls_draw, hsecret]
  unfold create
  rw [hhelpers]
  dsimp only
  rw [hissuer]
  exact ⟨_, _, _, rfl, rfl⟩

end Engine

/-! Two hosts with known keys -/

namespace SampleHost

/-- The options of both: the standard ones, but for puzzles that every answer solves. -/
def config : Config := { Config.standard with puzzleComplexity := 0, rngSeed := some 1 }

/-- The host whose private key on P-256 is this scalar. -/
def identity (scalar : Nat) : HostIdentity :=
  let arithmetic := NamedCurve.p256.arithmetic
  let point := (arithmetic.multiply? scalar arithmetic.base).getD arithmetic.base
  let key := NamedCurve.p256.keyPair scalar point
  ⟨(Hit.ofPublicKey? key.publicKey).getD Hit.zero, key⟩

def party (scalar : Nat) : Party := ⟨config, identity scalar⟩

theorem isAccepted_config : config.IsAccepted := Config.checkOptions_eq_ok_iff.mp rfl

theorem hasCurveKey (scalar : Nat) : (identity scalar).HasCurveKey :=
  Weierstrass.length_encodePoint _ _

/-- The key of the first sample host is one of the library's. -/
theorem isStandard_one : (identity 1).key.IsStandard := by
  refine ⟨NamedCurve.p256.agreement, List.mem_cons_self, bigEndian 32 1, ?_⟩
  have hscalar : NamedCurve.p256.scalar? (bigEndian 32 1) = some 1 := by decide +kernel
  have hpoint :
      (NamedCurve.p256.arithmetic.multiply? 1 NamedCurve.p256.arithmetic.base).isSome := by
    decide +kernel
  obtain ⟨point, hpoint⟩ := Option.isSome_iff_exists.mp hpoint
  change NamedCurve.p256.load (bigEndian 32 1) = _
  unfold NamedCurve.load identity
  simp only [hscalar, hpoint, Option.bind_eq_bind, Option.bind_some, Option.pure_def,
    Option.getD_some]

theorem hit_one_lt_two : (identity 1).hit < (identity 2).hit := by decide +kernel

theorem ofPublicKey_one : Hit.ofPublicKey (identity 1).publicKey = .ok (identity 1).hit := by
  have hit : Hit.ofPublicKey? (identity 1).publicKey = some (identity 1).hit := by decide +kernel
  rw [Hit.ofPublicKey, hit]

theorem ofPublicKey_two : Hit.ofPublicKey (identity 2).publicKey = .ok (identity 2).hit := by
  have hit : Hit.ofPublicKey? (identity 2).publicKey = some (identity 2).hit := by decide +kernel
  rw [Hit.ofPublicKey, hit]

/-- What the two hosts agree on. -/
theorem exists_secret : ∃ secret, (identity 1).key.agree (identity 2).publicKey = .ok secret ∧
    (identity 2).key.agree (identity 1).publicKey = .ok secret := by
  let secret := ((identity 1).key.agree (identity 2).publicKey).toOption.getD []
  have hone : ((identity 1).key.agree (identity 2).publicKey).toOption = some secret := by
    decide +kernel
  have htwo : ((identity 2).key.agree (identity 1).publicKey).toOption = some secret := by
    decide +kernel
  exact ⟨secret, eq_ok_of_toOption hone, eq_ok_of_toOption htwo⟩

theorem compatible_of {initiator responder : Nat}
    (hdistinct : (identity initiator).hit ≠ (identity responder).hit)
    (hinitiator : Hit.ofPublicKey (identity initiator).publicKey = .ok (identity initiator).hit)
    (hresponder : Hit.ofPublicKey (identity responder).publicKey = .ok (identity responder).hit)
    (hagreement : ∃ secret, (identity initiator).key.agree (identity responder).publicKey =
      .ok secret ∧ (identity responder).key.agree (identity initiator).publicKey = .ok secret) :
    (party initiator).Compatible (party responder) where
  distinct := hdistinct
  curve := rfl
  lengths := rfl
  initiatorAccepted := isAccepted_config
  responderAccepted := isAccepted_config
  initiatorKey := hasCurveKey _
  responderKey := hasCurveKey _
  initiatorIdentity _ := hinitiator
  responderIdentity _ := hresponder
  complexity := isAccepted_config.complexity
  cipher := ⟨.aes128Cbc, List.mem_singleton_self _, rfl, List.mem_singleton_self _⟩
  unsolicited := rfl
  agreement := hagreement

theorem distinct : (identity 1).hit ≠ (identity 2).hit := by
  intro heq
  have hlt := hit_one_lt_two
  rw [heq, Hit.lt_def] at hlt
  exact Nat.lt_irrefl _ hlt

/-- Two hosts that fit together. -/
theorem compatible : (party 1).Compatible (party 2) :=
  compatible_of distinct ofPublicKey_one ofPublicKey_two exists_secret

theorem compatible_symm : (party 2).Compatible (party 1) := by
  obtain ⟨secret, hone, htwo⟩ := exists_secret
  exact compatible_of distinct.symm ofPublicKey_two ofPublicKey_one ⟨secret, htwo, hone⟩

/-- The engine of one of them when it is new. -/
structure IsNew (scalar : Nat) (engine : Engine) : Prop where
  created : ∃ log rest,
    Engine.create config (identity scalar) (EntropySource.scripted [] scalar) 0 0 =
    (.ok (engine, log), rest)
  config : engine.config = SampleHost.config
  identity : engine.identity = SampleHost.identity scalar
  table : engine.table = .empty
  isOpen : engine.closed = false
  lastNow : engine.lastNow = 0

theorem exists_isNew (scalar : Nat) : ∃ engine, IsNew scalar engine := by
  let source := EntropySource.scripted [] scalar
  obtain ⟨engine, log, rest, hcreate, hnow⟩ :=
    Engine.exists_create config source rfl (by decide) rfl
    rfl (identity scalar) 0 0
  obtain ⟨hconfig, hidentity, htable, -, -, hopen, -⟩ := Engine.create_spec hcreate
  exact ⟨engine, ⟨log, rest, hcreate⟩, hconfig, hidentity, htable, hopen, hnow⟩

namespace IsNew

variable {scalar : Nat} {engine : Engine} (hnew : IsNew scalar engine)
include hnew

theorem reachable : engine.Reachable := by
  obtain ⟨log, rest, hcreate⟩ := hnew.created
  exact .create hcreate

theorem find?_eq_none (peer : Hit) : engine.table.find? peer = none := by
  rw [hnew.table]
  rfl

theorem hit_eq : engine.hit = (SampleHost.identity scalar).hit :=
  congrArg HostIdentity.hit hnew.identity

theorem room : engine.connectionCount + 3 < engine.config.maxConnections := by
  rw [Engine.connectionCount, hnew.table, hnew.config]
  decide

end IsNew

/-- The engine of one of them when it knows no peer. Its suites may be others, and it may have been
    told a time before. -/
structure IsIdle (suites : List CipherSuite) (scalar now : Nat) (engine : Engine) : Prop where
  reachable : engine.Reachable
  config : engine.config = { SampleHost.config with cipherSuites := suites }
  identity : engine.identity = SampleHost.identity scalar
  table : engine.table = .empty
  isOpen : engine.closed = false
  lastNow : engine.lastNow = now

theorem exists_isIdle (suites : List CipherSuite) (scalar now : Nat) :
    ∃ engine, IsIdle suites scalar now engine := by
  let source := EntropySource.scripted [] scalar
  have hcomplexity : config.puzzleComplexity ≤ maxComplexity := by decide
  obtain ⟨engine, log, rest, hcreate, hnow⟩ := Engine.exists_create
    { config with cipherSuites := suites } source rfl hcomplexity rfl rfl (identity scalar) 0 now
  obtain ⟨hconfig, hidentity, htable, -, -, hopen, -⟩ := Engine.create_spec hcreate
  exact ⟨engine, .create hcreate, hconfig, hidentity, htable, hopen, hnow⟩

theorem IsNew.isIdle {scalar : Nat} {engine : Engine} (hnew : IsNew scalar engine) :
    IsIdle [.aes128Cbc] scalar 0 engine where
  reachable := hnew.reachable
  config := hnew.config
  identity := hnew.identity
  table := hnew.table
  isOpen := hnew.isOpen
  lastNow := hnew.lastNow

/-- Nothing but the suites of the two hosts can be in the way of a handshake. -/
theorem nearlyCompatible (ours theirs : List CipherSuite) : Party.NearlyCompatible
    ⟨{ config with cipherSuites := ours }, identity 1⟩
    ⟨{ config with cipherSuites := theirs }, identity 2⟩ :=
  { compatible.toNearlyCompatible with
    initiatorAccepted := Config.checkOptions_eq_ok_iff.mp rfl
    responderAccepted := Config.checkOptions_eq_ok_iff.mp rfl }

/-- One of them can begin a handshake with the other. -/
theorem exists_waiting : ∃ engine : Engine, engine.Reachable ∧ engine.closed = false ∧
    engine.party = party 1 ∧
    ∃ conn, engine.table.find? (identity 2).hit = some conn ∧ conn.AwaitsR1 := by
  obtain ⟨engine, hnew⟩ := exists_isNew 1
  let peer := (identity 2).hit
  have hpeer : peer ≠ engine.hit := hnew.hit_eq ▸ distinct.symm
  have hroom : engine.connectionCount < engine.config.maxConnections :=
    Nat.lt_of_le_of_lt (Nat.le_add_right _ 3) hnew.room
  obtain ⟨-, -, -, conn, -, -, -, -, -, hfind, hawaits, hopen, -⟩ :=
    Engine.connect_sends_i1 hnew.isOpen hpeer (hnew.find?_eq_none peer) hroom (.ofHost 2) 0
  have hparty : engine.party = party 1 := by
    rw [Engine.party, hnew.config, hnew.identity]
    rfl
  exact ⟨_, hnew.reachable.after (.connect peer (.ofHost 2) 0), hopen,
    (engine.continues_after _).party.trans hparty, conn, hfind, hawaits⟩

theorem exists_asking : ∃ engine : Engine, engine.Reachable ∧ engine.closed = false ∧
    engine.identity = identity 1 ∧
    ∃ conn, engine.table.find? (identity 2).hit = some conn ∧ conn.AwaitsR1 := by
  obtain ⟨engine, hreachable, hopen, hparty, hwaits⟩ := exists_waiting
  exact ⟨engine, hreachable, hopen, congrArg Party.identity hparty, hwaits⟩

end SampleHost

end DietExchange
