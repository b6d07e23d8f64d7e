import DietExchange.Proofs.Engine.Admission
import DietExchange.Proofs.Engine.History

namespace DietExchange.Engine

/-- Whether an action opens a connection with a peer, unless there is one already. -/
def Opens (peer : Hit) (engine : Engine) : Action → Prop
  | .connect other _ _ => other = peer ∧ peer ≠ engine.hit ∧
    engine.connectionCount < engine.config.maxConnections
  | .handlePacket datagram _ now => ∃ packet, Packet.parse datagram = .ok packet ∧
    packet.sender = peer ∧ engine.Admits packet (max engine.lastNow now)
  | .handleTimeout .. | .pollOutput .. => False

section Opens

variable {engine : Engine}

theorem isSome_find?_connect_iff (hopen : engine.closed = false) (other : Hit) (address : Address)
    (now : Nat) (peer : Hit) :
    ((engine.connect other address now).engine.table.find? peer).isSome ↔
      engine.Opens peer (.connect other address now) ∨ (engine.table.find? peer).isSome := by
  have hturned := connect_cases hopen other address now
  constructor
  · intro hsome
    rcases (hturned.isSome_find? peer).2 hsome with rfl | hold
    · cases hfind : engine.table.find? peer with
      | some conn => exact .inr rfl
      | none =>
        left
        refine ⟨rfl, ?_, ?_⟩
        · rintro rfl
          rw [connect_ownHit, hfind] at hsome
          cases hsome
        · obtain ⟨-, ⟨htable, -⟩ | ⟨conn, moved, hoffers, -⟩⟩ := hturned.effect
          · rw [htable, show (engine.advance now).table.find? peer = none from hfind] at hsome
            cases hsome
          · rcases hoffers with hknown | ⟨-, hroom, -⟩
            · cases hfind.symm.trans hknown
            · exact hroom
    · exact .inr hold
  · rintro (⟨rfl, hother, hroom⟩ | hold)
    · cases hfind : engine.table.find? other with
      | some conn => exact (hturned.isSome_find? other).1 (Option.isSome_of_eq_some hfind)
      | none =>
        have hoffers : engine.Offers other address (Connection.fresh engine.hit other address) :=
          .inr ⟨hfind, hroom, rfl⟩
        obtain ⟨-, moved, hmove, habsorbs⟩ := connect_offered hopen hother hoffers rfl now
        exact Option.isSome_of_eq_some (habsorbs.find_moved (hmove.peer_eq.trans hoffers.peer_eq))
    · exact (hturned.isSome_find? peer).1 hold

/-- A packet that may open a connection with its sender does so. -/
theorem Admits.isSome_find? (hreachable : Reachable engine) (hopen : engine.closed = false)
    {datagram : List UInt8} {packet : Packet} (hparse : Packet.parse datagram = .ok packet)
    {now : Nat} (hadmits : engine.Admits packet (max engine.lastNow now))
    (hnone : engine.table.find? packet.sender = none) (source : Address) :
    ((engine.handlePacket datagram source now).engine.table.find? packet.sender).isSome := by
  obtain ⟨keys, cipher, hvalid⟩ := hadmits.valid
  obtain ⟨-, replying, moved, sealed, address, r2, habsorbs, hpeer, -⟩ :=
    i2_is_taken hreachable hopen hparse hadmits.kind rfl hadmits.receiver
      (fun _ => hadmits.unsolicited) (.inl ⟨hnone, hadmits.room⟩) hvalid
      (Context.isKeyLength_of_validateI2 hvalid) source
  exact Option.isSome_of_eq_some (habsorbs.find_moved hpeer)

theorem isSome_find?_handlePacket_iff (hreachable : Reachable engine)
    (hopen : engine.closed = false) (datagram : List UInt8) (source : Address) (now : Nat)
    (peer : Hit) : ((engine.handlePacket datagram source now).engine.table.find? peer).isSome ↔
      engine.Opens peer (.handlePacket datagram source now) ∨ (engine.table.find? peer).isSome := by
  have hcall : Call.handlePacket datagram source now ≠ .close := by simp
  have hkeeps : (engine.table.find? peer).isSome →
      ((engine.handlePacket datagram source now).engine.table.find? peer).isSome :=
    isSome_find?_after hcall
  cases hfind : engine.table.find? peer with
  | some conn =>
    rw [hfind] at hkeeps
    exact iff_of_true (hkeeps rfl) (.inr rfl)
  | none =>
    constructor
    · exact fun hsome => .inl (exists_admits hfind hsome)
    · rintro (⟨packet, hparse, rfl, hadmits⟩ | hold)
      · exact hadmits.isSome_find? hreachable hopen hparse hfind source
      · cases hold

/-- An action leaves the peers that there were in the table and adds the one that it opens a
    connection with. -/
theorem isSome_find?_act_iff (hreachable : Reachable engine) (hopen : engine.closed = false)
    {action : Action} (hallows : engine.Allows action) (peer : Hit) :
    ((engine.act action).table.find? peer).isSome ↔
      engine.Opens peer action ∨ (engine.table.find? peer).isSome := by
  cases action with
  | connect other address now => exact isSome_find?_connect_iff hopen other address now peer
  | handlePacket datagram source now =>
    exact isSome_find?_handlePacket_iff hreachable hopen datagram source now peer
  | handleTimeout peers now =>
    rw [Opens, false_or]
    exact isSome_find?_handleTimeoutIn hallows now peer
  | pollOutput room =>
    rw [Opens, false_or]
    change ((engine.pollOutput room).2.table.find? peer).isSome ↔ _
    rw [(engine.pollOutput_spec room).1]

end Opens

section Run

variable {config : Config} {identity : HostIdentity} {source rest : EntropySource}
  {systemSeed : UInt64} {start : Nat} {engine : Engine} {log : List Log.Event}
  (hcreate : create config identity source systemSeed start = (.ok (engine, log), rest))
  {actions : List Action} (hallows : engine.AllowsAll actions)
include hcreate hallows

/-- A peer is in the table exactly if one of the actions opened a connection with it. -/
theorem isSome_find?_actAll_iff (peer : Hit) : ((engine.actAll actions).table.find? peer).isSome ↔
    ∃ front action back, actions = front ++ action :: back ∧
      (engine.actAll front).Opens peer action := by
  obtain ⟨-, -, htable, -, -, hopen, -⟩ := create_spec hcreate
  have hfirst : ¬(engine.table.find? peer).isSome := by
    rw [htable]
    exact Bool.false_ne_true
  rw [holds_actAll_iff (P := fun engine => (engine.table.find? peer).isSome) (Opens peer)
    (fun _ _ => False) (.create hcreate) hopen hfirst ?step hallows]
  case step =>
    intro before action hreachable hstill _ _ hallowed
    rw [isSome_find?_act_iff hreachable hstill hallowed]
    simp
  simp [Since]

/-- Our own tag is in the table exactly if an I2 in our own name passed every check: a connect to
    ourselves is refused, but a packet from ourselves is not. A closed engine has no table left. -/
theorem own_hit_enters_iff :
    (((engine.actAll actions).table.find? engine.hit).isSome ↔
      ∃ front datagram address now back packet,
        actions = front ++ .handlePacket datagram address now :: back ∧
        Packet.parse datagram = .ok packet ∧ packet.sender = engine.hit ∧
        (engine.actAll front).Admits packet (max (engine.actAll front).lastNow now)) ∧
    ∀ later, (((engine.actAll actions).after .close).actAll later).table = .empty := by
  obtain ⟨-, -, -, -, -, hopen, -⟩ := create_spec hcreate
  refine ⟨?_, table_actAll_of_closed (closed_actAll hopen hallows)⟩
  rw [isSome_find?_actAll_iff hcreate hallows]
  constructor
  · rintro ⟨front, action, back, hsplit, hopens⟩
    cases action with
    | connect other address now => exact absurd (engine.continues_actAll front).hit.symm hopens.2.1
    | handlePacket datagram address now =>
      obtain ⟨packet, hparse, hsender, hadmits⟩ := hopens
      exact ⟨front, datagram, address, now, back, packet, hsplit, hparse, hsender, hadmits⟩
    | handleTimeout | pollOutput => exact hopens.elim
  · rintro ⟨front, datagram, address, now, back, packet, hsplit, hparse, hsender, hadmits⟩
    exact ⟨front, .handlePacket datagram address now, back, hsplit, packet, hparse,
      hsender, hadmits⟩

end Run

section Forger

variable {engine : Engine} {forger : HostIdentity} (hkey : forger.HasCurveKey)
  (hcurve : forger.curve = engine.identity.curve)
  (hagrees : ∃ shared, engine.identity.key.agree forger.publicKey = .ok shared)
  (hidentity : engine.config.verifyHostIdentity → Hit.ofPublicKey forger.publicKey = .ok engine.hit)
include hkey hcurve hagrees hidentity

/-- Whoever has a key that we take for our own, and an answer to a challenge for ourselves, can make
    an I2 in our name. Where identities are not verified, any key will do. -/
theorem exists_admits_own (haccepted : engine.config.IsAccepted)
    (hunsolicited : engine.config.acceptUnsolicited = true)
    (hroom : engine.connectionCount < engine.config.maxConnections)
    (hcipher : ∃ suite ∈ engine.config.cipherSuites, suite.IsCanonical ∧
      suite.code ∈ (engine.config.cipherSuites.take maxCipherSuites).map CipherSuite.code)
    (hcomplexity : engine.issuer.complexity = engine.config.puzzleComplexity)
    {secret answer : Block} (hmem : secret ∈ engine.issuer.window.secrets)
    (hsolves : solves (challengeFor secret engine.hit engine.hit []) answer engine.hit engine.hit
      engine.issuer.complexity = true) (now : Nat) :
    ∃ datagram packet, Packet.parse datagram = .ok packet ∧ packet.sender = engine.hit ∧
      engine.Admits packet now := by
  obtain ⟨shared, hshared⟩ := hagrees
  let challenge := challengeFor secret engine.hit engine.hit []
  obtain ⟨keys, hderive, hlength, -⟩ := KeyDerivation.exists_derive haccepted.encryption
    haccepted.integrity shared engine.hit engine.hit challenge false
  have hkeys : (engine.context now).sessionKeys forger.publicKey engine.hit engine.hit
      challenge false = .ok keys :=
    Context.sessionKeys_eq_ok_iff.mpr
      ⟨shared, HostIdentity.sharedSecret_eq_ok_iff.mpr hshared, hderive⟩
  -- the forger is a host with our options, our tag and a key of its own
  let theirs : Context := { engine.context now with identity := forger }
  let conn := Connection.fresh engine.hit engine.hit (.ofHost 2)
  let puzzle : Puzzle := ⟨engine.issuer.complexity, defaultLifetime, 0, challenge⟩
  have hsealable : Config.IsKeyLength keys.initiator.integrity.length := by
    rw [hlength]
    exact haccepted.integrity
  have htheirs : theirs.identity.HasCurveKey := hkey
  obtain ⟨sealed, datagram, hseal, hencode⟩ :=
    Context.exists_seal_i2 htheirs conn puzzle answer hsealable
  obtain ⟨hkind, hsender, hreceiver⟩ := Context.header_i2 none hseal
  have hmaximum : engine.issuer.complexity ≤ maxComplexity := by
    rw [hcomplexity]
    exact UInt8.le_trans haccepted.complexity haccepted.maximum
  obtain ⟨cipher, hselect⟩ := CipherOffer.exists_select? hcipher
  refine ⟨datagram, _, Context.parse_i2 none htheirs hseal hencode, hsender, hkind, hreceiver,
    hunsolicited, hroom, keys, cipher, Context.validateI2_eq_ok_iff.mpr
      ⟨⟨puzzle.k, puzzle.cookie, puzzle.challenge, answer⟩,
        HostId.ofKey forger.curve forger.publicKey, ?_⟩⟩
  rw [show (sealed.withEcho none).canonical.sender = engine.hit from hsender]
  exact {
    mandatory := Context.checkMandatory_i2 hseal
    hasSolution := Context.solution?_i2 hseal
    solved := verify_of_mem hmem rfl hmaximum hsolves
    hasHostId := Context.hostId?_i2 hseal
    identity := Context.checkHostId_eq_ok_iff.mpr ⟨hcurve, hidentity⟩
    derived := hkeys
    tag := Context.verifyMac_i2 hseal
    selected := ⟨_, Context.hipCipher?_i2 hseal, hselect⟩ }

end Forger

/-- The second sample host can make an I2 in the name of the first, if that one does not verify
    identities. -/
theorem exists_sample_forgery : ∃ (config : Config) (engine : Engine) (log : List Log.Event)
    (source rest : EntropySource) (datagram : List UInt8) (packet : Packet),
    create config (SampleHost.identity 1) source 0 0 = (.ok (engine, log), rest) ∧
    Packet.parse datagram = .ok packet ∧ packet.sender = engine.hit ∧
    engine.Admits packet (max engine.lastNow 0) := by
  let config : Config := { SampleHost.config with verifyHostIdentity := false }
  obtain ⟨engine, log, rest, hcreate, -⟩ := exists_create config (EntropySource.scripted [] 1) rfl
    (by decide) rfl rfl (SampleHost.identity 1) 0 0
  obtain ⟨hconfig, hown, htable, -, -, hopen, hcomplexity, secret, hwindow⟩ := create_spec hcreate
  obtain ⟨shared, hshared, -⟩ := SampleHost.exists_secret
  have hcurve : (SampleHost.identity 2).curve = engine.identity.curve := by
    rw [hown]
    exact SampleHost.compatible.curve.symm
  have hagrees : engine.identity.key.agree (SampleHost.identity 2).publicKey = .ok shared := by
    rw [hown]
    exact hshared
  have hroom : engine.connectionCount < engine.config.maxConnections := by
    rw [connectionCount, htable, hconfig]
    decide
  have hmem : secret ∈ engine.issuer.window.secrets := by
    rw [hwindow]
    exact List.mem_cons_self
  have hsolves : solves (challengeFor secret engine.hit engine.hit []) Block.zero engine.hit
      engine.hit engine.issuer.complexity = true := by
    rw [hcomplexity]
    rfl
  obtain ⟨datagram, packet, hparse, hsender, hadmits⟩ := exists_admits_own
    (SampleHost.hasCurveKey 2) hcurve ⟨shared, hagrees⟩ (by simp [hconfig, config])
    (hconfig ▸ Config.checkOptions_eq_ok_iff.mp rfl) (hconfig ▸ rfl) hroom
    (hconfig ▸ ⟨.aes128Cbc, List.mem_singleton_self _, rfl, List.mem_singleton_self _⟩)
    (hconfig ▸ hcomplexity) hmem hsolves (max engine.lastNow 0)
  exact ⟨config, engine, log, _, rest, datagram, packet, hcreate, hparse, hsender, hadmits⟩

/-- So our own tag can get into the table. -/
theorem exists_own_hit_entered : ∃ (config : Config) (source rest : EntropySource) (engine : Engine)
    (log : List Log.Event) (actions : List Action),
    create config (SampleHost.identity 1) source 0 0 = (.ok (engine, log), rest) ∧
    engine.AllowsAll actions ∧ ((engine.actAll actions).table.find? engine.hit).isSome := by
  obtain ⟨config, engine, log, source, rest, datagram, packet, hcreate, hparse, hsender, hadmits⟩ :=
    exists_sample_forgery
  have hallows : engine.AllowsAll [.handlePacket datagram (.ofHost 9) 0] := ⟨trivial, trivial⟩
  exact ⟨config, source, rest, engine, log, _, hcreate, hallows,
    (own_hit_enters_iff hcreate hallows).1.mpr
      ⟨[], datagram, (.ofHost 9), 0, [], packet, rfl, hparse, hsender, hadmits⟩⟩

/-- It is not so that an engine never has a connection with itself. -/
theorem not_forall_own_hit_absent :
    ¬∀ engine : Engine, Reachable engine → engine.table.find? engine.hit = none := by
  intro habsent
  obtain ⟨config, engine, log, source, rest, datagram, packet, hcreate, hparse, hsender, hadmits⟩ :=
    exists_sample_forgery
  obtain ⟨-, -, htable, -, -, hopen, -⟩ := create_spec hcreate
  have hreachable : Reachable engine := .create hcreate
  have hnone : engine.table.find? packet.sender = none := by
    rw [htable]
    rfl
  have hsome := hadmits.isSome_find? hreachable hopen hparse hnone (.ofHost 9)
  have hgone := habsent _ (hreachable.after (.handlePacket datagram (.ofHost 9) 0))
  rw [hit_after, ← hsender] at hgone
  rw [show (engine.handlePacket datagram (.ofHost 9) 0).engine.table.find? packet.sender =
    none from hgone] at hsome
  cases hsome

end DietExchange.Engine
