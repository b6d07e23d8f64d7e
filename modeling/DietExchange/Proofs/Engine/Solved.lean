import DietExchange.Proofs.Engine.Solving

namespace DietExchange

/-- The size of an I2 is the same at all times of an engine. -/
theorem Context.i2Length_congr {ctx other : Context} (hconfig : ctx.config = other.config)
    (hidentity : ctx.identity = other.identity) : ctx.i2Length = other.i2Length := by
  funext echo
  rw [i2Length, i2Length, hconfig, hidentity]

namespace Engine

/-! ### The two ends of a solved puzzle -/

/-- The I2 that answers the puzzle was queued, and nothing else for this peer, and these keys are
    held. -/
structure SendsI2 (engine after : Engine) (peer : Hit) (puzzle : Puzzle) (keys : KeySet)
    (echo : Option (List UInt8)) (answer : Block) : Prop where
  queued : ∃ out i2, engine.QueuesFor after peer [out] ∧ Packet.parse out.datagram = .ok i2 ∧
    i2.Answers engine.hit peer puzzle keys echo answer
  state : after.state? peer = some .i2Sent
  keys : after.keys? peer = some keys

/-- Nothing was queued for this peer, and its puzzle is gone while an R1 is waited for again. -/
structure LosesPuzzle (engine after : Engine) (peer : Hit) : Prop where
  queued : engine.QueuesFor after peer []
  state : after.state? peer = some .i1Sent
  keys : after.keys? peer = none
  idle : ¬after.IsSolving peer

section Finds

variable {engine : Engine} {peers : List Hit} {now : Nat} {peer : Hit} {answer : Block}
  {conn : Connection} {puzzle : Puzzle} {keys : KeySet} {echo : Option (List UInt8)}
  (hreachable : Reachable engine) (hkey : engine.identity.HasCurveKey)
  (horder : peers.Perm engine.table.peers) (hfinds : engine.Finds peers now peer answer)
  (hfind : engine.table.find? peer = some conn) (hworks : conn.Works puzzle keys echo)
include hreachable hkey horder hfinds hfind hworks

/-- What the timeout does is the step of the search that comes upon the J of this puzzle. -/
theorem exists_solveStep : ∃ (ctx : Context) (turn : Turn) (search : PuzzleSearch),
    ctx.config = engine.config ∧ ctx.identity = engine.identity ∧ turn.conn = conn ∧
    turn.conn.pending = some ⟨search, puzzle, keys, echo⟩ ∧
    (search.step ctx.config.solveBatch turn.rng).answer = some answer ∧
    (engine.handleTimeoutIn peers now).engine.table.find? peer =
      some (turn.solveStep ctx).1.conn.settled ∧
    engine.QueuesFor (engine.handleTimeoutIn peers now).engine peer
      (turn.solveStep ctx).1.conn.outgoing := by
  obtain ⟨ctx, turn, pending, hconfig, hidentity, hfound, hpending, hanswer, hsteps⟩ :=
    handleTimeoutIn_of_finds hreachable hkey horder hfinds
  obtain rfl := Option.some.inj (hfound.symm.trans hfind)
  obtain ⟨search, -, hworking⟩ := hworks.pending
  obtain rfl := Option.some.inj (hpending.symm.trans hworking)
  exact ⟨ctx, turn, search, hconfig, hidentity, rfl, hpending, hanswer, hsteps⟩

/-- With a J, an I2 that is not too large is sent. -/
theorem sendsI2_of_finds (hlength : Config.IsKeyLength keys.initiator.integrity.length)
    (hfits : (engine.context now).i2Length echo ≤ maxPacketLength) :
    engine.SendsI2 (engine.handleTimeoutIn peers now).engine peer puzzle keys echo answer := by
  obtain ⟨ctx, turn, search, hconfig, hidentity, rfl, hpending, hanswer, hafter, hqueues⟩ :=
    exists_solveStep hreachable hkey horder hfinds hfind hworks
  obtain ⟨hmem, hpeer⟩ := ConnectionTable.find?_eq_some_iff.mp hfind
  have hkept := hreachable.kept hkey hmem
  rw [← Context.i2Length_congr hconfig hidentity] at hfits
  obtain ⟨i2, datagram, hparse, hanswers, hturn⟩ :=
    Turn.solveStep_of_fits (hidentity ▸ hkey) hpending hanswer hlength hfits
  rw [hturn] at hafter hqueues
  rw [Connection.outgoing_conclude hkept.outbox hworks.state] at hqueues
  exact {
    queued := ⟨_, i2, hqueues, hparse, hkept.host ▸ hpeer ▸ hanswers⟩
    state := state?_of_find? hafter (Connection.state_moveTo _ _)
    keys := keys?_of_find? hafter (Connection.keys_conclude _ _ _) }

/-- With a J, an I2 that is too large is not sent, and the J is not kept. -/
theorem losesPuzzle_of_finds (hexceeds : maxPacketLength < (engine.context now).i2Length echo) :
    engine.LosesPuzzle (engine.handleTimeoutIn peers now).engine peer := by
  obtain ⟨ctx, turn, search, hconfig, hidentity, rfl, hpending, hanswer, hafter, hqueues⟩ :=
    exists_solveStep hreachable hkey horder hfinds hfind hworks
  have hkept := hreachable.kept hkey (ConnectionTable.find?_eq_some_iff.mp hfind).1
  rw [← Context.i2Length_congr hconfig hidentity] at hexceeds
  rw [Turn.solveStep_of_exceeds (hidentity ▸ hkey) hpending hanswer hexceeds] at hafter hqueues
  have hsilent : ({ turn.conn with pending := none } : Connection).outgoing = [] := by
    simp [Connection.outgoing, hkept.outbox]
  refine ⟨hsilent ▸ hqueues, state?_of_find? hafter hworks.state,
    keys?_of_find? hafter (hkept.form.keyless (.inr hworks.state)), ?_⟩
  rintro ⟨later, hlater, hsolving⟩
  obtain rfl := Option.some.inj (hafter.symm.trans hlater)
  cases hsolving

end Finds

/-! ### From the R1 on -/

/-- An R1 that was taken up where one was waited for, and the timeout in which its puzzle, which was
    being solved ever since, is solved. The options of the host were checked, and its key is one of
    its curve. -/
structure SolvedR1 (first : Engine) (datagram : List UInt8) (source : Address) (received : Nat)
    (r1 : Packet) (engine : Engine) (peers : List Hit) (now : Nat) (answer : Block) : Prop where
  reachable : first.Reachable
  accepted : first.config.IsAccepted
  hasCurveKey : first.identity.HasCurveKey
  parsed : Packet.parse datagram = .ok r1
  awaits : ∃ conn, first.table.find? r1.sender = some conn ∧ conn.AwaitsR1
  solving : Solving r1.sender (first.handlePacket datagram source received).engine engine
  order : peers.Perm engine.table.peers
  finds : engine.Finds peers now r1.sender answer

theorem Solving.isSolving {peer : Hit} {first engine : Engine}
    (hsolving : Solving peer first engine) :
    first.IsSolving peer := by
  induction hsolving with
  | start hsolving => exact hsolving
  | after _ _ _ ih => exact ih

section SolvedR1

variable {first engine : Engine} {datagram : List UInt8} {source : Address} {received now : Nat}
  {r1 : Packet} {peers : List Hit} {answer : Block}
  (hsolved : SolvedR1 first datagram source received r1 engine peers now answer)
include hsolved

/-- The R1 was valid, and it is its puzzle that is being solved. -/
theorem SolvedR1.works : engine.Reachable ∧ first.Continues engine ∧
    ∃ puzzle keys conn,
      (first.context (max first.lastNow received)).validateR1 first.hit r1.sender r1 =
      .ok (puzzle, keys) ∧ engine.table.find? r1.sender = some conn ∧
      conn.Works puzzle keys r1.echoRequest? := by
  obtain ⟨conn, hfind, hawaits⟩ := hsolved.awaits
  obtain ⟨hmem, hpeer⟩ := ConnectionTable.find?_eq_some_iff.mp hfind
  have hkept := hsolved.reachable.kept hsolved.hasCurveKey hmem
  obtain ⟨begun, hbegun, hbegins⟩ := hsolved.solving.isSolving
  obtain ⟨puzzle, keys, hvalid, hstarted⟩ :=
    works_of_handlePacket hsolved.parsed hfind hawaits hbegun hbegins
  rw [hkept.host, hpeer] at hvalid
  obtain ⟨hreachable, hcontinues, later, hlater, hworks⟩ := hsolved.solving.works
    (hsolved.reachable.after (.handlePacket datagram source received)) hbegun hstarted
  exact ⟨hreachable, (first.continues_handlePacket datagram source received).trans hcontinues,
    puzzle, keys, later, hvalid, hlater, hworks⟩

/-- The timeout in which a J is found sends the I2 that answers the R1, with what the R1 asked to be
    sent back, unless that makes the I2 too large; then nothing is sent and the puzzle is lost. -/
theorem solved_r1_is_answered_or_lost : ∃ puzzle keys, r1.puzzle? = some puzzle ∧
    (first.context (max first.lastNow received)).validateR1 first.hit r1.sender r1 =
      .ok (puzzle, keys) ∧ ((engine.context now).i2Length r1.echoRequest? ≤ maxPacketLength →
      engine.SendsI2 (engine.handleTimeoutIn peers now).engine r1.sender puzzle keys r1.echoRequest?
        answer) ∧
    (maxPacketLength < (engine.context now).i2Length r1.echoRequest? →
      engine.LosesPuzzle (engine.handleTimeoutIn peers now).engine r1.sender) := by
  obtain ⟨hreachable, hcontinues, puzzle, keys, conn, hvalid, hfind, hworks⟩ := hsolved.works
  obtain ⟨id, haccepts⟩ := Context.validateR1_eq_ok_iff.mp hvalid
  have hkey : engine.identity.HasCurveKey := hcontinues.identity ▸ hsolved.hasCurveKey
  have hlength := Context.isKeyLength_of_sessionKeys hsolved.accepted haccepts.derived
  exact ⟨puzzle, keys, haccepts.hasPuzzle, hvalid,
    sendsI2_of_finds hreachable hkey hsolved.order hsolved.finds hfind hworks hlength,
    losesPuzzle_of_finds hreachable hkey hsolved.order hsolved.finds hfind hworks⟩

end SolvedR1

end Engine

/-! ### R1s that ask for something back -/

/-- What is in a packet is in it with one more parameter at its end. -/
theorem Packet.parameter?_push {packet : Packet} {kind : ParameterKind} (parameter : Parameter)
    (hsome : (packet.parameter? kind).isSome) :
    (packet.push parameter).parameter? kind = packet.parameter? kind := by
  obtain ⟨found, hfound⟩ := Option.isSome_iff_exists.mp hsome
  unfold parameter? at hfound ⊢
  rw [push, List.find?_append, hfound, Option.some_or]

namespace Context

variable {ctx : Context}

/-- An R1 that is valid is valid with one more parameter at its end. -/
theorem AcceptsR1.push {host peer : Hit} {packet : Packet} {id : HostId} {puzzle : Puzzle}
    {keys : KeySet} (haccepts : ctx.AcceptsR1 host peer packet id puzzle keys)
    (hkind : packet.kind = .r1) (parameter : Parameter) :
      ctx.AcceptsR1 host peer (packet.push parameter) id puzzle keys := by
  have hmandatory := Packet.checkMandatory_eq_ok_iff.mp haccepts.mandatory
  have hsame : ∀ kind ∈ packet.kind.mandatory,
      (packet.push parameter).parameter? kind = packet.parameter? kind :=
    fun kind hmem => Packet.parameter?_push parameter (hmandatory kind hmem)
  have hpuzzle := hsame .puzzle (by simp [hkind, PacketKind.mandatory])
  have hhostId := hsame .hostId (by simp [hkind, PacketKind.mandatory])
  have hgroups := hsame .dhGroupList (by simp [hkind, PacketKind.mandatory])
  exact {
    mandatory := Packet.checkMandatory_eq_ok_iff.mpr fun kind hmem => by
      rw [hsame kind hmem]
      exact hmandatory kind hmem
    groups := by rw [Packet.dhGroupList?, hgroups]; exact haccepts.groups
    hasHostId := by rw [Packet.hostId?, hhostId]; exact haccepts.hasHostId
    identity := haccepts.identity
    hasPuzzle := by rw [Packet.puzzle?, hpuzzle]; exact haccepts.hasPuzzle
    complexity := haccepts.complexity
    derived := haccepts.derived }

/-- Our R1 with this asked to be sent back. -/
def askingR1 (ctx : Context) (conn : Connection) (challenge : Block) (cookie : UInt16)
    (echo : List UInt8) : Packet :=
  (ctx.r1 conn challenge cookie).push (.echoRequestUnsigned echo)

variable {conn : Connection} {challenge : Block} {cookie : UInt16} {echo : List UInt8}

/-- It can be written if what is asked for leaves room for the rest. -/
theorem exists_parse_askingR1 (hkey : ctx.identity.HasCurveKey) (conn : Connection)
    (challenge : Block) (cookie : UInt16)
    (hlength : headerLength + paddedLength 12 + paddedLength 20 +
      paddedLength (8 + ctx.identity.publicKey.length) + paddedLength 1 + paddedLength 1 +
      paddedLength echo.length ≤ maxPacketLength) :
    ∃ datagram, Packet.parse datagram =
      .ok (ctx.askingR1 conn challenge cookie echo).canonical := by
  have hcontents : ∀ parameter ∈ (ctx.askingR1 conn challenge cookie echo).parameters,
      ∃ content, parameter.content = .ok content := by
    intro parameter hmem
    simp only [askingR1, Packet.push, r1, Packet.ofParameters, List.cons_append, List.nil_append,
      List.mem_cons, List.not_mem_nil, or_false] at hmem
    rcases hmem with rfl | rfl | rfl | rfl | rfl | rfl
    · exact ⟨_, rfl⟩
    · exact ⟨_, rfl⟩
    · obtain ⟨content, hcontent, -⟩ := Parameter.fitsIn_hostId hkey
      exact ⟨content, hcontent⟩
    · exact ⟨_, rfl⟩
    · exact ⟨_, rfl⟩
    · exact ⟨_, rfl⟩
  have hsize : (ctx.askingR1 conn challenge cookie echo).wireLength ≤ maxPacketLength := by
    refine Nat.le_trans (Nat.le_of_eq ?_) hlength
    have hcounter : (Parameter.r1Counter (UInt64.ofNat ctx.issuer.generation)).wireLength =
        paddedLength 12 := by
      rw [Parameter.wireLength_of_content rfl]
      simp
    have hpuzzle : (Parameter.puzzle ⟨ctx.issuer.complexity, defaultLifetime, cookie,
        challenge⟩).wireLength = paddedLength 20 := by
      rw [Parameter.wireLength_of_content rfl]
      simp
    have hsuites : (Parameter.hitSuiteList [hitSuiteDex]).wireLength = paddedLength 1 := rfl
    have hgroups : ctx.groups.wireLength = paddedLength 1 := rfl
    have hecho : (Parameter.echoRequestUnsigned echo).wireLength = paddedLength echo.length := rfl
    rw [askingR1, Packet.wireLength_push, hecho]
    simp only [Packet.wireLength, r1, Packet.ofParameters, List.map_cons, List.map_nil,
      List.sum_cons, List.sum_nil, hcounter, hpuzzle, hsuites, hgroups, hostId,
      Parameter.wireLength_hostId hkey, Nat.add_zero, Nat.add_assoc]
  obtain ⟨datagram, hencode⟩ := (Packet.exists_encode_iff hcontents).mpr hsize
  refine ⟨datagram, Packet.parse_of_encode hencode fun id hmem => ?_⟩
  simp only [askingR1, Packet.push, r1, hostId, groups, Packet.ofParameters, List.cons_append,
    List.nil_append, List.mem_cons, reduceCtorEq, false_or, Parameter.hostId.injEq,
    List.not_mem_nil, or_false] at hmem
  rw [hmem]
  exact isWellFormed_hostId hkey

theorem echoRequest?_askingR1 :
    (ctx.askingR1 conn challenge cookie echo).canonical.echoRequest? = some echo :=
  (Packet.echoRequest?_canonical _).trans rfl

end Context

/-- The R1 of a host that fits is valid with something asked to be sent back. -/
theorem Party.Compatible.validate_askingR1 {mine theirs : Context}
    (hcompatible : mine.party.Compatible theirs.party)
    (hcomplexity : theirs.issuer.complexity = theirs.config.puzzleComplexity) (conn : Connection)
    (challenge : Block) (cookie : UInt16) (echo : List UInt8) :
    ∃ keys, mine.validateR1 mine.identity.hit theirs.identity.hit
      (theirs.askingR1 conn challenge cookie echo).canonical =
        .ok (⟨theirs.issuer.complexity, defaultLifetime, cookie, challenge⟩, keys) := by
  obtain ⟨keys, hkeys, -⟩ := hcompatible.exists_sessionKeys challenge
  have hvalid := hcompatible.validateR1 hcomplexity conn challenge cookie hkeys
  obtain ⟨id, haccepts⟩ := Context.validateR1_eq_ok_iff.mp hvalid
  have hpushed : (theirs.askingR1 conn challenge cookie echo).canonical =
      (theirs.r1 conn challenge cookie).canonical.push (.echoRequestUnsigned echo) := rfl
  rw [hpushed]
  exact ⟨keys, Context.validateR1_eq_ok_iff.mpr ⟨id, haccepts.push rfl _⟩⟩

namespace Engine

variable {engine : Engine}

/-- An R1 that is valid is taken up where one is waited for. -/
theorem works_of_valid (hreachable : Reachable engine) (hopen : engine.closed = false)
    {datagram : List UInt8} {r1 : Packet} (hparse : Packet.parse datagram = .ok r1)
    (hkind : r1.kind = .r1) (hreceiver : r1.receiver = engine.hit) {conn : Connection}
    (hfind : engine.table.find? r1.sender = some conn) (hawaits : conn.AwaitsR1) (source : Address)
    (now : Nat) {puzzle : Puzzle} {keys : KeySet}
    (hvalid : (engine.context (max engine.lastNow now)).validateR1 conn.host conn.peer r1 =
      .ok (puzzle, keys)) (hcomplexity : puzzle.k ≤ maxComplexity) :
    ∃ later, (engine.handlePacket datagram source now).engine.table.find? r1.sender = some later ∧
      later.Works puzzle keys r1.echoRequest? ∧
      (engine.handlePacket datagram source now).engine.closed = false := by
  obtain ⟨hmem, hpeer⟩ := ConnectionTable.find?_eq_some_iff.mp hfind
  obtain ⟨turn, hreceive⟩ := Turn.exists_receive_r1 ⟨conn, engine.rng, []⟩ _ r1 hawaits.state hkind
    hawaits.pending hvalid hcomplexity
  obtain ⟨-, habsorbs⟩ := handlePacket_known hopen hparse hreceiver source now hfind hreceive
  have hmove := Turn.move_of_receive hreceive
  obtain ⟨hworks, -⟩ := hmove.takes_up_r1 (hreachable.outbox_eq_nil hmem) hawaits hkind hvalid
  exact ⟨turn.conn.settled, habsorbs.find_moved (hmove.peer_eq.trans hpeer), hworks.settled,
    habsorbs.closed.trans hopen⟩

end Engine

namespace SampleHost

theorem publicKey_length (scalar : Nat) : (identity scalar).publicKey.length = 65 :=
    hasCurveKey scalar

theorem i2Length_eq {engine : Engine} (hparty : engine.party = party 1) (now : Nat)
    (echo : Option (List UInt8)) :
    (engine.context now).i2Length echo = 200 + Context.echoLength echo := by
  obtain ⟨hconfig, hidentity⟩ := Party.mk.inj hparty
  rw [Context.i2Length, show (engine.context now).config = config from hconfig,
    show (engine.context now).identity = identity 1 from hidentity, publicKey_length]
  rfl

/-- A sample host solves the puzzle of the other's R1, whatever that asks to be sent back, as long
    as the R1 can be sent. -/
theorem exists_solved (echo : List UInt8) (hlength : paddedLength echo.length ≤ 1872) :
    ∃ first datagram r1 engine peers answer,
      Engine.SolvedR1 first datagram (.ofHost 2) 0 r1 engine peers 0 answer ∧
      r1.echoRequest? = some echo ∧ engine.party = party 1 := by
  obtain ⟨first, hfirst, hopen, hparty, conn, hfind, hawaits⟩ := exists_waiting
  obtain ⟨hmem, hpeer⟩ := ConnectionTable.find?_eq_some_iff.mp hfind
  have hreachable := hfirst
  obtain ⟨hconfig, hidentity⟩ := Party.mk.inj hparty
  let theirs : Context := ⟨config, identity 2, ⟨0, 0, SecretWindow.empty⟩, 0⟩
  let replying := Connection.fresh (identity 2).hit first.hit (.ofHost 2)
  have hroom : headerLength + paddedLength 12 + paddedLength 20 +
      paddedLength (8 + theirs.identity.publicKey.length) + paddedLength 1 + paddedLength 1 +
      paddedLength echo.length ≤ maxPacketLength := by
    rw [show theirs.identity.publicKey.length = 65 from publicKey_length 2]
    exact Nat.add_le_add_left hlength 176
  let r1 := (theirs.askingR1 replying Block.zero 0 echo).canonical
  obtain ⟨datagram, hparse⟩ :=
    theirs.exists_parse_askingR1 (hasCurveKey 2) replying Block.zero 0 hroom
  let engine := (first.handlePacket datagram (.ofHost 2) 0).engine
  have hcompatible : (first.context (max first.lastNow 0)).party.Compatible theirs.party := by
    rw [show (first.context (max first.lastNow 0)).party = party 1 from hparty]
    exact compatible
  obtain ⟨keys, hvalid⟩ := hcompatible.validate_askingR1 rfl replying Block.zero 0 echo
  have hvalidHere : (first.context (max first.lastNow 0)).validateR1 conn.host conn.peer r1 =
      .ok (⟨0, defaultLifetime, 0, Block.zero⟩, keys) := by
    rw [hfirst.host_eq hmem, hpeer]
    exact hvalid
  obtain ⟨later, hlater, hworks, hstill⟩ :=
    Engine.works_of_valid hreachable hopen hparse rfl rfl hfind
    hawaits (.ofHost 2) 0 hvalidHere (by decide)
  have hcontinues := first.continues_handlePacket datagram (.ofHost 2) 0
  have hbatch : 0 < engine.config.solveBatch := by
    rw [hcontinues.config, hconfig]
    decide
  obtain ⟨answer, hfinds⟩ := Engine.exists_finds hstill (.refl _) hbatch hlater hworks rfl 0
  refine ⟨first, datagram, r1, engine, engine.table.peers, answer, ?_,
    Context.echoRequest?_askingR1, hcontinues.party.trans hparty⟩
  exact {
    reachable := hreachable
    accepted := hconfig ▸ isAccepted_config
    hasCurveKey := hidentity ▸ hasCurveKey 1
    parsed := hparse
    awaits := ⟨conn, hfind, hawaits⟩
    solving := .start ⟨later, hlater, Connection.isSolving_of_works hworks⟩
    order := .refl _
    finds := hfinds }

end SampleHost

namespace Engine

/-- A sample host that is asked to send three bytes back sends them in its I2. -/
theorem exists_answered_r1 : ∃ first datagram r1 engine peers answer,
    SolvedR1 first datagram (.ofHost 2) 0 r1 engine peers 0 answer ∧
    r1.echoRequest? = some [1, 2, 3] ∧
    (engine.context 0).i2Length r1.echoRequest? ≤ maxPacketLength ∧ ∃ puzzle keys,
      engine.SendsI2 (engine.handleTimeoutIn peers 0).engine r1.sender puzzle keys (some [1, 2, 3])
        answer := by
  obtain ⟨first, datagram, r1, engine, peers, answer, hsolved, hecho, hparty⟩ :=
    SampleHost.exists_solved [1, 2, 3] (by decide)
  have hfits : (engine.context 0).i2Length r1.echoRequest? ≤ maxPacketLength := by
    rw [SampleHost.i2Length_eq hparty, hecho]
    decide
  obtain ⟨puzzle, keys, -, -, hsends, -⟩ := solved_r1_is_answered_or_lost hsolved
  exact ⟨first, datagram, r1, engine, peers, answer, hsolved, hecho, hfits, puzzle, keys,
    hecho ▸ hsends hfits⟩

/-- An R1 of 2048 bytes can ask for more than an I2 has room for, and so not every R1 whose puzzle
    is solved is answered. -/
theorem not_forall_solved_r1_answered :
    ¬∀ first datagram source received r1 engine peers now answer,
      SolvedR1 first datagram source received r1 engine peers now answer → ∃ puzzle keys,
        engine.SendsI2 (engine.handleTimeoutIn peers now).engine r1.sender puzzle keys
          r1.echoRequest?
          answer := by
  intro hall
  obtain ⟨first, datagram, r1, engine, peers, answer, hsolved, hecho, hparty⟩ :=
    SampleHost.exists_solved (List.replicate 1868 0) (by rw [List.length_replicate]; decide)
  obtain ⟨hreachable, hcontinues, puzzle, keys, conn, -, hfind, hworks⟩ := hsolved.works
  have hexceeds : maxPacketLength < (engine.context 0).i2Length r1.echoRequest? := by
    rw [SampleHost.i2Length_eq hparty, hecho, Context.echoLength, List.length_replicate]
    decide
  have hloses :=
    losesPuzzle_of_finds hreachable (hcontinues.identity ▸ hsolved.hasCurveKey) hsolved.order
    hsolved.finds hfind hworks hexceeds
  obtain ⟨_, _, hsends⟩ := hall _ _ _ _ _ _ _ _ _ hsolved
  cases hloses.state.symm.trans hsends.state

end Engine

end DietExchange
