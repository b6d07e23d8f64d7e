import DietExchange.Proofs.Engine.Encounter
import DietExchange.Proofs.Engine.Fresh
import DietExchange.Proofs.Network.Basic

namespace DietExchange

namespace Engine

/-- An engine that can begin a handshake with another and answer one, under puzzles that are no
    work. -/
structure Meets (engine other : Engine) : Prop where
  reachable : engine.Reachable
  isOpen : engine.closed = false
  compatible : engine.party.Compatible other.party
  unknown : engine.table.find? other.hit = none
  room : engine.connectionCount + 1 < engine.config.maxConnections
  easy : engine.config.puzzleComplexity = 0

/-- A datagram that arrives at one side at the beginning. -/
def arrival (side : Side) (datagram : List UInt8) : Call := .handlePacket datagram side.remote 0

def greeting (side : Side) (peer : Hit) : Call := .connect peer side.remote 0

/-- Whether a datagram is an I1 of one engine for another. -/
def Asks (engine other : Engine) (datagram : List UInt8) : Prop :=
  ∃ (ctx : Context) (conn : Connection), ctx.identity = engine.identity ∧ conn.host = engine.hit ∧
    conn.peer = other.hit ∧ (ctx.i1 conn).encode = .ok datagram

theorem exists_asks (engine other : Engine) : ∃ i1, engine.Asks other i1 := by
  obtain ⟨i1, hencode⟩ :=
    (engine.context 0).exists_encode_i1 (Connection.fresh engine.hit other.hit default)
  exact ⟨i1, _, _, rfl, rfl, rfl, hencode⟩

variable {engine other : Engine} (hmeets : engine.Meets other)
  (hcompatible : other.party.Compatible engine.party)
include hmeets hcompatible

/-- An engine that has answered an I1 can still send one. -/
theorem Meets.answers_and_asks {i1 : List UInt8} (hasks : other.Asks engine i1) (side : Side) :
    ∃ secret cookie r1 own conn, engine.issuer.window.newest? = some secret ∧
      engine.Challenges other secret cookie r1 ∧ engine.Asks other own ∧
      (∃ out ∈ engine.queuedBy (arrival side i1), out.datagram = r1) ∧
      (∃ out ∈ (engine.run [arrival side i1]).queuedBy (greeting side other.hit),
        out.datagram = own) ∧
      (engine.run [arrival side i1, greeting side other.hit]).closed = false ∧
      (engine.run [arrival side i1, greeting side other.hit]).table.find? other.hit = some conn ∧
      conn.AwaitsR1 := by
  obtain ⟨ctx, asking, hidentity, hhost, hpeer, hencode⟩ := hasks
  have hkey : engine.identity.HasCurveKey := hmeets.compatible.initiatorKey
  have hcurve : engine.identity.curve = ctx.identity.curve := by
    rw [hidentity]
    exact hmeets.compatible.curve
  obtain ⟨-, r1, secret, cookie, replying, hsecret, hencodeR1, hfrom, hto, htable, hopen, -,
    hqueued, -⟩ :=
    i1_is_answered hmeets.reachable hmeets.isOpen hkey hcompatible.unsolicited hencode hpeer hcurve
      (hhost ▸ hmeets.unknown) (Nat.lt_of_succ_lt hmeets.room) side.remote 0
  rw [hhost] at hencodeR1 hto
  have hcontinues := engine.continues_after (arrival side i1)
  have hdistinct : other.hit ≠ (engine.after (arrival side i1)).hit := by
    rw [hcontinues.hit]
    exact hcompatible.distinct
  have hunknown : (engine.after (arrival side i1)).table.find? other.hit = none := by
    rw [show (engine.after (arrival side i1)).table = engine.table from htable]
    exact hmeets.unknown
  have hroom : (engine.after (arrival side i1)).connectionCount <
      (engine.after (arrival side i1)).config.maxConnections := by
    rw [hcontinues.config]
    exact Nat.lt_of_le_of_lt (engine.connectionCount_after_le _) hmeets.room
  obtain ⟨-, asker, own, conn, i1Own, hasker, hownHost, hownPeer, hencodeOwn, hfind,
    hawaits, hstill, hsent, -⟩ := connect_sends_i1 hopen hdistinct hunknown hroom side.remote 0
  refine ⟨secret, cookie, r1, i1Own, conn, hsecret, ?_, ?_, ?_, ?_, hstill, hfind, hawaits⟩
  · exact ⟨_, replying, rfl, hmeets.reachable.issuer.1, hfrom, hto, hencodeR1⟩
  · exact ⟨asker, own, hasker.trans hcontinues.identity, hownHost.trans hcontinues.hit, hownPeer,
      hencodeOwn⟩
  · rw [arrival, hqueued]
    exact ⟨_, List.mem_singleton_self _, rfl⟩
  · exact ⟨_, hsent ▸ List.mem_singleton_self _, rfl⟩

omit hcompatible in
/-- An engine that waits for an R1 takes it up and sends the I2 when it sees the time. -/
theorem Meets.takes_and_solves {asked : Engine} (hcontinues : engine.Continues asked)
    (hreachable : asked.Reachable) (hopen : asked.closed = false) {conn : Connection}
    (hfind : asked.table.find? other.hit = some conn) (hawaits : conn.AwaitsR1)
    (heasy : other.config.puzzleComplexity = 0) {secret : Block} {cookie : UInt16} {r1 : List UInt8}
    (hchallenges : other.Challenges engine secret cookie r1) (side : Side) (order : List Hit) :
    ∃ packet keys i2 later, Packet.parse r1 = .ok packet ∧ engine.Answers other secret keys i2 ∧
      (∃ out ∈ (asked.after (arrival side r1)).queuedBy (.handleTimeout order 0),
        out.datagram = i2) ∧ (asked.run [arrival side r1, .handleTimeout order 0]).closed = false ∧
      (asked.run [arrival side r1, .handleTimeout order 0]).table.find? other.hit = some later ∧
      later.RestsOn engine.party packet keys i2 :=
  hchallenges.answered_at_once hmeets.compatible hcontinues hreachable hopen hfind hawaits
    side.remote 0 heasy order

omit hmeets hcompatible in
/-- Secrets are replaced when the time is seen, and once at most each time. -/
theorem generation_run_le (engine : Engine) (calls : List Call) :
    (engine.run calls).issuer.generation ≤
      engine.issuer.generation + calls.countP fun call => call matches .handleTimeout .. := by
  induction calls generalizing engine with
  | nil => exact Nat.le_refl _
  | cons call rest ih =>
    have hrest := ih (engine.after call)
    rw [List.countP_cons]
    change ((engine.after call).run rest).issuer.generation ≤ _
    rcases engine.issuer_after call with hsame | ⟨order, now, secret, rfl, hrotated⟩
    · rw [hsame] at hrest
      omega
    · rw [hrotated] at hrest
      dsimp only at hrest ⊢
      rw [if_pos rfl]
      omega

omit hmeets hcompatible in
/-- A secret that was the newest is still kept when the time was seen once since. -/
theorem newest_mem_run_of_countP {secret : Block}
    (hnewest : engine.issuer.window.newest? = some secret) (calls : List Call)
    (honce : (calls.countP fun call => call matches .handleTimeout ..) ≤ 2) :
    secret ∈ (engine.run calls).issuer.window.secrets :=
  newest_mem_run hnewest
    (Nat.le_trans (engine.generation_run_le calls) (Nat.add_le_add_left honce _))

/-- An engine that answers an I2 on a puzzle of its own ends as the responder when the hold is over,
    if it has seen the time twice at most. -/
theorem Meets.holds_and_ends (calls : List Call) {secret : Block} {keys : KeySet} {i2 : List UInt8}
    (hanswers : other.Answers engine secret keys i2)
    (hnewest : engine.issuer.window.newest? = some secret)
    (honce : (calls.countP fun call => call matches .handleTimeout ..) ≤ 2)
    (hopen : (engine.run calls).closed = false) (hwelcomes : (engine.run calls).Welcomes other.hit)
    (side : Side) :
    ∃ r2 due, engine.Confirms other keys r2 ∧
      (∃ out ∈ (engine.run calls).queuedBy (arrival side i2), out.datagram = r2) ∧
      ∀ time, due ≤ time → ∃ conn, (engine.run (calls ++ [arrival side i2] ++
        [.handleTimeout [] time])).table.find? other.hit = some conn ∧
        conn.IsDone { keys with isInitiator := false } := by
  have hreachable := hmeets.reachable.run calls
  obtain ⟨-, r2, holding, hconfirms, ⟨_, hqueued⟩, hstill, hheld, hholds⟩ :=
    hanswers.confirmed (engine.continues_run calls) hreachable hopen side.remote 0
      hcompatible.fits (newest_mem_run_of_countP hnewest calls honce)
      (fun _ => hcompatible.unsolicited) hwelcomes
  have hkey : ((engine.run calls).after (arrival side i2)).identity.HasCurveKey := by
    rw [((engine.continues_run calls).trans (continues_after _ _)).identity]
    exact hmeets.compatible.initiatorKey
  let due := max (engine.run calls).lastNow 0 + engine.config.r2SentHold
  refine ⟨r2, due, hconfirms, ⟨_, hqueued ▸ List.mem_singleton_self _, rfl⟩, fun time hdue => ?_⟩
  obtain ⟨-, hends⟩ := holds_until (hreachable.after _) hkey hstill hheld hholds [] hdue
  rw [run_append, run_append]
  exact hends

omit hcompatible in
/-- An engine with the larger HIT still answers the I2 of the other when it has sent its own. -/
theorem Meets.welcomes_smaller (hlarger : other.hit < engine.hit) {calls : List Call}
    {conn : Connection} (hfind : (engine.run calls).table.find? other.hit = some conn)
    (hstate : conn.state = .i2Sent) :
    (engine.run calls).Welcomes other.hit := by
  obtain ⟨hmem, hpeer⟩ := ConnectionTable.find?_eq_some_iff.mp hfind
  have hhost : conn.host = engine.hit :=
    ((hmeets.reachable.run calls).host_eq hmem).trans (engine.continues_run calls).hit
  refine .inr ⟨conn, hfind, .inl ⟨hstate, ?_⟩⟩
  rw [hhost, hpeer]
  exact Nat.lt_asymm hlarger

end Engine

/-- The datagrams of two handshakes that cross, and when both holds are seen to end. The left host
    first answers an I1 in the name of the right one, so that both can wait for an R1. -/
structure Crossing where
  forged : List UInt8
  leftI1 : List UInt8
  leftR1 : List UInt8
  rightR1 : List UInt8
  leftI2 : List UInt8
  rightI2 : List UInt8
  r2 : List UInt8
  time : Nat

namespace Crossing

open Engine

variable (crossing : Crossing) (left right : Engine)

/-- Both have answered an I1 and sent one. -/
def leftAsked : List Call := [arrival .left crossing.forged, greeting .left right.hit]

def rightAsked : List Call := [arrival .right crossing.leftI1, greeting .right left.hit]

/-- Both have solved the puzzle of the other. -/
def leftSolved : List Call :=
  crossing.leftAsked right ++ [arrival .left crossing.rightR1, .handleTimeout [] 0]

def rightSolved : List Call :=
  crossing.rightAsked left ++ [arrival .right crossing.leftR1, .handleTimeout [] 0]

/-- The right host has answered the I2, and the left one is done. -/
def leftDone : List Call := crossing.leftSolved right ++ [arrival .left crossing.r2]

def rightHeld : List Call := crossing.rightSolved left ++ [arrival .right crossing.leftI2]

/-- The left host has answered the late I2. -/
def leftHeld : List Call := crossing.leftDone right ++ [arrival .left crossing.rightI2]

/-- The handshakes up to where the left host is done and the right one holds its keys. -/
def crossed : List Event :=
  [⟨.left, arrival .left crossing.forged⟩, ⟨.left, greeting .left right.hit⟩,
    ⟨.right, arrival .right crossing.leftI1⟩, ⟨.right, greeting .right left.hit⟩,
    ⟨.left, arrival .left crossing.rightR1⟩, ⟨.left, .handleTimeout [] 0⟩,
    ⟨.right, arrival .right crossing.leftR1⟩, ⟨.right, .handleTimeout [] 0⟩,
    ⟨.right, arrival .right crossing.leftI2⟩, ⟨.left, arrival .left crossing.r2⟩]

/-- The I2 of the right host is lost. -/
def settled : List Event :=
  crossing.crossed left right ++ [⟨.right, .handleTimeout [] crossing.time⟩]

/-- The I2 of the right host comes late. -/
def resumed : List Event :=
  crossing.crossed left right ++ [⟨.left, arrival .left crossing.rightI2⟩,
    ⟨.left, .handleTimeout [] crossing.time⟩, ⟨.right, .handleTimeout [] crossing.time⟩]

/-- Whether each datagram is what the engine in question queues, the left host is done as the
    initiator, and both end as responders after a late I2. -/
structure Conforms : Prop where
  forged : ∃ packet, Packet.parse crossing.forged = .ok packet ∧ packet.kind = .i1
  leftI1 : ∃ out ∈ (left.run [arrival .left crossing.forged]).queuedBy (greeting .left right.hit),
    out.datagram = crossing.leftI1
  leftR1 : ∃ out ∈ left.queuedBy (arrival .left crossing.forged), out.datagram = crossing.leftR1
  rightR1 : ∃ out ∈ right.queuedBy (arrival .right crossing.leftI1), out.datagram = crossing.rightR1
  leftI2 :
    ∃ out ∈ (left.run (crossing.leftAsked right ++ [arrival .left crossing.rightR1])).queuedBy
      (.handleTimeout [] 0), out.datagram = crossing.leftI2
  rightI2 :
    ∃ out ∈ (right.run (crossing.rightAsked left ++ [arrival .right crossing.leftR1])).queuedBy
      (.handleTimeout [] 0), out.datagram = crossing.rightI2
  r2 : ∃ out ∈ (right.run (crossing.rightSolved left)).queuedBy (arrival .right crossing.leftI2),
    out.datagram = crossing.r2
  leftDone : ∃ conn keys, (left.run (crossing.leftDone right)).table.find? right.hit = some conn ∧
    conn.IsDone keys ∧ keys.isInitiator = true
  leftEnds : ∃ conn keys, (left.run (crossing.leftHeld right ++
    [.handleTimeout [] crossing.time])).table.find? right.hit = some conn ∧ conn.IsDone keys ∧
    keys.isInitiator = false
  rightEnds : ∃ conn keys, (right.run (crossing.rightHeld left ++
    [.handleTimeout [] crossing.time])).table.find? left.hit = some conn ∧ conn.IsDone keys ∧
    keys.isInitiator = false

variable {crossing left right}

/-- The network can bring this about. -/
theorem Conforms.lawful (hconforms : crossing.Conforms left right) :
    (Network.start left right).Lawful (crossing.crossed left right) := by
  obtain ⟨packet, hparse, hkind⟩ := hconforms.forged
  let network (count : Nat) :=
    (Network.start left right).run ((crossing.crossed left right).take count)
  have hleftI1 : crossing.leftI1 ∈ (network 2).sent .left :=
    Network.mem_sent_run [arrival .left crossing.forged] [] rfl hconforms.leftI1
  have hrightR1 : crossing.rightR1 ∈ (network 4).sent .right :=
    Network.mem_sent_run [] [greeting .right left.hit] rfl hconforms.rightR1
  have hleftR1 : crossing.leftR1 ∈ (network 6).sent .left :=
    Network.mem_sent_run [] _ rfl hconforms.leftR1
  have hleftI2 : crossing.leftI2 ∈ (network 8).sent .left :=
    Network.mem_sent_run (crossing.leftAsked right ++ [arrival .left crossing.rightR1]) [] rfl
      hconforms.leftI2
  have hr2 : crossing.r2 ∈ (network 9).sent .right :=
    Network.mem_sent_run (crossing.rightSolved left) [] rfl hconforms.r2
  exact ⟨Network.admits_of_i1 hparse hkind _ _ _, Network.admits_connect _ _ _ _,
    Network.admits_of_sent hleftI1 _ _, Network.admits_connect _ _ _ _,
    Network.admits_of_sent hrightR1 _ _, Network.admits_timeout _ _ _,
    Network.admits_of_sent hleftR1 _ _, Network.admits_timeout _ _ _,
    Network.admits_of_sent hleftI2 _ _, Network.admits_of_sent hr2 _ _, trivial⟩

theorem Conforms.lawful_settled (hconforms : crossing.Conforms left right) :
    (Network.start left right).Lawful (crossing.settled left right) :=
  Network.lawful_append hconforms.lawful ⟨Network.admits_timeout _ _ _, trivial⟩

theorem Conforms.lawful_resumed (hconforms : crossing.Conforms left right) :
    (Network.start left right).Lawful (crossing.resumed left right) := by
  have hrightI2 : crossing.rightI2 ∈
      ((Network.start left right).run (crossing.crossed left right)).sent .right :=
    Network.mem_sent_run (crossing.rightAsked left ++ [arrival .right crossing.leftR1])
      [arrival .right crossing.leftI2] rfl hconforms.rightI2
  exact Network.lawful_append hconforms.lawful ⟨Network.admits_of_sent hrightI2 _ _,
    Network.admits_timeout _ _ _, Network.admits_timeout _ _ _, trivial⟩

/-- Two hosts of which the left one has the smaller HIT can get into this. -/
theorem exists_conforms (hleft : left.Meets right) (hright : right.Meets left)
    (hsmaller : left.hit < right.hit) : ∃ crossing : Crossing, crossing.Conforms left right := by
  obtain ⟨forged, hforged⟩ := right.exists_asks left
  obtain ⟨leftSecret, leftCookie, leftR1, leftI1, leftAsking, hleftNewest, hleftR1, hleftI1,
    hleftR1Sent, hleftI1Sent, hleftOpen, hleftFind, hleftAwaits⟩ :=
      hleft.answers_and_asks hright.compatible hforged .left
  obtain ⟨rightSecret, rightCookie, rightR1, rightI1, rightAsking, hrightNewest, hrightR1, -,
    hrightR1Sent, -, hrightOpen, hrightFind, hrightAwaits⟩ :=
    hright.answers_and_asks hleft.compatible hleftI1 .right
  -- both solve the puzzle of the other
  let leftAsked := [arrival .left forged, greeting .left right.hit]
  let rightAsked := [arrival .right leftI1, greeting .right left.hit]
  obtain ⟨_, leftKeys, leftI2, leftLater, -, hleftI2, hleftI2Sent, hleftSolved, hleftLater,
    hleftRests⟩ :=
    hleft.takes_and_solves (left.continues_run leftAsked) (hleft.reachable.run leftAsked) hleftOpen
      hleftFind hleftAwaits hright.easy hrightR1 .left []
  obtain ⟨_, rightKeys, rightI2, rightLater, -, hrightI2, hrightI2Sent, hrightSolved, hrightLater,
    hrightRests⟩ :=
    hright.takes_and_solves (right.continues_run rightAsked) (hright.reachable.run rightAsked)
      hrightOpen hrightFind hrightAwaits hleft.easy hleftR1 .right []
  -- the larger HIT answers the I2 of the smaller, which is done with that
  let leftSolved := leftAsked ++ [arrival .left rightR1, .handleTimeout [] 0]
  let rightSolved := rightAsked ++ [arrival .right leftR1, .handleTimeout [] 0]
  obtain ⟨r2, rightDue, hr2, hr2Sent, hrightEnds⟩ :=
    hright.holds_and_ends hleft.compatible rightSolved hleftI2 hrightNewest
      (by simp [rightSolved, rightAsked, arrival, greeting]) hrightSolved
      (hright.welcomes_smaller hsmaller hrightLater hrightRests.awaits.state) .right
  obtain ⟨-, hleftOpen, leftConcluded, hleftFind, hdone⟩ := hr2.concludes hleft.compatible.fits
    (left.continues_run leftSolved) (hleft.reachable.run leftSolved) hleftSolved hleftLater
      hleftRests.awaits Side.left.remote 0
  -- then the I2 of the larger HIT arrives, late, and both holds end
  let leftDone := leftSolved ++ [arrival .left r2]
  obtain ⟨-, leftDue, -, -, hleftEnds⟩ :=
    hleft.holds_and_ends hright.compatible leftDone hrightI2 hleftNewest
      (by simp [leftDone, leftSolved, leftAsked, arrival, greeting]) hleftOpen
      (.inr ⟨_, hleftFind, .inr (.inr hdone.state)⟩) .left
  obtain ⟨leftFinal, hleftFinal, hleftEnd⟩ := hleftEnds _ (Nat.le_max_left leftDue rightDue)
  obtain ⟨rightFinal, hrightFinal, hrightEnd⟩ := hrightEnds _ (Nat.le_max_right leftDue rightDue)
  obtain ⟨ctx, conn, -, -, -, hencode⟩ := hforged
  exact ⟨⟨forged, leftI1, leftR1, rightR1, leftI2, rightI2, r2, max leftDue rightDue⟩, {
    forged := ⟨_, Context.parse_i1 hencode, rfl⟩
    leftI1 := hleftI1Sent
    leftR1 := hleftR1Sent
    rightR1 := hrightR1Sent
    leftI2 := hleftI2Sent
    rightI2 := hrightI2Sent
    r2 := hr2Sent
    leftDone := ⟨_, leftKeys, hleftFind, hdone, hleftI2.1.isInitiator⟩
    leftEnds := ⟨leftFinal, _, hleftFinal, hleftEnd, rfl⟩
    rightEnds := ⟨rightFinal, _, hrightFinal, hrightEnd, rfl⟩ }⟩

end Crossing

/-- The sample hosts meet when they are new. -/
theorem SampleHost.IsNew.meets {scalar other : Nat} {engine theirs : Engine}
    (hnew : SampleHost.IsNew scalar engine) (hother : SampleHost.IsNew other theirs)
    (hcompatible : (SampleHost.party scalar).Compatible (SampleHost.party other)) :
    engine.Meets theirs where
  reachable := hnew.reachable
  isOpen := hnew.isOpen
  compatible := by
    rw [Engine.party, Engine.party, hnew.config, hnew.identity, hother.config, hother.identity]
    exact hcompatible
  unknown := hnew.find?_eq_none _
  room := Nat.lt_of_le_of_lt (Nat.add_le_add_left (by decide) _) hnew.room
  easy := by
    rw [hnew.config]
    rfl

theorem SampleHost.exists_meets : ∃ left right, SampleHost.IsNew 1 left ∧ SampleHost.IsNew 2 right ∧
    left.Meets right ∧ right.Meets left ∧ left.hit < right.hit := by
  obtain ⟨left, hleft⟩ := SampleHost.exists_isNew 1
  obtain ⟨right, hright⟩ := SampleHost.exists_isNew 2
  refine ⟨left, right, hleft, hright, hleft.meets hright SampleHost.compatible,
    hright.meets hleft SampleHost.compatible_symm, ?_⟩
  rw [hleft.hit_eq, hright.hit_eq]
  exact SampleHost.hit_one_lt_two

theorem Network.honest_of_meets {left right : Engine} (hleft : left.Meets right)
    (hright : right.Meets left) : (start left right).Honest where
  reachable
    | .left => hleft.reachable
    | .right => hright.reachable
  isOpen
    | .left => hleft.isOpen
    | .right => hright.isOpen
  key
    | .left => hleft.compatible.initiatorKey
    | .right => hright.compatible.initiatorKey
  distinct
    | .left => hright.compatible.distinct
    | .right => hleft.compatible.distinct
  lengths
    | .left => hright.compatible.lengths
    | .right => hleft.compatible.lengths
  agreement side secret shared hsecret hshared := by
    have hsame : ∀ {mine theirs : Party}, mine.Compatible theirs →
        mine.identity.key.agree theirs.identity.publicKey = .ok secret →
        theirs.identity.key.agree mine.identity.publicKey = .ok shared → secret = shared := by
      intro mine theirs hcompatible hmine htheirs
      obtain ⟨agreed, hfirst, hsecond⟩ := hcompatible.agreement
      exact (Except.ok.inj (hmine.symm.trans hfirst)).trans
        (Except.ok.inj (htheirs.symm.trans hsecond)).symm
    cases side with
    | left => exact hsame hleft.compatible hsecret hshared
    | right => exact hsame hright.compatible hsecret hshared

section Run

variable {left right : Engine} (hleft : left.Meets right) (hright : right.Meets left)
  (hsmaller : left.hit < right.hit)
include hleft hright hsmaller

/-- If two hosts begin at once, the one with the smaller HIT can end as the initiator. -/
theorem Network.exists_settled : ∃ events, (start left right).Lawful events ∧
    (∀ side, ((start left right).run events).state? side = some .established) ∧
    ∃ keys, ((start left right).run events).keys? .left = some keys ∧ keys.isInitiator = true := by
  obtain ⟨crossing, hconforms⟩ := Crossing.exists_conforms hleft hright hsmaller
  obtain ⟨conn, keys, hfind, hdone, hrole⟩ := hconforms.leftDone
  refine ⟨crossing.settled left right, hconforms.lawful_settled, fun side => ?_, keys, ?_, hrole⟩
  · rw [state?, engine_run, peer_run]
    cases side with
    | left => exact Engine.state?_of_find? hfind hdone.state
    | right =>
      obtain ⟨conn, keys, hfind, hdone, -⟩ := hconforms.rightEnds
      exact Engine.state?_of_find? hfind hdone.state
  · rw [keys?, engine_run, peer_run]
    exact Engine.keys?_of_find? hfind hdone.keys

/-- If the I2 of the host with the larger HIT comes when the other is done as the initiator, both
    end as responders. -/
theorem Network.exists_two_responders : ∃ events, (start left right).Lawful events ∧
    Event.Timely events ∧
    ∀ side, ((start left right).run events).state? side = some .established ∧
      ∃ keys, ((start left right).run events).keys? side = some keys ∧
      keys.isInitiator = false := by
  obtain ⟨crossing, hconforms⟩ := Crossing.exists_conforms hleft hright hsmaller
  refine ⟨crossing.resumed left right, hconforms.lawful_resumed, ?_, fun side => ?_⟩
  · simp [Event.Timely, Crossing.resumed, Crossing.crossed, Call.now?, Engine.arrival,
      Engine.greeting]
  · rw [state?, keys?, engine_run, peer_run]
    cases side with
    | left =>
      obtain ⟨conn, keys, hfind, hdone, hrole⟩ := hconforms.leftEnds
      exact ⟨Engine.state?_of_find? hfind hdone.state, keys,
        Engine.keys?_of_find? hfind hdone.keys, hrole⟩
    | right =>
      obtain ⟨conn, keys, hfind, hdone, hrole⟩ := hconforms.rightEnds
      exact ⟨Engine.state?_of_find? hfind hdone.state, keys,
        Engine.keys?_of_find? hfind hdone.keys, hrole⟩

end Run

end DietExchange
