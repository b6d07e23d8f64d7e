import DietExchange.Proofs.Engine.Admission
import DietExchange.Proofs.Engine.Gate
import DietExchange.Proofs.Engine.History
import DietExchange.Proofs.Engine.Waiting

namespace DietExchange

namespace Connection

variable {ctx : Context} {conn moved : Connection}

theorem Move.state_of_initiate (hmove : conn.Move ctx .initiate moved) :
    conn.state = .unassociated ∧ moved.state = .i1Sent := by
  cases hmove with
  | initiate hstate => exact ⟨hstate, state_moveTo _ _⟩

/-- A packet leaves a connection in UNASSOCIATED only if it was there and the packet is not an
    I2. -/
theorem Move.state_of_packet {packet : Packet} (hmove : conn.Move ctx (.packet packet) moved) :
    moved.state = .unassociated ↔ conn.state = .unassociated ∧ packet.kind ≠ .i2 := by
  cases hmove with
  | ignore hdeaf =>
    refine ⟨fun hstate => ⟨hstate, fun hkind => ?_⟩, And.left⟩
    simp [heeds, hstate, hkind] at hdeaf
  | answerI1 hstate hkind => exact iff_of_true hstate ⟨hstate, by simp [hkind]⟩
  | answerI2AsI1 hstate | takeUpR1 hstate | resendR2 hstate | acceptR2 hstate =>
    simp [emit, holdTo, hstate]
  | answerI2 _ hkind => simp [respond, holdTo, hkind]

/-- Whether a hold ends at this time without anything to show for it. -/
def LapsesAt (conn : Connection) (now : Nat) : Prop :=
  conn.state = .r2Sent ∧ conn.keys = none ∧ ∃ deadline, conn.holdUntil = some deadline ∧
  deadline ≤ now

/-- Time leaves a connection in UNASSOCIATED if it was there, or if its hold ends without keys. -/
theorem Elapses.state_eq_unassociated_iff (hform : conn.WellFormed)
    (helapses : conn.Elapses ctx moved) :
    moved.state = .unassociated ↔ conn.state = .unassociated ∨ conn.LapsesAt ctx.now := by
  by_cases hheld : conn.state = .r2Sent
  · have hmove := helapses.of_r2Sent hform hheld
    constructor
    · intro hidle
      cases hmove with
      | wait => exact .inl hidle
      | establish => simp [emit] at hidle
      | giveUp hhold hdue hkeyless => exact .inr ⟨hheld, hkeyless, _, hhold, hdue⟩
    · rintro (hidle | ⟨-, hkeyless, deadline, hhold, hdue⟩)
      · cases hheld.symm.trans hidle
      · exact helapses.state_of_keyless hform hheld hkeyless hhold hdue
  · have hsame : moved.state = .unassociated ↔ conn.state = .unassociated := by
      rcases helapses.cases_move hform with ⟨hother, -⟩ | ⟨-, hmove | hmove⟩
      · exact absurd hother hheld
      · cases hmove
        rfl
      · cases hmove with
        | rest | search | lose => rfl
        | solve hpending => simp [conclude, (hform.pending _ hpending).1]
    rw [hsame]
    exact ⟨.inl, fun hor => hor.resolve_right fun hlapses => hheld hlapses.1⟩

end Connection

namespace Engine

/-- Whether an action finds the hold of the connection with a peer over without keys. -/
def Lapses (peer : Hit) (engine : Engine) : Action → Prop
  | .handleTimeout _ now => ∃ conn, engine.table.find? peer = some conn ∧ conn.LapsesAt now
  | .connect .. | .handlePacket .. | .pollOutput .. => False

/-- Whether an action begins a handshake with a peer, unless one is under way. -/
def Resumes (peer : Hit) (engine : Engine) : Action → Prop
  | .connect other _ _ => other = peer ∧ peer ≠ engine.hit
  | .handlePacket datagram _ now => ∃ packet keys cipher, Packet.parse datagram = .ok packet ∧
    packet.kind = .i2 ∧ packet.sender = peer ∧ packet.receiver = engine.hit ∧
    (engine.context (max engine.lastNow now)).validateI2 engine.hit peer packet = .ok (keys, cipher)
  | .handleTimeout .. | .pollOutput .. => False

section Step

variable {engine : Engine} (hopen : engine.closed = false) {peer : Hit}
include hopen

theorem connect_leaves_idle_iff (other : Hit) (address : Address) (now : Nat) :
    (engine.connect other address now).engine.state? peer = some .unassociated ↔
      engine.state? peer = some .unassociated ∧
      ¬engine.Resumes peer (.connect other address now) := by
  have hturned := connect_cases hopen other address now
  constructor
  · intro hidle
    rcases hturned.find?_cases peer with hsame | ⟨rfl, conn, moved, -, hmove, hafter, -⟩
    · have hbefore : engine.state? peer = some .unassociated := by
        rwa [state?, hsame] at hidle
      refine ⟨hbefore, ?_⟩
      rintro ⟨rfl, hother⟩
      obtain ⟨conn, hfind, hstate⟩ := Option.map_eq_some_iff.mp hbefore
      obtain ⟨-, moved, hmove, habsorbs⟩ := connect_offered hopen hother
        (.inl hfind : engine.Offers other address conn) hstate now
      have hkept := habsorbs.find_moved (hmove.peer_eq.trans (ConnectionTable.peer_of_find? hfind))
      cases (state?_of_find? hkept hmove.state_of_initiate.2).symm.trans hidle
    · cases (state?_of_find? hafter hmove.state_of_initiate.2).symm.trans hidle
  · rintro ⟨hidle, hspared⟩
    rcases hturned.find?_cases peer with hsame | ⟨rfl, -⟩
    · rw [state?, hsame]
      exact hidle
    · have hown : peer = engine.hit := by_contra fun hother => hspared ⟨rfl, hother⟩
      subst hown
      rwa [state?, connect_ownHit]

/-- A packet that begins nothing leaves a connection in UNASSOCIATED if it was there. -/
theorem handlePacket_leaves_idle_iff (hreachable : Reachable engine) (datagram : List UInt8)
    (source : Address) (now : Nat) :
    (engine.handlePacket datagram source now).engine.state? peer = some .unassociated ↔
      engine.state? peer = some .unassociated ∧
        ¬engine.Resumes peer (.handlePacket datagram source now) := by
  constructor
  · intro hidle
    have hbefore : engine.state? peer = some .unassociated := by
      rcases handlePacket_cases hopen datagram source now with
        hadvance | ⟨packet, -, -, hturned⟩
      · rwa [hadvance] at hidle
      · rcases hturned.find?_cases peer with hsame | ⟨rfl, conn, moved, hoffers, hmove,
          hafter, hnew⟩
        · rwa [state?, hsame] at hidle
        · have hmoved : moved.state = .unassociated :=
            Option.some.inj ((state?_of_find? hafter rfl).symm.trans hidle)
          rcases hoffers with hfind | ⟨hnone, -⟩
          · exact state?_of_find? hfind (hmove.state_of_packet.mp hmoved).1
          · exact absurd hmoved (hnew hnone)
    refine ⟨hbefore, ?_⟩
    rintro ⟨packet, keys, cipher, hparse, hkind, rfl, hreceiver, hvalid⟩
    obtain ⟨conn, hfind, hstate⟩ := Option.map_eq_some_iff.mp hbefore
    obtain ⟨hmem, hpeer⟩ := ConnectionTable.find?_eq_some_iff.mp hfind
    have hhere : (engine.context (max engine.lastNow now)).validateI2 conn.host conn.peer packet =
        .ok (keys, cipher) := by
      rw [hreachable.host_eq hmem, hpeer]
      exact hvalid
    obtain ⟨turn, hreceive⟩ := Turn.exists_receive_i2 ⟨conn, engine.rng, []⟩ _ packet hkind
      (.inl hstate : conn.AnswersI2 keys) hhere (Context.isKeyLength_of_validateI2 hhere)
    obtain ⟨-, habsorbs⟩ := handlePacket_known hopen hparse hreceiver source now hfind hreceive
    have hmove := Turn.move_of_receive hreceive
    have hkept := habsorbs.find_moved (hmove.peer_eq.trans hpeer)
    have hmoved : turn.conn.state = .unassociated :=
      Option.some.inj ((state?_of_find? hkept rfl).symm.trans hidle)
    exact (hmove.state_of_packet.mp hmoved).2 hkind
  · rintro ⟨hidle, hspared⟩
    rcases handlePacket_cases hopen datagram source now with
      hadvance | ⟨packet, hparse, hreceiver, hturned⟩
    · rwa [hadvance]
    · rcases hturned.find?_cases peer with hsame | ⟨rfl, conn, moved, hoffers, hmove, hafter, -⟩
      · rw [state?, hsame]
        exact hidle
      · obtain ⟨known, hfind, hstate⟩ := Option.map_eq_some_iff.mp hidle
        rcases hoffers with hfound | ⟨hnone, -⟩
        · obtain rfl := Option.some.inj (hfound.symm.trans hfind)
          refine state?_of_find? hafter
            (hmove.state_of_packet.mpr ⟨hstate, fun hkind => hspared ?_⟩)
          obtain ⟨hmem, hpeer⟩ := ConnectionTable.find?_eq_some_iff.mp hfind
          have hhost := hreachable.host_eq hmem
          rcases hmove.of_unassociated hstate with rfl | ⟨_, _, _, hi1, -⟩ | ⟨keys, cipher,
            -, hvalid⟩
          · have hstill := (hmove.state_of_packet.mp hstate).2
            exact absurd hkind hstill
          · cases hi1.symm.trans hkind
          · rw [hhost, hpeer] at hvalid
            exact ⟨packet, keys, cipher, hparse, hkind, rfl, hreceiver, hvalid⟩
        · cases (show engine.table.find? packet.sender = none from hnone).symm.trans hfind

theorem handleTimeoutIn_leaves_idle_iff (hreachable : Reachable engine) {peers : List Hit}
    (horder : peers.Perm engine.table.peers) (now : Nat) :
    (engine.handleTimeoutIn peers now).engine.state? peer = some .unassociated ↔
      engine.Lapses peer (.handleTimeout peers now) ∨ engine.state? peer = some .unassociated := by
  obtain ⟨elapsed, helapses⟩ := elapsed_handleTimeoutIn hopen horder now
  have hafter := helapses.find peer
  cases hfind : engine.table.find? peer with
  | none =>
    rw [hfind] at hafter
    simp [state?, hafter, hfind, Lapses]
  | some conn =>
    rw [hfind] at hafter
    obtain ⟨hmem, -⟩ := ConnectionTable.find?_eq_some_iff.mp hfind
    have hiff := (helapses.elapses conn).state_eq_unassociated_iff (hreachable.wellFormed hmem)
    rw [state?_of_find? hafter rfl, state?_of_find? hfind rfl, Option.some.injEq, Option.some.injEq]
    refine hiff.trans ⟨?_, ?_⟩
    · rintro (hidle | hlapses)
      · exact .inr hidle
      · exact .inl ⟨conn, hfind, hlapses⟩
    · rintro (⟨found, hfound, hlapses⟩ | hidle)
      · obtain rfl := Option.some.inj (hfound.symm.trans hfind)
        exact .inr hlapses
      · exact .inl hidle

/-- What an action does about a connection in UNASSOCIATED. -/
theorem act_leaves_idle_iff (hreachable : Reachable engine) {action : Action}
    (hallows : engine.Allows action) : (engine.act action).state? peer = some .unassociated ↔
      engine.Lapses peer action ∨
        (engine.state? peer = some .unassociated ∧ ¬engine.Resumes peer action) := by
  cases action with
  | connect other address now =>
    rw [Lapses, false_or]
    exact connect_leaves_idle_iff hopen other address now
  | handlePacket datagram source now =>
    rw [Lapses, false_or]
    exact handlePacket_leaves_idle_iff hopen hreachable datagram source now
  | handleTimeout peers now =>
    rw [Resumes, not_false_iff, and_true]
    exact handleTimeoutIn_leaves_idle_iff hopen hreachable hallows now
  | pollOutput room =>
    rw [Lapses, Resumes, not_false_iff, and_true, false_or]
    change (engine.pollOutput room).2.state? peer = _ ↔ _
    rw [state?, (engine.pollOutput_spec room).1]
    rfl

end Step

section Run

variable {config : Config} {identity : HostIdentity} {source rest : EntropySource}
  {systemSeed : UInt64} {start : Nat} {engine : Engine} {log : List Log.Event}
  (hcreate : create config identity source systemSeed start = (.ok (engine, log), rest))
  {actions : List Action} (hallows : engine.AllowsAll actions)
include hcreate hallows

/-- A connection is in UNASSOCIATED exactly if its hold lapsed and nothing was begun with the peer
    since. -/
theorem state?_actAll_iff (peer : Hit) : (engine.actAll actions).state? peer = some .unassociated ↔
    Since (Lapses peer) (Resumes peer) engine actions := by
  obtain ⟨-, -, htable, -, -, hopen, -⟩ := create_spec hcreate
  have hfirst : engine.state? peer ≠ some .unassociated := by
    rw [state?, htable]
    exact Option.some_ne_none _ ∘ Eq.symm
  refine holds_actAll_iff (P := fun engine => engine.state? peer = some .unassociated) (Lapses peer)
    (Resumes peer) (.create hcreate) hopen hfirst ?_ hallows
  intro before action hreachable hstill _ _ hallowed
  exact act_leaves_idle_iff hstill hreachable hallowed

/-- An entry whose hold lapsed without keys stays in the table, in UNASSOCIATED, until a handshake
    is begun with the peer again. Every other entry is that of a handshake in progress or of an
    association, and an engine that was closed has none. -/
theorem idle_entries_have_lapsed :
    (∀ peer, (engine.actAll actions).state? peer = some .unassociated ↔
      Since (Lapses peer) (Resumes peer) engine actions) ∧
    (∀ conn ∈ (engine.actAll actions).table.connections,
      conn.state ∈ [.i1Sent, .i2Sent, .r2Sent, .established] ∨
        Since (Lapses conn.peer) (Resumes conn.peer) engine actions) ∧
    ∀ later, (((engine.actAll actions).after .close).actAll later).table = .empty := by
  have hreachable : Reachable engine := .create hcreate
  obtain ⟨-, -, -, -, -, hopen, -⟩ := create_spec hcreate
  refine ⟨state?_actAll_iff hcreate hallows, fun conn hmem => ?_,
    table_actAll_of_closed (closed_actAll hopen hallows)⟩
  obtain ⟨hclosing, hclosed⟩ := ((hreachable.actAll hallows).wellFormed hmem).live
  have hfind := ConnectionTable.find?_eq_some_iff.mpr ⟨hmem, rfl⟩
  rw [← state?_actAll_iff hcreate hallows conn.peer, state?_of_find? hfind rfl]
  cases hstate : conn.state with
  | closing => exact absurd hstate hclosing
  | closed => exact absurd hstate hclosed
  | unassociated => exact .inr rfl
  | i1Sent | i2Sent | r2Sent | established => exact .inl (by simp)

end Run

/-- A peer to whom we sent an I1 can have it answered by an I2 that proves nothing, and then leave
    us alone. -/
theorem exists_lapse_of_other :
    ∃ (engine : Engine) (log : List Log.Event) (rest : EntropySource) (peer : Hit)
    (actions : List Action), create SampleHost.config (SampleHost.identity 1)
      (EntropySource.scripted [] 1) 0 0 = (.ok (engine, log), rest) ∧
    engine.AllowsAll actions ∧ Since (Lapses peer) (Resumes peer) engine actions ∧
    peer ≠ engine.hit := by
  obtain ⟨engine, hnew⟩ := SampleHost.exists_isNew 1
  obtain ⟨log, rest, hcreate⟩ := hnew.created
  obtain ⟨peer, datagram, -, -, -, -, hi1Sent, hr2Sent, hkeyless⟩ := exists_keyless_hold hnew
  let opening : List Action := [.connect peer (.ofHost 2) 0, .handlePacket datagram (.ofHost 2) 0]
  let waiting := engine.actAll opening
  have hreachable : Reachable waiting :=
    Reachable.actAll (.create hcreate) ⟨trivial, trivial, trivial⟩
  obtain ⟨conn, hfind, hstate⟩ := Option.map_eq_some_iff.mp hr2Sent
  obtain ⟨hmem, -⟩ := ConnectionTable.find?_eq_some_iff.mp hfind
  obtain ⟨deadline, hdeadline⟩ :=
    Option.isSome_iff_exists.mp ((hreachable.wellFormed hmem).hold.mpr hstate)
  have hkeys : conn.keys = none := (keys?_of_find? hfind rfl).symm.trans hkeyless
  have hlapses : waiting.Lapses peer (.handleTimeout waiting.table.peers deadline) :=
    ⟨conn, hfind, hstate, hkeys, deadline, hdeadline, Nat.le_refl _⟩
  have hallows : engine.AllowsAll (opening ++ [.handleTimeout waiting.table.peers deadline]) :=
    allowsAll_append.mpr ⟨⟨trivial, trivial, trivial⟩, List.Perm.refl _, trivial⟩
  have hother : peer ≠ engine.hit := by
    rintro rfl
    have hrefused : (engine.after (.connect engine.hit (.ofHost 2) 0)).table = engine.table :=
      engine.connect_ownHit (.ofHost 2) 0
    rw [state?, hrefused, hnew.find?_eq_none] at hi1Sent
    cases hi1Sent
  exact ⟨engine, log, rest, peer, _, hcreate, hallows, ⟨opening, _, [], rfl, hlapses,
    fun middle later rest hback => by simp at hback⟩, hother⟩

theorem exists_lapse :
    ∃ (engine : Engine) (log : List Log.Event) (rest : EntropySource) (peer : Hit)
    (actions : List Action), create SampleHost.config (SampleHost.identity 1)
      (EntropySource.scripted [] 1) 0 0 = (.ok (engine, log), rest) ∧
    engine.AllowsAll actions ∧ Since (Lapses peer) (Resumes peer) engine actions := by
  obtain ⟨engine, log, rest, peer, actions, hcreate, hallows, hsince, -⟩ := exists_lapse_of_other
  exact ⟨engine, log, rest, peer, actions, hcreate, hallows, hsince⟩

/-- So an entry can be left in UNASSOCIATED. -/
theorem exists_idle_entry :
    ∃ (config : Config) (identity : HostIdentity) (source rest : EntropySource)
    (engine : Engine) (log : List Log.Event) (peer : Hit) (actions : List Action),
    create config identity source 0 0 = (.ok (engine, log), rest) ∧ engine.AllowsAll actions ∧
    (engine.actAll actions).state? peer = some .unassociated := by
  obtain ⟨engine, log, rest, peer, actions, hcreate, hallows, hsince⟩ := exists_lapse
  exact ⟨_, _, _, rest, engine, log, peer, actions, hcreate, hallows,
    ((idle_entries_have_lapsed hcreate hallows).1 peer).mpr hsince⟩

/-- It is not so that every entry is that of a handshake in progress or of an association. -/
theorem not_forall_entries_alive : ¬∀ engine : Engine, Reachable engine →
    ∀ conn ∈ engine.table.connections, conn.state ≠ .unassociated := by
  intro halive
  obtain ⟨engine, log, rest, peer, actions, hcreate, hallows, hsince⟩ := exists_lapse
  have hidle := (state?_actAll_iff hcreate hallows peer).mpr hsince
  obtain ⟨conn, hfind, hstate⟩ := Option.map_eq_some_iff.mp hidle
  obtain ⟨hmem, -⟩ := ConnectionTable.find?_eq_some_iff.mp hfind
  exact halive _ (Reachable.actAll (.create hcreate) hallows) conn hmem hstate

end Engine

end DietExchange
