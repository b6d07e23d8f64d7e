import DietExchange.Proofs.Connection.Role
import DietExchange.Proofs.Engine.Link
import Mathlib.Logic.Function.Basic

/-!
Two engines and the network between them, which loses, repeats, delays and reorders what they
queue for each other, and makes up I1s.
-/

namespace DietExchange

inductive Side where
  | left
  | right
  deriving DecidableEq

namespace Side

def other : Side → Side
  | .left => .right
  | .right => .left

@[simp]
theorem other_other (side : Side) : side.other.other = side := by cases side <;> rfl

@[simp]
theorem other_ne (side : Side) : side.other ≠ side := by cases side <;> simp [other]

/-- Where one side finds the other. -/
def remote : Side → Address
  | .left => .ofHost 2
  | .right => .ofHost 1

theorem eq_or_eq_other (side moving : Side) : side = moving ∨ side = moving.other := by
  cases side <;> cases moving <;> simp [other]

end Side

/-- A call to one of two engines. -/
structure Event where
  side : Side
  call : Call

/-- Whether time does not go back from one event to a later one. -/
def Event.Timely (events : List Event) : Prop :=
  (events.filterMap fun event => event.call.now?).Pairwise (· ≤ ·)

/-- Whether time does not go back either from `now` to the first of several events. -/
def Event.TimelyFrom (now : Nat) (events : List Event) : Prop :=
  (now :: events.filterMap fun event => event.call.now?).Pairwise (· ≤ ·)

/-- The calls to one of the engines. -/
def Event.callsTo (side : Side) (events : List Event) : List Call :=
  (events.filter (·.side = side)).map Event.call

/-- Two engines, and the datagrams that each of them has queued so far. -/
structure Network where
  engine : Side → Engine
  sent : Side → List (List UInt8)

namespace Network

/-- Two engines with nothing queued yet. -/
def start (left right : Engine) : Network where
  engine
    | .left => left
    | .right => right
  sent _ := []

variable (network : Network)

def peer (side : Side) : Hit := (network.engine side.other).hit

/-- The state of the handshake with the other engine. -/
def state? (side : Side) : Option State := (network.engine side).state? (network.peer side)

/-- The keys with the other engine. -/
def keys? (side : Side) : Option KeySet := (network.engine side).keys? (network.peer side)

def step (event : Event) : Network where
  engine := Function.update network.engine event.side
    ((network.engine event.side).after event.call)
  sent := Function.update network.sent event.side (network.sent event.side ++
    ((network.engine event.side).queuedBy event.call).map Outgoing.datagram)

def run (network : Network) (events : List Event) : Network := events.foldl step network

/-- Whether the network can bring an event about: a packet of the other engine that it hands over
    was queued by that engine, unless it is an I1, which proves nothing. No engine is closed. -/
structure Admits (event : Event) : Prop where
  notClose : event.call ≠ .close
  queued : ∀ datagram source now packet, event.call = .handlePacket datagram source now →
    Packet.parse datagram = .ok packet → packet.sender = network.peer event.side →
    packet.kind ≠ .i1 → datagram ∈ network.sent event.side.other

/-- Whether the network can bring about one event after the other. -/
def Lawful (network : Network) : List Event → Prop
  | [] => True
  | event :: rest => network.Admits event ∧ (network.step event).Lawful rest

/-- Whether two hosts bring an event about by themselves: one of them sees the time, or takes a
    datagram that the other one queued for it. -/
def Delivers (event : Event) : Prop :=
  (∃ order now, event.call = .handleTimeout order now) ∨
  ∃ datagram source now packet, event.call = .handlePacket datagram source now ∧
    datagram ∈ network.sent event.side.other ∧ Packet.parse datagram = .ok packet ∧
    packet.receiver = network.peer event.side.other

/-- Whether two hosts bring one event after the other about by themselves. -/
def Exchanges (network : Network) : List Event → Prop
  | [] => True
  | event :: rest => network.Delivers event ∧ (network.step event).Exchanges rest

/-- Whether both hosts are done with each other and hold the same keys. -/
def IsResolved : Prop :=
  ∀ side, network.state? side = some .established ∧ ∃ mine theirs : KeySet,
    network.keys? side = some mine ∧ network.keys? side.other = some theirs ∧ mine.SameKeys theirs

/-- Whether an engine that is done as the initiator begins anew as the responder. -/
structure Yields (event : Event) : Prop where
  done : network.state? event.side = some .established
  initiated : ∃ keys, network.keys? event.side = some keys ∧ keys.isInitiator = true
  responds : (network.step event).state? event.side = some .r2Sent

/-- Whether this happens at one of several events. -/
def YieldsIn (network : Network) : List Event → Prop
  | [] => False
  | event :: rest => network.Yields event ∨ (network.step event).YieldsIn rest

/-- Two hosts that are what they seem to be and agree on secrets and on the lengths of keys. -/
structure Honest : Prop where
  reachable : ∀ side, (network.engine side).Reachable
  isOpen : ∀ side, (network.engine side).closed = false
  key : ∀ side, (network.engine side).identity.HasCurveKey
  distinct : ∀ side, network.peer side ≠ (network.engine side).hit
  lengths : ∀ side, (network.engine side.other).config.keyLengths =
    (network.engine side).config.keyLengths
  agreement : ∀ side secret shared,
    (network.engine side).identity.key.agree (network.engine side.other).identity.publicKey =
      .ok secret →
    (network.engine side.other).identity.key.agree (network.engine side).identity.publicKey =
      .ok shared → secret = shared

variable {network} {event : Event}

@[simp]
theorem engine_step_self : (network.step event).engine event.side =
    (network.engine event.side).after event.call := Function.update_self ..

@[simp]
theorem engine_step_other : (network.step event).engine event.side.other =
    network.engine event.side.other := Function.update_of_ne (Side.other_ne _) ..

@[simp]
theorem sent_step_self : (network.step event).sent event.side = network.sent event.side ++
    ((network.engine event.side).queuedBy event.call).map Outgoing.datagram :=
      Function.update_self ..

@[simp]
theorem sent_step_other : (network.step event).sent event.side.other =
    network.sent event.side.other := Function.update_of_ne (Side.other_ne _) ..

theorem mem_sent_step {out : Outgoing}
    (hqueued : out ∈ (network.engine event.side).queuedBy event.call) :
    out.datagram ∈ (network.step event).sent event.side := by
  rw [sent_step_self]
  exact List.mem_append_right _ (List.mem_map_of_mem hqueued)

theorem continues_step (network : Network) (event : Event) (side : Side) :
    (network.engine side).Continues ((network.step event).engine side) := by
  rcases side.eq_or_eq_other event.side with rfl | rfl
  · rw [engine_step_self]
    exact Engine.continues_after _ _
  · rw [engine_step_other]
    exact .refl _

theorem peer_step (network : Network) (event : Event) (side : Side) :
    (network.step event).peer side = network.peer side :=
  (network.continues_step event side.other).hit

theorem state?_step_self : (network.step event).state? event.side =
    ((network.engine event.side).after event.call).state? (network.peer event.side) := by
  rw [state?, engine_step_self, peer_step]

section Run

theorem engine_run (events : List Event) (side : Side) : (network.run events).engine side =
    (network.engine side).run (Event.callsTo side events) := by
  induction events generalizing network with
  | nil => rfl
  | cons event rest ih =>
    rw [show network.run (event :: rest) = (network.step event).run rest from rfl, ih]
    rcases side.eq_or_eq_other event.side with rfl | rfl
    · rw [engine_step_self]
      simp [Event.callsTo, Engine.run]
    · rw [engine_step_other]
      simp [Event.callsTo, (Side.other_ne event.side).symm]

theorem continues_run (network : Network) (events : List Event) (side : Side) :
    (network.engine side).Continues ((network.run events).engine side) := by
  rw [engine_run]
  exact Engine.continues_run _ _

theorem peer_run (events : List Event) (side : Side) :
    (network.run events).peer side = network.peer side :=
  (network.continues_run events side.other).hit

theorem run_append (network : Network) (front back : List Event) :
    network.run (front ++ back) = (network.run front).run back := List.foldl_append

theorem sent_run (events : List Event) (side : Side) : (network.run events).sent side =
    network.sent side ++ ((network.engine side).queuedIn (Event.callsTo side events)).map
      Outgoing.datagram := by
  induction events generalizing network with
  | nil => exact (List.append_nil _).symm
  | cons event rest ih =>
    rw [show network.run (event :: rest) = (network.step event).run rest from rfl, ih]
    rcases side.eq_or_eq_other event.side with rfl | rfl
    · rw [engine_step_self, sent_step_self, List.append_assoc, ← List.map_append]
      simp [Event.callsTo, Engine.queuedIn]
    · rw [engine_step_other, sent_step_other]
      simp [Event.callsTo, (Side.other_ne event.side).symm]

/-- Whatever an engine queues at one of its calls is there from then on. -/
theorem mem_sent_run {events : List Event} {side : Side} (front back : List Call) {call : Call}
    {datagram : List UInt8} (hcalls : Event.callsTo side events = front ++ call :: back)
    (hqueued : ∃ out ∈ ((network.engine side).run front).queuedBy call, out.datagram = datagram) :
    datagram ∈ (network.run events).sent side := by
  obtain ⟨out, hout, rfl⟩ := hqueued
  rw [sent_run, hcalls, Engine.queuedIn_append, Engine.queuedIn]
  apply List.mem_append_right
  apply List.mem_map_of_mem
  apply List.mem_append_right
  exact List.mem_append_left _ hout

/-- What is queued once stays there. -/
theorem mem_sent_run_of_mem {side : Side} {datagram : List UInt8}
    (hsent : datagram ∈ network.sent side) (events : List Event) :
      datagram ∈ (network.run events).sent side := by
  rw [sent_run]
  exact List.mem_append_left _ hsent

end Run

theorem lawful_append {front back : List Event} (hfront : network.Lawful front)
    (hback : (network.run front).Lawful back) : network.Lawful (front ++ back) := by
  induction front generalizing network with
  | nil => exact hback
  | cons event rest ih => exact ⟨hfront.1, ih hfront.2 hback⟩

section Admits

theorem admits_connect (side : Side) (peer : Hit) (address : Address) (now : Nat) :
    network.Admits ⟨side, .connect peer address now⟩ :=
  ⟨by simp, fun _ _ _ _ heq => by cases heq⟩

theorem admits_timeout (side : Side) (order : List Hit) (now : Nat) :
    network.Admits ⟨side, .handleTimeout order now⟩ :=
  ⟨by simp, fun _ _ _ _ heq => by cases heq⟩

/-- A datagram of the other engine can be handed over at any time, as often as the network likes. -/
theorem admits_of_sent {side : Side} {datagram : List UInt8}
    (hsent : datagram ∈ network.sent side.other) (source : Address) (now : Nat) :
    network.Admits ⟨side, .handlePacket datagram source now⟩ := by
  refine ⟨by simp, fun found _ _ _ heq _ _ _ => ?_⟩
  cases heq
  exact hsent

/-- An I1 can be made up. -/
theorem admits_of_i1 {datagram : List UInt8} {packet : Packet}
    (hparse : Packet.parse datagram = .ok packet) (hkind : packet.kind = .i1) (side : Side)
    (source : Address) (now : Nat) : network.Admits ⟨side, .handlePacket datagram source now⟩ := by
  refine ⟨by simp, fun found _ _ other heq hother _ hnot => absurd hkind ?_⟩
  cases heq
  obtain rfl := Except.ok.inj (hparse.symm.trans hother)
  exact hnot

end Admits

section Exchanges

/-- A datagram for us that the other engine has queued can be handed over from then on. -/
theorem delivers_run_of_sent {side : Side} {datagram : List UInt8}
    (hsent : datagram ∈ network.sent side.other) (hpacket : ∃ packet,
      Packet.parse datagram = .ok packet ∧ packet.receiver = (network.engine side).hit)
    (source : Address) (now : Nat) (front : List Event) :
    (network.run front).Delivers ⟨side, .handlePacket datagram source now⟩ := by
  obtain ⟨packet, hparse, hreceiver⟩ := hpacket
  refine .inr ⟨datagram, source, now, packet, rfl, mem_sent_run_of_mem hsent front, hparse, ?_⟩
  rw [hreceiver, peer_run, peer, Side.other_other]

theorem Delivers.admits (hdelivers : network.Delivers event) : network.Admits event := by
  obtain ⟨side, call⟩ := event
  rcases hdelivers with ⟨order, now, rfl⟩ | ⟨datagram, source, now, packet, rfl, hsent, -⟩
  · exact admits_timeout side order now
  · exact admits_of_sent hsent source now

/-- What two hosts do by themselves, the network can bring about. -/
theorem Exchanges.lawful {events : List Event} (hexchanges : network.Exchanges events) :
    network.Lawful events := by
  induction events generalizing network with
  | nil => exact trivial
  | cons event rest ih => exact ⟨hexchanges.1.admits, ih hexchanges.2⟩

theorem exchanges_append {front back : List Event} (hfront : network.Exchanges front)
    (hback : (network.run front).Exchanges back) : network.Exchanges (front ++ back) := by
  induction front generalizing network with
  | nil => exact hback
  | cons event rest ih => exact ⟨hfront.1, ih hfront.2 hback⟩

/-- What can be brought about at any time can be so one after the other. -/
theorem exchanges_of_forall {events : List Event}
    (hdelivers : ∀ event ∈ events, ∀ front, (network.run front).Delivers event) :
    network.Exchanges events := by
  induction events generalizing network with
  | nil => exact trivial
  | cons first rest ih =>
    refine ⟨hdelivers first List.mem_cons_self [], ih fun event hmem front => ?_⟩
    exact hdelivers event (List.mem_cons_of_mem _ hmem) (first :: front)

end Exchanges

theorem Honest.step (hhonest : network.Honest) (hadmits : network.Admits event) :
    (network.step event).Honest where
  reachable side := by
    rcases side.eq_or_eq_other event.side with rfl | rfl
    · rw [engine_step_self]
      exact (hhonest.reachable _).after _
    · rw [engine_step_other]
      exact hhonest.reachable _
  isOpen side := by
    rcases side.eq_or_eq_other event.side with rfl | rfl
    · rw [engine_step_self]
      exact Engine.closed_after (hhonest.isOpen _) hadmits.notClose
    · rw [engine_step_other]
      exact hhonest.isOpen _
  key side := by
    rw [(network.continues_step event side).identity]
    exact hhonest.key side
  distinct side := by
    rw [peer_step, (network.continues_step event side).hit]
    exact hhonest.distinct side
  lengths side := by
    rw [(network.continues_step event side).config,
      (network.continues_step event side.other).config]
    exact hhonest.lengths side
  agreement side := by
    rw [(network.continues_step event side).identity,
      (network.continues_step event side.other).identity]
    exact hhonest.agreement side

/-- Two hosts stay what they are, whatever happens. -/
theorem Honest.run {events : List Event} (hhonest : network.Honest)
    (hlawful : network.Lawful events) : (network.run events).Honest := by
  induction events generalizing network with
  | nil => exact hhonest
  | cons event rest ih =>
    obtain ⟨hadmits, hrest⟩ := hlawful
    exact ih (hhonest.step hadmits) hrest

end Network

end DietExchange
