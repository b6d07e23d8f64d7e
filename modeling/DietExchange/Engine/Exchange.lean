import DietExchange.Engine.Calls
import DietExchange.Packet.Codec

namespace DietExchange

/-- An engine at an address. A place may also be vacant. -/
structure Station where
  engine : Option Engine
  address : Address

/-- Something that happened in a round, at the station with this index. -/
inductive ExchangeEvent where
  | timeoutFailed (station : Nat) (error : Error)
  | connected (station : Nat) (peer : Hit)
  /-- A datagram was delivered, with this result. -/
  | delivered (station : Nat) (outgoing : Outgoing) (result : Except Error Unit)
  /-- There was no engine at the address of a datagram. -/
  | lost (station : Nat) (outgoing : Outgoing)

/-- Stations, the datagrams that were under way between them so far, and their log. -/
structure Exchange where
  stations : List Station
  wire : List (List UInt8)
  log : List Log.Event

namespace Exchange

def engine? (exchange : Exchange) (station : Nat) : Option Engine :=
  exchange.stations[station]?.bind (·.engine)

def setEngine (exchange : Exchange) (station : Nat) (engine : Engine) : Exchange :=
  { exchange with
    stations := exchange.stations.modify station fun place => { place with engine := some engine } }

/-- Store what a call to an engine came to. -/
def store (exchange : Exchange) (station : Nat) (reply : Reply) : Exchange :=
  { exchange.setEngine station reply.engine with log := exchange.log ++ reply.log }

def putOnWire (exchange : Exchange) (datagrams : List (List UInt8)) : Exchange :=
  { exchange with wire := exchange.wire ++ datagrams }

/-- The first station with an engine at this address. -/
def stationAt? (exchange : Exchange) (address : Address) : Option Nat :=
  exchange.stations.findIdx? fun place => place.engine.isSome && place.address == address

/-- Let an engine see the time. -/
def tick (exchange : Exchange) (now station : Nat) : Exchange × List ExchangeEvent :=
  match exchange.engine? station with
  | none => (exchange, [])
  | some engine =>
    let reply := engine.handleTimeout now
    (exchange.store station reply, match reply.result with
      | .ok () => []
      | .error error => [.timeoutFailed station error])

/-- Have an engine hand out what it has; its datagrams are under way then. -/
def collect (exchange : Exchange) (station : Nat) :
    Exchange × List ExchangeEvent × List (Nat × Outgoing) :=
  match exchange.engine? station with
  | none => (exchange, [], [])
  | some engine =>
    let (drained, engine) := engine.drain
    (exchange.setEngine station engine, drained.connected.map (.connected station),
      drained.datagrams.map (station, ·))

/-- Hand a datagram to the engine at its address. -/
def deliver (exchange : Exchange) (now station : Nat) (outgoing : Outgoing) :
    Exchange × ExchangeEvent :=
  let exchange := exchange.putOnWire [outgoing.datagram]
  let source := (exchange.stations[station]?.map (·.address)).getD default
  match exchange.stationAt? outgoing.address with
  | none => (exchange, .lost station outgoing)
  | some target =>
    match exchange.engine? target with
    | none => (exchange, .lost station outgoing)
    | some engine =>
      let reply := engine.handlePacket outgoing.datagram source now
      (exchange.store target reply, .delivered station outgoing reply.result)

/-- What a round comes to. -/
structure Round where
  exchange : Exchange
  events : List ExchangeEvent
  /-- Whether any engine had anything to hand out. -/
  busy : Bool

/-- The first half of a round, for the stations with these indices: each engine sees the time, if it
    is to, and hands out what it has. -/
def gather (now : Nat) (ticking : Bool) :
    List Nat → Exchange → Exchange × List ExchangeEvent × List (Nat × Outgoing)
  | [], exchange => (exchange, [], [])
  | station :: rest, exchange =>
    let (exchange, failures) := if ticking then exchange.tick now station else (exchange, [])
    let (exchange, connected, flying) := exchange.collect station
    let (exchange, events, others) := gather now ticking rest exchange
    (exchange, failures ++ connected ++ events, flying ++ others)

/-- The second half of a round: every datagram goes to the engine at its address. -/
def deliverAll (now : Nat) : List (Nat × Outgoing) → Exchange → Exchange × List ExchangeEvent
  | [], exchange => (exchange, [])
  | (station, outgoing) :: rest, exchange =>
    let (exchange, event) := exchange.deliver now station outgoing
    let (exchange, events) := deliverAll now rest exchange
    (exchange, event :: events)

/-- One round. -/
def round (exchange : Exchange) (now : Nat) (ticking : Bool) : Round :=
  let (exchange, events, flying) :=
    gather now ticking (List.range exchange.stations.length) exchange
  let isConnected : ExchangeEvent → Bool
    | .connected .. => true
    | _ => false
  let busy := events.any isConnected || !flying.isEmpty
  let (exchange, deliveries) := deliverAll now flying exchange
  ⟨exchange, events ++ deliveries, busy⟩

/-- Up to `rounds` rounds, `pause` apart. Where time stands still they end with one in which no
    engine had anything to hand out. -/
def rounds : (count now pause : Nat) → (ticking : Bool) → Exchange → Exchange × List ExchangeEvent
  | 0, _, _, _, exchange => (exchange, [])
  | count + 1, now, pause, ticking, exchange =>
    let done := exchange.round now ticking
    if pause = 0 ∧ !done.busy then (done.exchange, done.events)
    else
      let (exchange, events) := rounds count (now + pause) pause ticking done.exchange
      (exchange, done.events ++ events)

end Exchange

end DietExchange
