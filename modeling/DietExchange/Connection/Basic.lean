import DietExchange.CipherSuite
import DietExchange.Connection.State
import DietExchange.KeySet
import DietExchange.Log
import DietExchange.Parameter.Basic
import DietExchange.Puzzle.Search

namespace DietExchange

/-- What a connection asks of its engine. -/
inductive Signal where
  | transmit (datagram : List UInt8)
  | startRetransmission
  | stopRetransmission
  | connected
  deriving DecidableEq

/-- An R1 that was accepted and whose puzzle is still being solved. -/
structure PendingAnswer where
  search : PuzzleSearch
  puzzle : Puzzle
  keys : KeySet
  /-- What the R1 asked to be sent back. -/
  echo : Option (List UInt8)
  deriving DecidableEq

/-- A packet that was sent. -/
structure SentPacket where
  kind : PacketKind
  datagram : List UInt8
  deriving DecidableEq

/-- The handshake with one peer. -/
structure Connection where
  state : State
  /-- Our own tag. -/
  host : Hit
  /-- The tag of the peer. -/
  peer : Hit
  /-- Where the peer is reached. -/
  address : Address
  /-- The session keys, provisional until the handshake is complete. -/
  keys : Option KeySet
  /-- The suite picked from the peer's offer, if we are the responder. -/
  cipher : Option CipherSuite
  /-- The packet sent last. -/
  lastSent : Option SentPacket
  /-- The puzzle being solved. -/
  pending : Option PendingAnswer
  /-- When the wait for repeated I2s ends. -/
  holdUntil : Option Nat
  /-- What the engine is still to be asked, oldest first. -/
  outbox : List Signal
  deriving DecidableEq

namespace Connection

/-- A connection on which nothing has happened yet. -/
def fresh (host peer : Hit) (address : Address) : Connection where
  state := .unassociated
  host := host
  peer := peer
  address := address
  keys := none
  cipher := none
  lastSent := none
  pending := none
  holdUntil := none
  outbox := []

/-- Whether a puzzle is being solved. -/
def isSolving (conn : Connection) : Bool := conn.pending.isSome

/-- The connection with one more thing to ask of the engine. -/
def emit (conn : Connection) (signal : Signal) : Connection :=
  { conn with outbox := conn.outbox ++ [signal] }

/-- What the engine is asked when a connection goes from one state to another: to begin or to end
    sending its last packet again. -/
def sweepSignals (before after : State) : List Signal :=
  match before.needsRetransmission, after.needsRetransmission with
  | false, true => [.startRetransmission]
  | true, false => [.stopRetransmission]
  | _, _ => []

/-- The connection in another state. A search does not outlive I1_SENT, nor the hold R2_SENT. -/
def moveTo (conn : Connection) (next : State) : Connection :=
  if conn.state = next then conn
  else
    { conn with
      state := next
      pending := if conn.state = .i1Sent then none else conn.pending
      holdUntil := if next = .r2Sent then conn.holdUntil else none
      outbox := conn.outbox ++ sweepSignals conn.state next }

/-- The line that tells of a move, if it is one. -/
def moveLog (conn : Connection) (next : State) : List Log.Event :=
  if conn.state = next then [] else [.moved conn.state next]

/-- The connection with its last packet to be sent again, in a state that asks for it. While a
    puzzle is being solved there is no use in that. -/
def retransmit? (conn : Connection) : Option (Connection × Log.Event) :=
  if conn.state.needsRetransmission && !conn.isSolving then
    conn.lastSent.map fun sent =>
      (conn.emit (.transmit sent.datagram), .retransmitted sent.kind conn.peer conn.state)
  else
    none

end Connection

end DietExchange
