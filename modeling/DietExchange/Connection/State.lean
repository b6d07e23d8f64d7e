import DietExchange.Bytes

namespace DietExchange

/-- How far the handshake with a peer has come. -/
inductive State where
  | unassociated
  | i1Sent
  | i2Sent
  | r2Sent
  | established
  | closing
  | closed
  deriving DecidableEq, Repr

namespace State

/-- The name of the state in the protocol. -/
def name : State → String
  | unassociated => "UNASSOCIATED"
  | i1Sent => "I1_SENT"
  | i2Sent => "I2_SENT"
  | r2Sent => "R2_SENT"
  | established => "ESTABLISHED"
  | closing => "CLOSING"
  | closed => "CLOSED"

/-- The short name of the state in the log lines that tell of a transition. -/
def label : State → String
  | unassociated => "Unassociated"
  | i1Sent => "I1Sent"
  | i2Sent => "I2Sent"
  | r2Sent => "R2Sent"
  | established => "Established"
  | closing => "Closing"
  | closed => "Closed"

/-- Whether we wait for the peer's answer, so that the last packet is sent again and again. -/
def needsRetransmission : State → Bool
  | i1Sent | i2Sent => true
  | _ => false

/-- Every state, in the order of a handshake. -/
def all : List State := [unassociated, i1Sent, i2Sent, r2Sent, established, closing, closed]

end State

end DietExchange
