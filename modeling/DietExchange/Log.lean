import DietExchange.Address
import DietExchange.Connection.State
import DietExchange.Curve.Basic
import DietExchange.Error

namespace DietExchange

namespace Log

/-- How much an event matters, least first. -/
inductive Level where
  | trace
  | debug
  | info
  | warn
  deriving DecidableEq, Repr

def Level.name : Level → String
  | trace => "TRACE"
  | debug => "DEBUG"
  | info => "INFO"
  | warn => "WARN"

/-- Something worth telling. -/
inductive Event where
  | opened (hit : Hit) (curve : Curve) (k : UInt8)
  | malformed (source : Address) (error : Error)
  | misdirected (kind : PacketKind) (source : Address) (receiver : Hit)
  | unsolicited (kind : PacketKind) (peer : Hit)
  | tableFull (kind : PacketKind) (peer : Hit)
  | dropped (kind : PacketKind) (peer : Hit) (error : Error)
  | rotated (generation : Nat)
  | rotationFailed (error : Error)
  | swept (count : Nat)
  | stepFailed (peer : Hit) (error : Error)
  | timerArmed
  | timerDisarmed
  | closed (hit : Hit)
  | sent (kind : PacketKind) (peer : Hit)
  | moved (before after : State)
  | established (peer : Hit)
  | retransmitted (kind : PacketKind) (peer : Hit) (state : State)
  | resentR2 (peer : Hit)
  | collision (peer : Hit)
  | ignored (kind : PacketKind) (peer : Hit) (state : State)
  | ignoredWhileSolving (peer : Hit)
  | solving (k : UInt8) (peer : Hit) (generation : Option UInt64)
  | solved (attempts : Nat)
  | holdWithoutKeys (peer : Hit)
  deriving DecidableEq

namespace Event

def level : Event → Level
  | misdirected .. | tableFull .. | dropped .. | rotationFailed .. | stepFailed .. => .warn
  | established .. => .info
  | unsolicited .. | sent .. | moved .. | collision .. | ignored .. | ignoredWhileSolving ..
  | solved .. => .trace
  | _ => .debug

/-- A generation that a puzzle may or may not tell. -/
def generationText : Option UInt64 → String
  | some generation => s!"Some({generation})"
  | none => "None"

def message : Event → String
  | opened hit curve k => s!"Engine for {hit} ({curve.name}), puzzle k={k}"
  | malformed source error => s!"Drop malformed packet from {source}: {error}"
  | misdirected kind source receiver => s!"Drop {kind.name} from {source} for {receiver}"
  | unsolicited kind peer => s!"Ignore unsolicited {kind.name} from {peer}"
  | tableFull kind peer => s!"Drop {kind.name} from {peer}: connection table full"
  | dropped kind peer error => s!"Drop {kind.name} from {peer}: {error}"
  | rotated generation => s!"Rotated puzzle secret, generation {generation}"
  | rotationFailed error => s!"Puzzle secret rotation failed: {error}"
  | swept count => s!"Retransmission sweep resent {count} packets"
  | stepFailed peer error => s!"Handshake step with {peer} failed: {error}"
  | timerArmed => "Arm retransmission timer"
  | timerDisarmed => "Disarm retransmission timer"
  | closed hit => s!"Engine for {hit} closed"
  | sent kind peer => s!"Send {kind.name} to {peer}"
  | moved before after => s!"{before.label} -> {after.label}"
  | established peer => s!"Established with {peer}"
  | retransmitted kind peer state => s!"Retransmit Some({kind.name}) to {peer} in {state.name}"
  | resentR2 peer => s!"Resend R2 to {peer}"
  | collision peer => s!"I2 collision with {peer}, the larger HIT proceeds"
  | ignored kind peer state => s!"Ignore {kind.name} from {peer} in {state.name}"
  | ignoredWhileSolving peer => s!"Ignore R1 from {peer} while solving"
  | solving k peer generation =>
    s!"Solving puzzle k={k} from {peer} (generation {generationText generation})"
  | solved attempts => s!"Puzzle solved after {attempts} attempts"
  | holdWithoutKeys peer => s!"R2_SENT hold for {peer} ended without keys"

/-- The log line of an event. -/
def line (event : Event) : String := s!"{event.level.name} {event.message}"

end Event

end Log

end DietExchange
