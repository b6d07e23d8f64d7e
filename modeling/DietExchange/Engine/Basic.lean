import DietExchange.Connection.Turn
import DietExchange.Engine.Table
import DietExchange.Timer

/-!
The engine of one host identity: its connections, its puzzle secrets, its two timers and what it
has to put out. It does no input or output of its own; datagrams and the time are handed to it,
and what is to be done is polled from it. Times are milliseconds from an instant of the caller's
choice.
-/

namespace DietExchange

/-- How long an engine with nothing to wait for tells its caller to wait: ten years of 365 days. -/
def distantFuture : Nat := 10 * 365 * 24 * 60 * 60 * 1000

/-- A datagram to be sent, and where to. -/
structure Outgoing where
  address : Address
  datagram : List UInt8
  deriving DecidableEq

structure Engine where
  config : Config
  identity : HostIdentity
  issuer : PuzzleIssuer
  entropy : EntropySource
  rng : RandomStream
  table : ConnectionTable
  /-- How many connections have their last packet sent again and again. -/
  retransmitting : Nat
  /-- Armed while there are any. -/
  retransmissionTimer : Timer
  rotationTimer : Timer
  /-- Datagrams to be sent, oldest first. -/
  datagrams : List Outgoing
  /-- Peers with whom the handshake is complete, not told yet, oldest first. -/
  established : List Hit
  /-- The latest time that was told. -/
  lastNow : Nat
  closed : Bool

/-- What a call comes to: whether it was refused, the engine after it, and what there is to log. -/
structure Reply where
  result : Except Error Unit
  engine : Engine
  log : List Log.Event

namespace Engine

/-- An engine with one fresh secret and the rotation timer armed. Configurations are not checked
    again, but the helpers are. Without a seed in the configuration the random stream is that of
    `systemSeed`. -/
def create (config : Config) (identity : HostIdentity) (source : EntropySource)
    (systemSeed : UInt64) (now : Nat) : Except Error (Engine × List Log.Event) × EntropySource :=
  match config.checkHelpers source with
  | (.error error, source) => (.error error, source)
  | (.ok (), source) =>
    match PuzzleIssuer.create config.puzzleComplexity source with
    | (.error error, source) => (.error error, source)
    | (.ok issuer, source) =>
      let engine : Engine := {
        config := config
        identity := identity
        issuer := issuer
        entropy := source
        rng := RandomStream.ofSeed (config.rngSeed.getD systemSeed)
        table := ConnectionTable.empty
        retransmitting := 0
        retransmissionTimer := Timer.ofPeriod config.retransmissionInterval
        rotationTimer := (Timer.ofPeriod config.rotationInterval).arm now
        datagrams := []
        established := []
        lastNow := now
        closed := false }
      (.ok (engine, [.opened identity.hit identity.curve config.puzzleComplexity]), source)

/-- Our own tag. -/
def hit (engine : Engine) : Hit := engine.identity.hit

/-- The state of the handshake with a peer. -/
def state? (engine : Engine) (peer : Hit) : Option State := (engine.table.find? peer).map (·.state)

/-- The session keys with a peer, provisional until the handshake is complete. -/
def keys? (engine : Engine) (peer : Hit) : Option KeySet := (engine.table.find? peer).bind (·.keys)

/-- The suite picked from a peer's offer, if we were the responder. -/
def cipher? (engine : Engine) (peer : Hit) : Option CipherSuite :=
  (engine.table.find? peer).bind (·.cipher)

def connectionCount (engine : Engine) : Nat := engine.table.size

def isRetransmissionArmed (engine : Engine) : Bool := engine.retransmissionTimer.isArmed

def puzzleGeneration (engine : Engine) : Nat := engine.issuer.generation

/-- The engine at `now`; time never goes backwards. -/
def advance (engine : Engine) (now : Nat) : Engine :=
    { engine with lastNow := max engine.lastNow now }

/-- What a connection borrows while it handles something at `now`. -/
def context (engine : Engine) (now : Nat) : Context :=
  ⟨engine.config, engine.identity, engine.issuer, now⟩

/-- One more connection has its last packet sent again and again; the first of them arms the
    timer. -/
def beginRetransmission (engine : Engine) : Engine × List Log.Event :=
  let count := engine.retransmitting + 1
  if count = 1 then
    ({ engine with
      retransmitting := count
      retransmissionTimer := engine.retransmissionTimer.arm engine.lastNow }, [.timerArmed])
  else
    ({ engine with retransmitting := count }, [])

/-- One connection fewer has its last packet sent again and again; the last of them disarms the
    timer. -/
def endRetransmission (engine : Engine) : Engine × List Log.Event :=
  let count := engine.retransmitting - 1
  if count = 0 then
    ({ engine with
      retransmitting := count
      retransmissionTimer := engine.retransmissionTimer.disarm }, [.timerDisarmed])
  else
    ({ engine with retransmitting := count }, [])

/-- Do what a connection with this peer at this address asks for. -/
def obey (engine : Engine) (peer : Hit) (address : Address) : Signal → Engine × List Log.Event
  | .transmit datagram =>
    ({ engine with datagrams := engine.datagrams ++ [⟨address, datagram⟩] }, [])
  | .startRetransmission => engine.beginRetransmission
  | .stopRetransmission => engine.endRetransmission
  | .connected => ({ engine with established := engine.established ++ [peer] }, [])

/-- Do everything of a list of things that a connection asks for, in order. -/
def obeyAll (engine : Engine) (peer : Hit) (address : Address) :
    List Signal → Engine × List Log.Event
  | [] => (engine, [])
  | signal :: rest =>
    let (engine, log) := engine.obey peer address signal
    let (engine, more) := engine.obeyAll peer address rest
    (engine, log ++ more)

/-- Do what a connection asks for, and keep it in the table with nothing left to ask. -/
def settle (engine : Engine) (conn : Connection) : Engine × List Log.Event :=
  let (engine, log) := engine.obeyAll conn.peer conn.address conn.outbox
  ({ engine with table := engine.table.put { conn with outbox := [] } }, log)

/-- Do what a connection asks for, and do not keep it. -/
def forget (engine : Engine) (conn : Connection) : Engine × List Log.Event :=
  engine.obeyAll conn.peer conn.address conn.outbox

end Engine

end DietExchange
