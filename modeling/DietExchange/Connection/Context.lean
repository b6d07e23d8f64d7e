import DietExchange.Config
import DietExchange.Connection.Basic
import DietExchange.Identity
import DietExchange.Packet.Mac
import DietExchange.Puzzle.Issuer

namespace DietExchange

/-- The entry of a HIT suite list for this protocol. -/
def hitSuiteDex : UInt8 := 0x50

/-- What a connection borrows from its engine while it handles something. -/
structure Context where
  config : Config
  identity : HostIdentity
  issuer : PuzzleIssuer
  now : Nat

namespace Context

/-- The group of our host identity. -/
def group (ctx : Context) : DhGroup := ctx.identity.curve.dhGroup

/-- The groups that we offer: that of our identity alone. -/
def groups (ctx : Context) : Parameter := .dhGroupList (DhGroupList.single ctx.group)

def hostId (ctx : Context) : Parameter :=
  .hostId (HostId.ofKey ctx.identity.curve ctx.identity.publicKey)

/-- The place for a tag. -/
def emptyTag : Parameter := .hipMac3 (List.replicate blockLength 0)

def i1 (ctx : Context) (conn : Connection) : Packet :=
  .ofParameters .i1 conn.host conn.peer [ctx.groups]

def r1 (ctx : Context) (conn : Connection) (challenge : Block) (cookie : UInt16) : Packet :=
  .ofParameters .r1 conn.host conn.peer [
    .r1Counter (UInt64.ofNat ctx.issuer.generation),
    .puzzle ⟨ctx.issuer.complexity, defaultLifetime, cookie, challenge⟩,
    ctx.hostId,
    .hitSuiteList [hitSuiteDex],
    ctx.groups]

/-- The I2 that answers a puzzle, with its tag still to be computed. -/
def i2 (ctx : Context) (conn : Connection) (puzzle : Puzzle) (answer : Block) : Packet :=
  .ofParameters .i2 conn.host conn.peer [
    .solution ⟨puzzle.k, puzzle.cookie, puzzle.challenge, answer⟩,
    .hipCipher (CipherOffer.ofList ctx.config.cipherSuites),
    .encryptedKey [],
    ctx.hostId,
    emptyTag]

/-- The R2 of a handshake, with its tag still to be computed. -/
def r2 (ctx : Context) (conn : Connection) : Packet :=
  .ofParameters .r2 conn.host conn.peer [.encryptedKey [], ctx.groups, emptyTag]

/-- Refuse a peer whose groups are told and do not include ours. -/
def checkOffer (ctx : Context) (list : Option DhGroupList) : Except Error Unit :=
  match list with
  | some list => if list.contains ctx.group then .ok () else .error .dhGroupMismatch
  | none => .ok ()

/-- Refuse a peer whose groups are not told or do not include ours. -/
def checkGroups (ctx : Context) (list : Option DhGroupList) : Except Error Unit :=
  match list with
  | some list => if list.contains ctx.group then .ok () else .error .dhGroupMismatch
  | none => .error .dhGroupMismatch

/-- Refuse a host identity on another curve, and one that does not belong to the peer's tag if we
    care for that. -/
def checkHostId (ctx : Context) (peer : Hit) (id : HostId) : Except Error Unit :=
  if id.curve ≠ ctx.identity.curve then
    .error .dhGroupMismatch
  else if ctx.config.verifyHostIdentity then do
    let hit ← Hit.ofPublicKey id.publicKey
    if hit = peer then
      return ()
    else
      throw (.security (.hostIdMismatch peer))
  else
    .ok ()

/-- The session keys with the owner of a public key. -/
def sessionKeys (ctx : Context) (publicKey : List UInt8) (initiator responder : Hit)
    (challenge : Block) (isInitiator : Bool) : Except Error KeySet := do
  let secret ← ctx.identity.sharedSecret publicKey
  KeyDerivation.derive secret initiator responder challenge isInitiator ctx.config.keyLengths

/-- The keys and the cipher suite that an I2 of this peer leads to. The puzzle is checked first,
    since that is cheap, and the tag after the key agreement that it needs. -/
def validateI2 (ctx : Context) (host peer : Hit) (packet : Packet) :
    Except Error (KeySet × CipherSuite) := do
  packet.checkMandatory
  let solution ← packet.require .solution packet.solution?
  if !ctx.issuer.verify solution.challenge solution.answer peer host ctx.issuer.complexity [] then
    throw .badSolution
  let id ← packet.require .hostId packet.hostId?
  ctx.checkHostId peer id
  let keys ← ctx.sessionKeys id.publicKey peer host solution.challenge false
  packet.verifyMac keys.initiator.integrity
  let offer ← packet.require .hipCipher packet.hipCipher?
  match offer.select? ctx.config.cipherSuites with
  | some suite => return (keys, suite)
  | none => throw (.security .noCommonCipher)

/-- The puzzle that an R1 of this peer asks us to solve, and the keys that it leads to. -/
def validateR1 (ctx : Context) (host peer : Hit) (packet : Packet) :
    Except Error (Puzzle × KeySet) := do
  packet.checkMandatory
  ctx.checkGroups packet.dhGroupList?
  let id ← packet.require .hostId packet.hostId?
  ctx.checkHostId peer id
  let puzzle ← packet.require .puzzle packet.puzzle?
  if ctx.config.maxPuzzleComplexity < puzzle.k then
    throw (.security (.complexityAbove puzzle.k ctx.config.maxPuzzleComplexity))
  let keys ← ctx.sessionKeys id.publicKey host peer puzzle.challenge true
  return (puzzle, keys)

/-- Refuse an R2 that does not prove that the peer has our keys. -/
def validateR2 (ctx : Context) (keys : Option KeySet) (packet : Packet) : Except Error Unit := do
  packet.checkMandatory
  ctx.checkGroups packet.dhGroupList?
  match keys with
  | some keys => packet.verifyMac keys.responder.integrity
  | none => throw (.security .keysMissing)

end Context

end DietExchange
