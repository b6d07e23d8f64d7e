import DietExchange.Cmac.Tag
import DietExchange.Hit
import DietExchange.Puzzle.Bits

/-!
The client puzzle. The challenge I is a CMAC of both HITs under a secret of the responder, so that
the responder can tell its own challenges without keeping any. An answer J solves it at complexity
k if the CMAC of both HITs and J under I starts with k zero bits.
-/

namespace DietExchange

/-- The challenge for a pair of hosts under a secret. The context is whatever else it should depend
    on. -/
def challengeFor (secret : Block) (initiator responder : Hit) (context : List UInt8) : Block :=
  (CmacKey.ofBlock secret).tag (initiator.toBytes ++ responder.toBytes ++ context)

/-- The value that an answer is judged by, for a CMAC keyed with the challenge. -/
def answerMac (key : CmacKey) (initiator responder : Hit) (answer : Block) : Block :=
  key.tag (initiator.toBytes ++ responder.toBytes ++ answer.toList)

/-- Whether `answer` solves `challenge` at complexity `k`; no secret is needed to tell. -/
def solves (challenge answer : Block) (initiator responder : Hit) (k : UInt8) : Bool :=
  hasLeadingZeros k.toNat (answerMac (CmacKey.ofBlock challenge) initiator responder answer).toList

end DietExchange
