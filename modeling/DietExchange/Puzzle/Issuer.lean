import DietExchange.Error
import DietExchange.Puzzle.Challenge
import DietExchange.Random.Entropy

/-!
The responder's side of the puzzle: challenges are issued under the newest of the last three
secrets and accepted under any of them, so that an answer to a challenge issued before a rotation
still counts.
-/

namespace DietExchange

/-- How many secrets are kept. -/
def secretWindowSize : Nat := 3

/-- The secrets that are kept, newest first. -/
structure SecretWindow where
  secrets : List Block
  length_le : secrets.length ≤ secretWindowSize
  deriving DecidableEq

namespace SecretWindow

def empty : SecretWindow := ⟨[], by decide⟩

/-- The window with a fresh secret in front; the oldest goes if there is no room for it. -/
def push (window : SecretWindow) (secret : Block) : SecretWindow :=
  ⟨(secret :: window.secrets).take secretWindowSize, List.length_take_le _ _⟩

def newest? (window : SecretWindow) : Option Block := window.secrets.head?

/-- What may be shown of a window: how many secrets it keeps. -/
def summary (window : SecretWindow) : String :=
  "SecretWindow \x7b retained: " ++ toString window.secrets.length ++ " \x7d"

end SecretWindow

/-- What a responder needs for its puzzles: their complexity, the secrets, and how often the newest
    was replaced. -/
structure PuzzleIssuer where
  complexity : UInt8
  generation : Nat
  window : SecretWindow
  deriving DecidableEq

namespace PuzzleIssuer

/-- A secret from the source, or the failure of the source as an error. -/
def freshSecret (source : EntropySource) : Except Error Block × EntropySource :=
  match source.draw with
  | (.ok secret, source) => (.ok secret, source)
  | (.error reason, source) => (.error (.crypto (.entropyFailed reason)), source)

/-- An issuer with one fresh secret. A complexity that no CMAC can meet is refused before the source
    is asked. -/
def create (k : UInt8) (source : EntropySource) : Except Error PuzzleIssuer × EntropySource :=
  if maxComplexity < k then
    (.error (.config (.complexityAboveMaximum k)), source)
  else
    match freshSecret source with
    | (.ok secret, source) => (.ok ⟨k, 0, SecretWindow.empty.push secret⟩, source)
    | (.error error, source) => (.error error, source)

/-- Put a fresh secret in front. If the source fails, the issuer stays as it is. -/
def rotate (issuer : PuzzleIssuer) (source : EntropySource) :
    Except Error PuzzleIssuer × EntropySource :=
  match freshSecret source with
  | (.ok secret, source) =>
    (.ok { issuer with
      window := issuer.window.push secret
      generation := issuer.generation + 1 }, source)
  | (.error error, source) => (.error error, source)

/-- The challenge for a pair of hosts under the newest secret. -/
def issue (issuer : PuzzleIssuer) (initiator responder : Hit) (context : List UInt8) :
    Except Error Block :=
  match issuer.window.newest? with
  | some secret => .ok (challengeFor secret initiator responder context)
  | none => .error (.usage .noSecret)

/-- Whether `challenge` is one of ours for this pair of hosts, under any secret kept, and `answer`
    solves it at complexity `k`. -/
def verify (issuer : PuzzleIssuer) (challenge answer : Block) (initiator responder : Hit)
    (k : UInt8) (context : List UInt8) : Bool :=
  if maxComplexity < k then false
  else
    issuer.window.secrets.any (fun secret => challengeFor secret initiator responder context ==
      challenge) && solves challenge answer initiator responder k

/-- What may be shown of an issuer: no secret. -/
def summary (issuer : PuzzleIssuer) : String :=
  "PuzzleEngine \x7b complexity: " ++ toString issuer.complexity ++ ", generation: " ++
    toString issuer.generation ++ ", secrets: " ++ issuer.window.summary ++ " \x7d"

end PuzzleIssuer

end DietExchange
