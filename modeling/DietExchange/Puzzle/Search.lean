import DietExchange.Error
import DietExchange.Puzzle.Challenge
import DietExchange.Random.ChaCha

/-!
The initiator's side of the puzzle: candidates are drawn from the random stream until one solves the
challenge. The search runs in steps of bounded length, so that it never holds up anything else.
-/

namespace DietExchange

/-- A search under way. -/
structure PuzzleSearch where
  challenge : Block
  initiator : Hit
  responder : Hit
  k : UInt8
  /-- How many candidates were tried. -/
  attempts : Nat
  deriving DecidableEq

namespace PuzzleSearch

/-- A search that has tried nothing yet. A complexity that no CMAC can meet is refused. -/
def start (challenge : Block) (initiator responder : Hit) (k : UInt8) : Except Error PuzzleSearch :=
  if maxComplexity < k then .error (.security (.unsolvable k))
  else .ok ⟨challenge, initiator, responder, k, 0⟩

/-- What a step of a search comes to: the answer, if it was found, and the search and the stream
    after the candidates that were tried. -/
structure Outcome where
  answer : Option Block
  search : PuzzleSearch
  rng : RandomStream

/-- Try up to `budget` candidates, with the CMAC keyed by the challenge. -/
def run (key : CmacKey) : (budget : Nat) → PuzzleSearch → RandomStream → Outcome
  | 0, search, rng => ⟨none, search, rng⟩
  | budget + 1, search, rng =>
    let (candidate, rng) := rng.block
    let search := { search with attempts := search.attempts + 1 }
    if hasLeadingZeros search.k.toNat
        (answerMac key search.initiator search.responder candidate).toList then
      ⟨some candidate, search, rng⟩
    else
      run key budget search rng

/-- Try up to `budget` candidates. -/
def step (search : PuzzleSearch) (budget : Nat) (rng : RandomStream) : Outcome :=
  run (CmacKey.ofBlock search.challenge) budget search rng

/-- The first of the `limit` numbers from `candidate` on that solves the challenge as a block, and
    how many were tried, itself included. -/
def count (key : CmacKey) (initiator responder : Hit) (k : UInt8) :
    (limit candidate tried : Nat) → Option (Block × Nat)
  | 0, _, _ => none
  | limit + 1, candidate, tried =>
    let answer := Block.ofNat candidate
    if hasLeadingZeros k.toNat (answerMac key initiator responder answer).toList then
      some (answer, tried + 1)
    else
      count key initiator responder k limit (candidate + 1) (tried + 1)

/-- The first of the numbers from 0 on, at most `limit` of them, that solves the challenge. -/
def firstNumber (challenge : Block) (initiator responder : Hit) (k : UInt8) (limit : Nat) :
    Option (Block × Nat) :=
  count (CmacKey.ofBlock challenge) initiator responder k limit 0 0

end PuzzleSearch

end DietExchange
