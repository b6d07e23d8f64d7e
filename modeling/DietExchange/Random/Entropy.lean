import DietExchange.Block

/-!
The source of secrets. Every call asks for one block; a call may fail, with the source's own words
for the reason, and counts all the same.
-/

namespace DietExchange

/-- A source of secret blocks, and how often it was called. -/
structure EntropySource where
  /-- The answer to each call, counted from 0. -/
  answer : Nat → Except String Block
  calls : Nat

namespace EntropySource

/-- Ask for one block. -/
def draw (source : EntropySource) : Except String Block × EntropySource :=
  (source.answer source.calls, { source with calls := source.calls + 1 })

/-- A block filled with a pattern, repeated as often as it takes. -/
def fill (pattern : List UInt8) : Block :=
  let bytes := pattern.toArray
  Vector.ofFn fun index => bytes.getD (index.val % bytes.size) 0

/-- A source for reproducible runs: it plays back a script of patterns and failures, and past its
    end fills each block with one byte, that of the call's number counted from `base`. -/
def scripted (script : List (Except String (List UInt8))) (base : Nat) : EntropySource where
  calls := 0
  answer call :=
    match script[call]? with
    | some (.ok pattern) => .ok (fill pattern)
    | some (.error reason) => .error reason
    | none => .ok (Vector.replicate 16 (UInt8.ofNat (base + call)))

@[simp]
theorem calls_draw (source : EntropySource) : source.draw.2.calls = source.calls + 1 := rfl

@[simp]
theorem answer_draw (source : EntropySource) : source.draw.2.answer = source.answer := rfl

end EntropySource

end DietExchange
