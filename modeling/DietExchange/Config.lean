import DietExchange.CipherSuite
import DietExchange.Curve.KeyPair
import DietExchange.Error
import DietExchange.KeySet
import DietExchange.Random.Entropy

namespace DietExchange

/-- The options of an engine. -/
structure Config where
  /-- The complexity of our own puzzles. -/
  puzzleComplexity : UInt8
  /-- The greatest complexity that we solve. -/
  maxPuzzleComplexity : UInt8
  /-- How often the puzzle secret is replaced. -/
  rotationInterval : Nat
  /-- The period of the sweep that sends last packets again. -/
  retransmissionInterval : Nat
  /-- How long a responder answers repeated I2s before it takes the association as established. -/
  r2SentHold : Nat
  keyLengths : KeyLengths
  /-- Whether a packet of an unknown peer may create a connection. -/
  acceptUnsolicited : Bool
  maxConnections : Nat
  /-- How many candidates for a puzzle are tried for a connection at each timeout. -/
  solveBatch : Nat
  /-- The cipher suites that we offer and accept, in order of preference. -/
  cipherSuites : List CipherSuite
  /-- Whether a peer's public key must belong to its HIT. -/
  verifyHostIdentity : Bool
  /-- The seed of the random stream, for reproducible runs. -/
  rngSeed : Option UInt64
  /-- The key agreements at hand, in order of preference. -/
  agreements : List KeyAgreement

namespace Config

/-- The standard options. -/
def standard : Config where
  puzzleComplexity := 8
  maxPuzzleComplexity := 24
  rotationInterval := 120000
  retransmissionInterval := 5000
  r2SentHold := 10000
  keyLengths := KeyLengths.standard
  acceptUnsolicited := true
  maxConnections := 1024
  solveBatch := 4096
  cipherSuites := [.aes128Cbc]
  verifyHostIdentity := true
  rngSeed := none
  agreements := KeyAgreement.standard

/-- The lengths that an AES key can have. -/
def IsKeyLength (length : Nat) : Prop := length = 16 ∨ length = 24 ∨ length = 32

instance (length : Nat) : Decidable (IsKeyLength length) :=
  inferInstanceAs (Decidable (_ ∨ _ ∨ _))

/-- The limits that the options have to keep. -/
structure IsAccepted (config : Config) : Prop where
  maximum : config.maxPuzzleComplexity ≤ maxComplexity
  complexity : config.puzzleComplexity ≤ config.maxPuzzleComplexity
  encryption : IsKeyLength config.keyLengths.encryption
  integrity : IsKeyLength config.keyLengths.integrity
  batch : 0 < config.solveBatch

/-- Refuse options out of their limits; the first that is out of them is named. -/
def checkOptions (config : Config) : Except Error Unit :=
  if maxComplexity < config.maxPuzzleComplexity then
    .error (.config (.limitAboveMaximum config.maxPuzzleComplexity))
  else if config.maxPuzzleComplexity < config.puzzleComplexity then
    .error (.config (.complexityAboveLimit config.puzzleComplexity config.maxPuzzleComplexity))
  else if ¬ IsKeyLength config.keyLengths.encryption then
    .error (.config (.keyLength .encryption config.keyLengths.encryption))
  else if ¬ IsKeyLength config.keyLengths.integrity then
    .error (.config (.keyLength .integrity config.keyLengths.integrity))
  else if config.solveBatch = 0 then
    .error (.config .emptyBatch)
  else
    .ok ()

/-- Refuse a configuration without a key agreement, and then a source of secrets that fails when it
    is asked once. -/
def checkHelpers (config : Config) (source : EntropySource) : Except Error Unit × EntropySource :=
  if config.agreements.isEmpty then
    (.error (.config .noCurves), source)
  else
    match source.draw with
    | (.ok _, source) => (.ok (), source)
    | (.error reason, source) => (.error (.config (.entropyUnavailable reason)), source)

/-- Refuse options out of their limits, and then unusable helpers. -/
def check (config : Config) (source : EntropySource) : Except Error Unit × EntropySource :=
  match config.checkOptions with
  | .ok () => config.checkHelpers source
  | .error error => (.error error, source)

theorem checkOptions_eq_ok_iff {config : Config} :
    config.checkOptions = .ok () ↔ config.IsAccepted := by
  unfold checkOptions
  constructor
  · intro hcheck
    repeat' split at hcheck
    all_goals simp only [reduceCtorEq] at hcheck
    rename_i hmaximum hcomplexity hencryption hintegrity hbatch
    exact {
      maximum := UInt8.not_lt.mp hmaximum
      complexity := UInt8.not_lt.mp hcomplexity
      encryption := Decidable.not_not.mp hencryption
      integrity := Decidable.not_not.mp hintegrity
      batch := Nat.pos_of_ne_zero hbatch }
  · intro haccepted
    rw [if_neg (UInt8.not_lt.mpr haccepted.maximum), if_neg (UInt8.not_lt.mpr haccepted.complexity),
      if_neg (not_not_intro haccepted.encryption), if_neg (not_not_intro haccepted.integrity),
      if_neg (Nat.ne_of_gt haccepted.batch)]

theorem isAccepted_standard : standard.IsAccepted :=
  checkOptions_eq_ok_iff.mp rfl

end Config

end DietExchange
