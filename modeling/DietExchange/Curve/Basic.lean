import DietExchange.DhGroup

namespace DietExchange

/-- A curve of a host identity. -/
inductive Curve where
  | nistP256
  | nistP384
  | nistP521
  | secp160r1
  deriving DecidableEq, Repr, Inhabited

namespace Curve

def ofCode? (code : UInt16) : Option Curve :=
  if code = 1 then some nistP256
  else if code = 2 then some nistP384
  else if code = 3 then some nistP521
  else if code = 4 then some secp160r1
  else none

def code : Curve → UInt16
  | nistP256 => 1
  | nistP384 => 2
  | nistP521 => 3
  | secp160r1 => 4

/-- Size of a coordinate in bytes. -/
def fieldLength : Curve → Nat
  | nistP256 => 32
  | nistP384 => 48
  | nistP521 => 66
  | secp160r1 => 20

/-- Size of an uncompressed point: a leading 4 and both coordinates. -/
def publicKeyLength (curve : Curve) : Nat := 1 + 2 * curve.fieldLength

/-- The group under which the curve is offered. -/
def dhGroup : Curve → DhGroup
  | nistP256 => .nistP256
  | nistP384 => .nistP384
  | nistP521 => .nistP521
  | secp160r1 => .secp160r1

/-- The name of the curve in log lines and summaries. -/
def name : Curve → String
  | nistP256 => "NistP256"
  | nistP384 => "NistP384"
  | nistP521 => "NistP521"
  | secp160r1 => "Secp160r1"

@[simp]
theorem ofCode?_code (curve : Curve) : ofCode? curve.code = some curve := by
  cases curve <;> rfl

theorem code_of_ofCode? {value : UInt16} {curve : Curve} (hcurve : ofCode? value = some curve) :
    curve.code = value := by
  unfold ofCode? at hcurve
  repeat' split at hcurve
  all_goals simp_all [code]
  all_goals subst hcurve; rfl

end Curve

end DietExchange
