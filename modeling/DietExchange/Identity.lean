import DietExchange.Curve.KeyPair
import DietExchange.Error

namespace DietExchange

/-- The tag of a public key, or the error that it has none. -/
def Hit.ofPublicKey (key : List UInt8) : Except Error Hit :=
  match Hit.ofPublicKey? key with
  | some hit => .ok hit
  | none => .error (.crypto .notUncompressed)

/-- The identity of a host. The tag need not be that of the key: a host may be known by another one
    to peers that do not check. -/
structure HostIdentity where
  hit : Hit
  key : KeyPair

namespace HostIdentity

/-- The identity whose tag is derived from the key. -/
def ofKeyPair (key : KeyPair) : Except Error HostIdentity := do
  let hit ← Hit.ofPublicKey key.publicKey
  return ⟨hit, key⟩

/-- A fresh identity on a curve, from random private scalars of which the first valid one is
    taken. -/
def generate (agreements : List KeyAgreement) (curve : Curve) (scalars : List (List UInt8)) :
    Except Error HostIdentity :=
  match KeyAgreement.forCurve? agreements curve with
  | none => .error (.unknownCurve curve.code)
  | some agreement =>
    match agreement.generate scalars with
    | .ok key => ofKeyPair key
    | .error reason => .error (.crypto (.stated reason))

def curve (identity : HostIdentity) : Curve := identity.key.curve

def publicKey (identity : HostIdentity) : List UInt8 := identity.key.publicKey

/-- The secret shared with the owner of a public key; the key agreement says why there is none. -/
def sharedSecret (identity : HostIdentity) (peer : List UInt8) : Except Error (List UInt8) :=
  match identity.key.agree peer with
  | .ok secret => .ok secret
  | .error reason => .error (.crypto (.stated reason))

/-- What may be shown of an identity: the tag and the curve. -/
def summary (identity : HostIdentity) : String :=
  "HostIdentity \x7b hit: " ++ identity.hit.summary ++ ", curve: " ++ identity.curve.name ++ " \x7d"

end HostIdentity

end DietExchange
