import DietExchange.Curve.Basic
import DietExchange.Curve.Point

namespace DietExchange

/-- A static key pair. -/
structure KeyPair where
  curve : Curve
  /-- The public key as an uncompressed point. -/
  publicKey : List UInt8
  /-- The secret shared with the owner of a public key, or why there is none. -/
  agree : List UInt8 → Except String (List UInt8)
  /-- What may be shown of the pair. -/
  summary : String

/-- Key agreement on one curve. -/
structure KeyAgreement where
  curve : Curve
  /-- The key pair of a big-endian private scalar, or why there is none. -/
  load : List UInt8 → Except String KeyPair

namespace KeyAgreement

/-- The key pair of the first scalar that is valid: what a random key pair is, for random
    scalars. -/
def generate (agreement : KeyAgreement) (scalars : List (List UInt8)) : Except String KeyPair :=
  match scalars.findSome? fun scalar => (agreement.load scalar).toOption with
  | some pair => .ok pair
  | none => .error "No valid private scalar"

end KeyAgreement

/-- A curve with the names that messages use for it. -/
structure NamedCurve where
  curve : Curve
  arithmetic : Weierstrass
  /-- The name in error texts. -/
  title : String
  /-- The name in summaries. -/
  label : String

namespace NamedCurve

def p256 : NamedCurve := ⟨.nistP256, .p256, "P-256", "P256"⟩

def p384 : NamedCurve := ⟨.nistP384, .p384, "P-384", "P384"⟩

/-- The least number of bytes of a private scalar. -/
def minScalarLength : Nat := 24

/-- The number of a private scalar: not longer than a coordinate, not much shorter, not 0 and below
    the order of the base point. -/
def scalar? (named : NamedCurve) (bytes : List UInt8) : Option Nat :=
  let value := bigEndianValue bytes
  let width := named.curve.fieldLength
  if minScalarLength ≤ bytes.length ∧ bytes.length ≤ width ∧ 0 < value ∧
      value < named.arithmetic.order then
    some value
  else
    none

/-- The first coordinate of the multiple of the peer's point. -/
def sharedSecret (named : NamedCurve) (scalar : Nat) (peer : List UInt8) :
    Except String (List UInt8) :=
  let width := named.curve.fieldLength
  match (named.arithmetic.decodePoint? width peer).bind (named.arithmetic.multiply? scalar) with
  | some point => .ok (bigEndian width point.x)
  | none => .error s!"Invalid {named.title} public key"

/-- The key pair of a scalar and its public point. -/
def keyPair (named : NamedCurve) (scalar : Nat) (point : Weierstrass.Affine) : KeyPair :=
  let publicKey := Weierstrass.encodePoint named.curve.fieldLength point
  { curve := named.curve
    publicKey := publicKey
    agree := named.sharedSecret scalar
    summary := "StaticKeyPair::" ++ named.label ++ " \x7b public_key_len: " ++
      toString publicKey.length ++ ", .. \x7d" }

/-- The key pair of a private scalar. -/
def load (named : NamedCurve) (bytes : List UInt8) : Except String KeyPair :=
  let pair? := do
    let scalar ← named.scalar? bytes
    let point ← named.arithmetic.multiply? scalar named.arithmetic.base
    return named.keyPair scalar point
  match pair? with
  | some pair => .ok pair
  | none => .error s!"Invalid {named.title} private key"

def agreement (named : NamedCurve) : KeyAgreement := ⟨named.curve, named.load⟩

end NamedCurve

namespace KeyAgreement

/-- The key agreements that come with the library, in order of preference. -/
def standard : List KeyAgreement := [NamedCurve.p256.agreement, NamedCurve.p384.agreement]

/-- The first key agreement for a curve. -/
def forCurve? (agreements : List KeyAgreement) (curve : Curve) : Option KeyAgreement :=
  agreements.find? fun agreement => agreement.curve = curve

end KeyAgreement

namespace KeyPair

/-- A key pair that one of the library's key agreements has loaded. -/
def IsStandard (pair : KeyPair) : Prop :=
  ∃ agreement ∈ KeyAgreement.standard, ∃ scalar, agreement.load scalar = .ok pair

end KeyPair

namespace NamedCurve

theorem eq_keyPair_of_load {named : NamedCurve} {bytes : List UInt8} {pair : KeyPair}
    (hload : named.load bytes = .ok pair) : ∃ scalar point, pair = named.keyPair scalar point := by
  unfold load at hload
  simp only at hload
  split at hload
  · rename_i found hfound
    obtain rfl := Except.ok.inj hload
    simp only [Option.bind_eq_bind, Option.bind_eq_some_iff, Option.pure_def,
      Option.some.injEq] at hfound
    obtain ⟨scalar, -, point, -, rfl⟩ := hfound
    exact ⟨scalar, point, rfl⟩
  · simp at hload

end NamedCurve

namespace KeyPair

/-- A standard key pair has an uncompressed public key of its curve's length. -/
theorem IsStandard.length_publicKey {pair : KeyPair} (hstandard : pair.IsStandard) :
    pair.publicKey.length = pair.curve.publicKeyLength ∧ pair.publicKey.head? = some 0x04 := by
  obtain ⟨agreement, hmem, scalar, hload⟩ := hstandard
  simp only [KeyAgreement.standard, List.mem_cons, List.not_mem_nil, or_false] at hmem
  rcases hmem with rfl | rfl
  all_goals
    obtain ⟨scalar, point, rfl⟩ := NamedCurve.eq_keyPair_of_load hload
    exact ⟨Weierstrass.length_encodePoint _ _, rfl⟩

end KeyPair

end DietExchange
