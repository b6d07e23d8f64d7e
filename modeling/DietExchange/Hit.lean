import DietExchange.Block

namespace DietExchange

/-- A Host Identity Tag. -/
structure Hit where
  bytes : Block
  deriving DecidableEq, Inhabited

namespace Hit

/-- The tag with exactly these bytes, of which there must be 16. -/
def ofBytes? (bytes : List UInt8) : Option Hit :=
  (Block.ofList? bytes).map Hit.mk

/-- The tag whose bytes are all zero. -/
def zero : Hit := ⟨Block.zero⟩

def toBytes (hit : Hit) : List UInt8 := hit.bytes.toList

def toNat (hit : Hit) : Nat := hit.bytes.toNat

/-- Tags compare as unsigned big-endian numbers. -/
instance : LT Hit := ⟨fun a b => a.toNat < b.toNat⟩

instance (a b : Hit) : Decidable (a < b) := inferInstanceAs (Decidable (a.toNat < b.toNat))

/-- The first four bytes of every derived tag: the ORCHID prefix 2001:10::/28 with the suite that
    truncates the key from the left. -/
def orchidStart : List UInt8 := [0x20, 0x01, 0x00, 0x15]

/-- The tag of an uncompressed public key: the fixed prefix and the twelve bytes that follow the
    key's leading 4. A shorter key, or one that starts otherwise, has no tag. -/
def ofPublicKey? (key : List UInt8) : Option Hit :=
  match key with
  | 0x04 :: coordinates =>
    if 12 ≤ coordinates.length then ofBytes? (orchidStart ++ coordinates.take 12) else none
  | _ => none

/-- The eight groups of four digits of an IPv6 address, none left out. -/
def groups : List UInt8 → List String
  | high :: low :: rest => (hexByte high ++ hexByte low) :: groups rest
  | _ => []

/-- IPv6 notation without zero compression. -/
def text (hit : Hit) : String := ":".intercalate (groups hit.toBytes)

/-- The tag as it stands inside a summary of a larger value. -/
def summary (hit : Hit) : String := s!"Hit({hit.text})"

instance : ToString Hit := ⟨text⟩

/-- The lesser and the greater of two tags, in this order; equal tags keep the second place
    first. -/
def sortPair (a b : Hit) : Hit × Hit := if a < b then (a, b) else (b, a)

/-- Tags in ascending order, each as often as it is there. -/
def sort (hits : List Hit) : List Hit := hits.mergeSort fun a b => !decide (b < a)

/-- Tags in ascending order, each once. -/
def sortUnique (hits : List Hit) : List Hit := (sort hits).eraseReps

theorem lt_def {a b : Hit} : a < b ↔ a.toNat < b.toNat := Iff.rfl

theorem eq_of_toBytes_eq {a b : Hit} (hbytes : a.toBytes = b.toBytes) : a = b := by
  cases a
  cases b
  exact congrArg Hit.mk (Vector.toList_inj.mp hbytes)

theorem eq_of_toNat_eq {a b : Hit} (hvalue : a.toNat = b.toNat) : a = b := by
  apply eq_of_toBytes_eq
  unfold toBytes
  rw [← bigEndian_bigEndianValue a.bytes.toList, ← bigEndian_bigEndianValue b.bytes.toList]
  simp only [Block.length_toList]
  exact congrArg (bigEndian 16) hvalue

theorem lt_trichotomy (a b : Hit) : a < b ∨ a = b ∨ b < a := by
  rcases Nat.lt_trichotomy a.toNat b.toNat with h | h | h
  · exact Or.inl h
  · exact Or.inr (Or.inl (eq_of_toNat_eq h))
  · exact Or.inr (Or.inr h)

end Hit

end DietExchange
