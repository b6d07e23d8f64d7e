import DietExchange.Block
import DietExchange.Error
import DietExchange.Outcome

namespace DietExchange

/-- A reader of a value off the front of a byte string. -/
abbrev Reader (α : Type) := StateT (List UInt8) (Except LayoutFault) α

namespace Reader

/-- Refuse, whatever the rest of the bytes. -/
def fail {α : Type} (fault : LayoutFault) : Reader α := fun _ => .error fault

/-- Exactly `count` bytes. -/
def take (count : Nat) : Reader (List UInt8) := fun bytes =>
  if count ≤ bytes.length then .ok (bytes.take count, bytes.drop count) else .error .endOfInput

/-- Everything that is left. -/
def rest : Reader (List UInt8) := fun bytes => .ok (bytes, [])

/-- A big-endian number of `width` bytes. -/
def number (width : Nat) : Reader Nat := do return bigEndianValue (← take width)

def byte : Reader UInt8 := do return UInt8.ofNat (← number 1)

def word : Reader UInt16 := do return UInt16.ofNat (← number 2)

def block : Reader Block := do return Block.ofPadded (← take 16)

theorem bind_eq_ok_iff {α β : Type} {first : Reader α} {next : α → Reader β}
    {bytes rest : List UInt8} {value : β} : (first >>= next) bytes = .ok (value, rest) ↔
      ∃ middle left, first bytes = .ok (middle, left) ∧ next middle left = .ok (value, rest) := by
  change (first bytes >>= fun pair => next pair.1 pair.2) = _ ↔ _
  rw [DietExchange.bind_eq_ok_iff]
  exact Prod.exists

theorem pure_eq_ok_iff {α : Type} {given value : α} {bytes rest : List UInt8} :
    (pure given : Reader α) bytes = .ok (value, rest) ↔ given = value ∧ bytes = rest := by
  change Except.ok (given, bytes) = _ ↔ _
  rw [Except.ok.injEq, Prod.mk.injEq]

theorem map_eq_ok_iff {α β : Type} {change : α → β} {reader : Reader α} {bytes rest : List UInt8}
    {value : β} :
    (change <$> reader) bytes = .ok (value, rest) ↔
      ∃ middle, reader bytes = .ok (middle, rest) ∧ change middle = value := by
  rw [map_eq_pure_bind, bind_eq_ok_iff]
  constructor
  · rintro ⟨middle, left, hread, hpure⟩
    obtain ⟨hvalue, rfl⟩ := pure_eq_ok_iff.mp hpure
    exact ⟨middle, hread, hvalue⟩
  · rintro ⟨middle, hread, hvalue⟩
    exact ⟨middle, rest, hread, pure_eq_ok_iff.mpr ⟨hvalue, rfl⟩⟩

theorem lift_eq_ok_iff {α : Type} {result : Except LayoutFault α} {bytes rest : List UInt8}
    {value : α} :
    (StateT.lift result : Reader α) bytes = .ok (value, rest) ↔ result = .ok value ∧
    bytes = rest := by
  change (result >>= fun found => pure (found, bytes)) = _ ↔ _
  rw [DietExchange.bind_eq_ok_iff]
  constructor
  · rintro ⟨found, hresult, hpure⟩
    obtain ⟨rfl, rfl⟩ := Prod.mk.inj (DietExchange.pure_eq_ok_iff.mp hpure)
    exact ⟨hresult, rfl⟩
  · rintro ⟨hresult, rfl⟩
    exact ⟨value, hresult, rfl⟩

/-- Bytes are taken off the front exactly when there are so many. -/
theorem take_eq_ok_iff {count : Nat} {bytes front rest : List UInt8} :
    take count bytes = .ok (front, rest) ↔ front.length = count ∧ bytes = front ++ rest := by
  unfold take
  constructor
  · intro htake
    split at htake
    · rename_i hcount
      obtain ⟨rfl, rfl⟩ := Prod.mk.inj (Except.ok.inj htake)
      exact ⟨List.length_take_of_le hcount, (List.take_append_drop count bytes).symm⟩
    · simp at htake
  · rintro ⟨rfl, rfl⟩
    simp

theorem rest_eq_ok_iff {bytes value left : List UInt8} :
    Reader.rest bytes = .ok (value, left) ↔ bytes = value ∧ left = [] := by
  simp [Reader.rest, eq_comm]

/-- A number is read exactly when it stands in front, written with as many bytes. -/
theorem number_eq_ok_iff {width value : Nat} {bytes rest : List UInt8} :
    number width bytes = .ok (value, rest) ↔
      value < Nat.pow 256 width ∧ bytes = bigEndian width value ++ rest := by
  unfold number
  rw [bind_eq_ok_iff]
  constructor
  · rintro ⟨front, left, htake, hpure⟩
    obtain ⟨rfl, rfl⟩ := pure_eq_ok_iff.mp hpure
    obtain ⟨rfl, rfl⟩ := take_eq_ok_iff.mp htake
    exact ⟨bigEndianValue_lt front, by rw [bigEndian_bigEndianValue]⟩
  · rintro ⟨hvalue, rfl⟩
    refine ⟨bigEndian width value, rest, take_eq_ok_iff.mpr ⟨length_bigEndian _ _, rfl⟩, ?_⟩
    refine pure_eq_ok_iff.mpr ⟨?_, rfl⟩
    rw [bigEndianValue_bigEndian, Nat.mod_eq_of_lt hvalue]

theorem byte_eq_ok_iff {value : UInt8} {bytes rest : List UInt8} :
    byte bytes = .ok (value, rest) ↔ bytes = value :: rest := by
  unfold byte
  rw [bind_eq_ok_iff]
  constructor
  · rintro ⟨number, left, hnumber, hpure⟩
    obtain ⟨rfl, rfl⟩ := pure_eq_ok_iff.mp hpure
    obtain ⟨-, rfl⟩ := number_eq_ok_iff.mp hnumber
    simp [bigEndian]
  · rintro rfl
    refine ⟨value.toNat, rest, number_eq_ok_iff.mpr ⟨value.toNat_lt, ?_⟩, ?_⟩
    · simp [bigEndian]
    · exact pure_eq_ok_iff.mpr ⟨UInt8.ofNat_toNat, rfl⟩

theorem word_eq_ok_iff {value : UInt16} {bytes rest : List UInt8} :
    word bytes = .ok (value, rest) ↔ bytes = wordBytes value ++ rest := by
  unfold word
  rw [bind_eq_ok_iff]
  constructor
  · rintro ⟨number, left, hnumber, hpure⟩
    obtain ⟨rfl, rfl⟩ := pure_eq_ok_iff.mp hpure
    obtain ⟨hvalue, rfl⟩ := number_eq_ok_iff.mp hnumber
    rw [wordBytes, UInt16.toNat_ofNat_of_lt' hvalue]
  · rintro rfl
    exact ⟨value.toNat, rest, number_eq_ok_iff.mpr ⟨value.toNat_lt, rfl⟩,
      pure_eq_ok_iff.mpr ⟨UInt16.ofNat_toNat, rfl⟩⟩

theorem block_eq_ok_iff {value : Block} {bytes rest : List UInt8} :
    block bytes = .ok (value, rest) ↔ bytes = value.toList ++ rest := by
  unfold block
  rw [bind_eq_ok_iff]
  constructor
  · rintro ⟨front, left, htake, hpure⟩
    obtain ⟨rfl, rfl⟩ := pure_eq_ok_iff.mp hpure
    obtain ⟨hlength, rfl⟩ := take_eq_ok_iff.mp htake
    rw [Block.toList_ofPadded hlength]
  · rintro rfl
    exact ⟨value.toList, rest, take_eq_ok_iff.mpr ⟨Block.length_toList value, rfl⟩,
      pure_eq_ok_iff.mpr ⟨Block.ofPadded_toList value, rfl⟩⟩

end Reader

end DietExchange
