import DietExchange.Bytes

namespace DietExchange

/-- Size of a block in bytes. -/
def blockLength : Nat := 16

/-- Sixteen bytes. -/
abbrev Block := Vector UInt8 16

namespace Block

def zero : Block := Vector.replicate 16 0

/-- The block with exactly these bytes; nothing else than 16 bytes will do. -/
def ofList? (bytes : List UInt8) : Option Block :=
  if h : bytes.toArray.size = 16 then some ⟨bytes.toArray, h⟩ else none

/-- The first 16 bytes, with zeros for those that are missing. -/
def ofPadded (bytes : List UInt8) : Block :=
  ⟨((bytes.take 16).rightpad 16 0).toArray, by
    have hlength := List.length_take_le 16 bytes
    simp only [List.rightpad, List.size_toArray, List.length_append, List.length_replicate]
    omega⟩

/-- The block whose big-endian value is `value` modulo 2 ^ 128. -/
def ofNat (value : Nat) : Block := ofPadded (bigEndian 16 value)

/-- The bytes as a big-endian number. -/
def toNat (block : Block) : Nat := bigEndianValue block.toList

def xor (a b : Block) : Block := a.zipWith (· ^^^ ·) b

/-- The block with bit `index` flipped, counted from the most significant bit of the first byte. -/
def flipBit (block : Block) (index : Nat) : Block :=
  block.mapIdx fun i byte =>
    if i = index / 8 then byte ^^^ (0x80 >>> UInt8.ofNat (index % 8)) else byte

instance : Inhabited Block := ⟨zero⟩

@[simp]
theorem length_toList (block : Block) : block.toList.length = 16 := by simp

theorem ofList?_toList (block : Block) : ofList? block.toList = some block := by
  have hsize : block.toList.toArray.size = 16 := by simp
  rw [ofList?, dif_pos hsize]
  exact congrArg some (Vector.toArray_inj.mp (by simp [Vector.toList]))

theorem toList_ofPadded {bytes : List UInt8} (hlength : bytes.length = 16) :
    (ofPadded bytes).toList = bytes := by
  simp [ofPadded, Vector.toList, List.rightpad,
    List.take_of_length_le (Nat.le_of_eq hlength), hlength]

theorem ofPadded_toList (block : Block) : ofPadded block.toList = block :=
  Vector.toList_inj.mp (toList_ofPadded (length_toList block))

end Block

end DietExchange
