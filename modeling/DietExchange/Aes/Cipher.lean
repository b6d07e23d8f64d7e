import DietExchange.Aes.Field
import DietExchange.Block

namespace DietExchange.Aes

/-- A state or a round key: four columns. -/
structure Columns where
  c0 : UInt32
  c1 : UInt32
  c2 : UInt32
  c3 : UInt32
  deriving DecidableEq, Inhabited

/-- The byte of a word in this row. -/
@[inline]
def row0 (word : UInt32) : UInt8 := (word >>> 24).toUInt8

@[inline]
def row1 (word : UInt32) : UInt8 := (word >>> 16).toUInt8

@[inline]
def row2 (word : UInt32) : UInt8 := (word >>> 8).toUInt8

@[inline]
def row3 (word : UInt32) : UInt8 := word.toUInt8

/-- The word of four bytes, from the first row down. -/
@[inline]
def column (b0 b1 b2 b3 : UInt8) : UInt32 :=
  (b0.toUInt32 <<< 24) ||| (b1.toUInt32 <<< 16) ||| (b2.toUInt32 <<< 8) ||| b3.toUInt32

/-- The substitution box on every byte of a word. -/
def substituteWord (word : UInt32) : UInt32 :=
  column (substitute (row0 word)) (substitute (row1 word)) (substitute (row2 word))
    (substitute (row3 word))

/-- A word turned up by one row. -/
@[inline]
def turn (word : UInt32) : UInt32 := (word <<< 8) ||| (word >>> 24)

/-- Multiplication by x of each of the four bytes of a word. -/
@[inline]
def timesXWord (word : UInt32) : UInt32 :=
  ((word &&& 0x7f7f7f7f) <<< 1) ^^^ (((word >>> 7) &&& 0x01010101) * 0x1b)

/-- A column multiplied by the circulant matrix of 2, 3, 1, 1. -/
@[inline]
def mixColumn (word : UInt32) : UInt32 :=
  let turned := turn word
  timesXWord (word ^^^ turned) ^^^ turned ^^^ turn turned ^^^ turn (turn turned)

namespace Columns

def ofBlock (block : Block) : Columns where
  c0 := column block[0] block[1] block[2] block[3]
  c1 := column block[4] block[5] block[6] block[7]
  c2 := column block[8] block[9] block[10] block[11]
  c3 := column block[12] block[13] block[14] block[15]

def toBlock (s : Columns) : Block :=
  #v[row0 s.c0, row1 s.c0, row2 s.c0, row3 s.c0, row0 s.c1, row1 s.c1, row2 s.c1, row3 s.c1,
    row0 s.c2, row1 s.c2, row2 s.c2, row3 s.c2, row0 s.c3, row1 s.c3, row2 s.c3, row3 s.c3]

@[inline]
def addKey (s key : Columns) : Columns :=
  ⟨s.c0 ^^^ key.c0, s.c1 ^^^ key.c1, s.c2 ^^^ key.c2, s.c3 ^^^ key.c3⟩

/-- The substitution box on every byte, and row `i` shifted left by `i` columns. -/
def substituteShift (s : Columns) : Columns where
  c0 := column (substitute (row0 s.c0)) (substitute (row1 s.c1)) (substitute (row2 s.c2))
    (substitute (row3 s.c3))
  c1 := column (substitute (row0 s.c1)) (substitute (row1 s.c2)) (substitute (row2 s.c3))
    (substitute (row3 s.c0))
  c2 := column (substitute (row0 s.c2)) (substitute (row1 s.c3)) (substitute (row2 s.c0))
    (substitute (row3 s.c1))
  c3 := column (substitute (row0 s.c3)) (substitute (row1 s.c0)) (substitute (row2 s.c1))
    (substitute (row3 s.c2))

@[inline]
def mix (s : Columns) : Columns := ⟨mixColumn s.c0, mixColumn s.c1, mixColumn s.c2, mixColumn s.c3⟩

end Columns

/-- The round keys of a key: one before the first round, one for each inner round, and one for the
    last round, which does not mix columns. -/
structure Schedule where
  whitening : Columns
  inner : List Columns
  last : Columns
  deriving Inhabited

/-- The next word of the key expansion from the words so far: every `size` words the word before is
    turned, substituted and given a round constant, and for long keys it is substituted half-way. -/
def expandWord (size : Nat) (words : Array UInt32) (constant : UInt8) (index : Nat) : UInt32 :=
  let previous := words.getD (index - 1) 0
  let mask :=
    if index % size = 0 then substituteWord (turn previous) ^^^ (constant.toUInt32 <<< 24)
    else if 6 < size ∧ index % size = 4 then substituteWord previous
    else previous
  words.getD (index - size) 0 ^^^ mask

/-- `count` more words of the key expansion, behind the words so far. -/
def expandWords (size : Nat) : (count : Nat) → Array UInt32 → UInt8 → Array UInt32
  | 0, words, _ => words
  | count + 1, words, constant =>
    let index := words.size
    let next := if index % size = 0 then timesX constant else constant
    expandWords size count (words.push (expandWord size words constant index)) next

/-- The words of a byte string whose length is a multiple of four. -/
def keyWords : List UInt8 → List UInt32
  | b0 :: b1 :: b2 :: b3 :: rest => column b0 b1 b2 b3 :: keyWords rest
  | _ => []

/-- The schedule of a key of four times `size` bytes, which has `size + 6` rounds. -/
def Schedule.ofKey (size : Nat) (key : List UInt8) : Schedule :=
  let words := expandWords size (4 * (size + 7) - size) (keyWords key).toArray 1
  let roundKey (round : Nat) : Columns :=
    ⟨words.getD (4 * round) 0, words.getD (4 * round + 1) 0, words.getD (4 * round + 2) 0,
      words.getD (4 * round + 3) 0⟩
  { whitening := roundKey 0
    inner := (List.range (size + 5)).map fun index => roundKey (index + 1)
    last := roundKey (size + 6) }

/-- The encryption of a block under a schedule. -/
def encrypt (schedule : Schedule) (block : Block) : Block :=
  let start := (Columns.ofBlock block).addKey schedule.whitening
  let mixed := schedule.inner.foldl (fun s key => s.substituteShift.mix.addKey key) start
  (mixed.substituteShift.addKey schedule.last).toBlock

/-- The schedule of a key of 16, 24 or 32 bytes; no other length is one of AES. -/
def schedule? (key : List UInt8) : Option Schedule :=
  if key.length = 16 ∨ key.length = 24 ∨ key.length = 32 then
    some (Schedule.ofKey (key.length / 4) key)
  else
    none

/-- The schedule of a key of exactly one block. -/
def scheduleOfBlock (key : Block) : Schedule := Schedule.ofKey 4 key.toList

theorem schedule?_isSome_iff {key : List UInt8} :
    (schedule? key).isSome ↔ key.length = 16 ∨ key.length = 24 ∨ key.length = 32 := by
  unfold schedule?
  split <;> simp_all

theorem schedule?_toList (key : Block) : schedule? key.toList = some (scheduleOfBlock key) := by
  simp [schedule?, scheduleOfBlock]

end DietExchange.Aes
