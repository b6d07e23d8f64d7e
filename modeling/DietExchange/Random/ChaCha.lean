import DietExchange.Block

/-!
The stream of random words that a 64-bit seed determines. It is the output of the ChaCha stream
cipher with twelve rounds under a key that a permuted congruential generator spreads out of the
seed; nothing secret is drawn from it.
-/

namespace DietExchange.ChaCha

/-- Sixteen words: the state of the cipher, and a block of its output. -/
abbrev Words := Vector UInt32 16

@[inline]
def rotateLeft (word : UInt32) (count : UInt32) : UInt32 :=
  (word <<< count) ||| (word >>> (32 - count))

/-- Add, exclude and rotate four words of the state into each other. -/
@[inline]
def quarterRound (s : Words) (a b c d : Fin 16) : Words :=
  let s := s.set a (s[a] + s[b])
  let s := s.set d (rotateLeft (s[d] ^^^ s[a]) 16)
  let s := s.set c (s[c] + s[d])
  let s := s.set b (rotateLeft (s[b] ^^^ s[c]) 12)
  let s := s.set a (s[a] + s[b])
  let s := s.set d (rotateLeft (s[d] ^^^ s[a]) 8)
  let s := s.set c (s[c] + s[d])
  s.set b (rotateLeft (s[b] ^^^ s[c]) 7)

/-- A round on the columns and a round on the diagonals. -/
def doubleRound (s : Words) : Words :=
  let s := quarterRound s 0 4 8 12
  let s := quarterRound s 1 5 9 13
  let s := quarterRound s 2 6 10 14
  let s := quarterRound s 3 7 11 15
  let s := quarterRound s 0 5 10 15
  let s := quarterRound s 1 6 11 12
  let s := quarterRound s 2 7 8 13
  quarterRound s 3 4 9 14

def rounds : (doubleRounds : Nat) → Words → Words
  | 0, s => s
  | n + 1, s => rounds n (doubleRound s)

/-- The state before the rounds: four constants, the key, the block number and two zeros. -/
def start (key : Vector UInt32 8) (counter : UInt64) : Words :=
  #v[0x61707865, 0x3320646e, 0x79622d32, 0x6b206574, key[0], key[1], key[2], key[3], key[4], key[5],
    key[6], key[7], counter.toUInt32, (counter >>> 32).toUInt32, 0, 0]

/-- Block number `counter` of the output: twelve rounds, added to the state before them. -/
def block (key : Vector UInt32 8) (counter : UInt64) : Words :=
  let before := start key counter
  (rounds 6 before).zipWith (· + ·) before

end DietExchange.ChaCha

namespace DietExchange

/-- A stream of random words: the key, the number of the next block, and the words of the block
    before it that are not drawn yet. -/
structure RandomStream where
  key : Vector UInt32 8
  counter : UInt64
  buffered : List UInt32
  deriving DecidableEq

namespace RandomStream

/-- The state of the seed's generator after one more step. -/
def seedStep (state : UInt64) : UInt64 := state * 6364136223846793005 + 11634580027462260723

/-- The word that the seed's generator puts out in this state: its high bits, shifted into each
    other and rotated by the highest five. -/
def seedWord (state : UInt64) : UInt32 :=
  let mixed := (((state >>> 18) ^^^ state) >>> 27).toUInt32
  let count := (state >>> 59).toUInt32
  (mixed >>> count) ||| (mixed <<< ((32 - count) % 32))

/-- The next `count` words that the seed's generator puts out. -/
def seedWords : (count : Nat) → UInt64 → List UInt32
  | 0, _ => []
  | count + 1, state =>
    let next := seedStep state
    seedWord next :: seedWords count next

/-- The stream of a seed, from its first word on. -/
def ofSeed (seed : UInt64) : RandomStream :=
  let words := (seedWords 8 seed).toArray
  ⟨Vector.ofFn fun index => words.getD index.val 0, 0, []⟩

/-- The next word. -/
def word (stream : RandomStream) : UInt32 × RandomStream :=
  match stream.buffered with
  | first :: rest => (first, { stream with buffered := rest })
  | [] =>
    let words := ChaCha.block stream.key stream.counter
    (words.get 0, { stream with counter := stream.counter + 1, buffered := words.toList.tail })

/-- The low sixteen bits of the next word. -/
def word16 (stream : RandomStream) : UInt16 × RandomStream :=
  let (value, next) := stream.word
  (value.toUInt16, next)

/-- The four bytes of a word, least significant first. -/
def littleEndian (word : UInt32) : List UInt8 :=
  [word.toUInt8, (word >>> 8).toUInt8, (word >>> 16).toUInt8, (word >>> 24).toUInt8]

/-- Sixteen bytes: the next four words, each least significant byte first. -/
def block (stream : RandomStream) : Block × RandomStream :=
  let (w0, stream) := stream.word
  let (w1, stream) := stream.word
  let (w2, stream) := stream.word
  let (w3, stream) := stream.word
  (Block.ofPadded (littleEndian w0 ++ littleEndian w1 ++ littleEndian w2 ++ littleEndian w3),
    stream)

/-- The stream after `count` blocks were drawn. -/
def dropBlocks : (count : Nat) → RandomStream → RandomStream
  | 0, stream => stream
  | count + 1, stream => dropBlocks count stream.block.2

/-- Block number `index` of those still to be drawn, counted from 0. -/
def blockAt (stream : RandomStream) (index : Nat) : Block := (stream.dropBlocks index).block.1

instance : Inhabited RandomStream := ⟨ofSeed 0⟩

end RandomStream

end DietExchange
