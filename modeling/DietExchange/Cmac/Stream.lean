import DietExchange.Cmac.Tag

/-!
CMAC over a message that arrives in pieces. The last block needs a subkey, so a full buffer is
chained only when more input shows that it was not the last.
-/

namespace DietExchange

/-- The block with `bytes` copied over its own from `offset` on. -/
def Block.overwrite (block : Block) (offset : Nat) (bytes : List UInt8) : Block :=
  Block.ofPadded
    (block.toList.take offset ++ bytes ++ block.toList.drop (offset + bytes.length))

theorem Block.take_overwrite (block : Block) {offset : Nat} {bytes : List UInt8}
    (hfits : offset + bytes.length ≤ 16) :
    (block.overwrite offset bytes).toList.take (offset + bytes.length) =
      block.toList.take offset ++ bytes := by
  have hfront : (block.toList.take offset ++ bytes).length = offset + bytes.length := by
    rw [List.length_append, List.length_take, Block.length_toList]
    omega
  have hwhole : (block.toList.take offset ++ bytes ++
      block.toList.drop (offset + bytes.length)).length = 16 := by
    rw [List.length_append, hfront, List.length_drop, Block.length_toList]
    omega
  rw [overwrite, Block.toList_ofPadded hwhole, List.take_left' hfront]

/-- A CMAC under way: the key, the running value of the blocks chained so far, and a buffer. The
    first `filled` bytes of the buffer are the input that is not chained yet; those behind them are
    left over from earlier input. -/
structure CmacStream where
  key : CmacKey
  running : Block
  buffer : Block
  filled : Nat
  filled_le : filled ≤ 16

namespace CmacStream

/-- An empty message under this key. -/
def start (key : CmacKey) : CmacStream := ⟨key, Block.zero, Block.zero, 0, Nat.zero_le 16⟩

/-- An empty message under AES with this key. -/
def ofBytes (key : List UInt8) : Except Error CmacStream := start <$> CmacKey.ofBytes key

/-- The input that is not chained yet. -/
def pending (stream : CmacStream) : List UInt8 := stream.buffer.toList.take stream.filled

/-- How many bytes the buffer still takes. -/
def room (stream : CmacStream) : Nat := 16 - stream.filled

/-- Chain the buffer and begin it anew. Its bytes stay where they are. -/
def chainBuffer (stream : CmacStream) : CmacStream :=
  { stream with
    running := stream.key.chain stream.running stream.buffer
    filled := 0
    filled_le := Nat.zero_le 16 }

/-- A full buffer is chained, since there is more input. -/
def makeRoom (stream : CmacStream) : CmacStream :=
  if stream.filled = 16 then stream.chainBuffer else stream

/-- Copy as many of the bytes into the buffer as it takes. -/
def fill (stream : CmacStream) (bytes : List UInt8) : CmacStream :=
  { stream with
    buffer := stream.buffer.overwrite stream.filled (bytes.take stream.room)
    filled := stream.filled + (bytes.take stream.room).length
    filled_le := by
      have hle := stream.filled_le
      simp only [List.length_take, room]
      omega }

theorem room_makeRoom_pos (stream : CmacStream) : 0 < stream.makeRoom.room := by
  have hle := stream.filled_le
  unfold makeRoom room
  split
  · exact Nat.zero_lt_succ 15
  · omega

/-- More bytes of the message, as many at a time as the buffer takes. -/
def update (stream : CmacStream) (bytes : List UInt8) : CmacStream :=
  if bytes = [] then stream
  else (stream.makeRoom.fill bytes).update (bytes.drop stream.makeRoom.room)
termination_by bytes.length
decreasing_by
  have hroom := room_makeRoom_pos stream
  have hpos : 0 < bytes.length := List.length_pos_iff.mpr ‹bytes ≠ []›
  rw [List.length_drop]
  omega

/-- A number of `width` bytes, most significant first. -/
def updateNumber (stream : CmacStream) (width value : Nat) : CmacStream :=
  stream.update (bigEndian width value)

/-- Forget the message, keep the key. -/
def reset (stream : CmacStream) : CmacStream := start stream.key

/-- The tag of the message; the next message starts. -/
def finalize (stream : CmacStream) : Block × CmacStream :=
  (stream.key.chain stream.running (stream.key.maskLast stream.pending), stream.reset)

/-- The first `length` bytes of the tag. A length beyond the tag is refused, and the message goes
    on. -/
def finalizeInto (stream : CmacStream) (length : Nat) :
    Except Error (List UInt8) × CmacStream :=
  if blockLength < length then
    (.error (.crypto (.cmacOutputLength length)), stream)
  else
    let (tag, next) := stream.finalize
    (.ok (tag.toList.take length), next)

/-- Start over under another key, as `keyed` makes it. A key that is refused leaves the message as
    it is. -/
def rekeyWith (keyed : List UInt8 → Except Error CmacKey) (stream : CmacStream)
    (key : List UInt8) : Except Error Unit × CmacStream :=
  match keyed key with
  | .ok next => (.ok (), start next)
  | .error error => (.error error, stream)

/-- Start over under another key of AES. -/
def rekey : CmacStream → List UInt8 → Except Error Unit × CmacStream := rekeyWith CmacKey.ofBytes

/-- What may be shown of a stream: how many bytes wait, and nothing secret. -/
def summary (stream : CmacStream) : String :=
  "Cmac \x7b buffered: " ++ toString stream.filled ++ ", .. \x7d"

@[simp]
theorem length_pending (stream : CmacStream) : stream.pending.length = stream.filled := by
  have hle := stream.filled_le
  rw [pending, List.length_take, Block.length_toList]
  omega

@[simp]
theorem pending_start (key : CmacKey) : (start key).pending = [] := List.take_zero

@[simp]
theorem key_makeRoom (stream : CmacStream) : stream.makeRoom.key = stream.key := by
  unfold makeRoom
  split <;> rfl

/-- A piece of input goes behind what was pending, whatever stood there. -/
theorem pending_fill (stream : CmacStream) (bytes : List UInt8) :
    (stream.fill bytes).pending = stream.pending ++ bytes.take stream.room :=
  stream.buffer.take_overwrite (stream.fill bytes).filled_le

@[simp]
theorem update_nil (stream : CmacStream) : stream.update [] = stream := by
  rw [update, if_pos rfl]

theorem update_of_ne_nil (stream : CmacStream) {bytes : List UInt8} (hbytes : bytes ≠ []) :
    stream.update bytes =
      (stream.makeRoom.fill bytes).update (bytes.drop stream.makeRoom.room) := by
  rw [update, if_neg hbytes]

@[simp]
theorem key_update (stream : CmacStream) (bytes : List UInt8) :
    (stream.update bytes).key = stream.key := by
  induction stream, bytes using update.induct with
  | case1 stream => rw [update_nil]
  | case2 stream bytes hbytes ih =>
    rw [update_of_ne_nil stream hbytes, ih]
    exact key_makeRoom stream

end CmacStream

end DietExchange
