import DietExchange.Cmac.Stream
import DietExchange.Proofs.Cmac.Standard

namespace DietExchange.CmacStream

open Cmac (chained blockAt)

/-- The stream has taken in this message since it was last empty: all blocks but the last are
    chained, and the last one is pending. -/
structure Holds (stream : CmacStream) (message : List UInt8) : Prop where
  running : stream.running = chained stream.key.cipher message ((message.length - 1) / 16)
  pending : stream.pending = message.drop (16 * ((message.length - 1) / 16))

/-- The stream has room for more of this message: its complete blocks are chained, also when the
    message ends with one. -/
structure HasRoom (stream : CmacStream) (message : List UInt8) : Prop where
  running : stream.running = chained stream.key.cipher message (message.length / 16)
  pending : stream.pending = message.drop (16 * (message.length / 16))

variable {stream : CmacStream} {message bytes : List UInt8}

theorem holds_start (key : CmacKey) : (start key).Holds [] := ⟨rfl, pending_start key⟩

theorem Holds.filled (hholds : stream.Holds message) :
    stream.filled = message.length - 16 * ((message.length - 1) / 16) := by
  rw [← length_pending, hholds.pending, List.length_drop]

theorem HasRoom.filled (hready : stream.HasRoom message) : stream.filled = message.length % 16 := by
  rw [← length_pending, hready.pending, List.length_drop]
  omega

/-- A full buffer is the last block of the message. -/
theorem Holds.buffer_eq (hholds : stream.Holds message) (hfull : stream.filled = 16) :
    stream.buffer = Block.ofPadded (blockAt message ((message.length - 1) / 16)) := by
  have hpending : stream.pending = stream.buffer.toList := by
    rw [CmacStream.pending, hfull, List.take_of_length_le (Nat.le_of_eq (Block.length_toList _))]
  rw [blockAt, Cmac.ofPadded_take, ← hholds.pending, hpending, Block.ofPadded_toList]

theorem Holds.makeRoom (hholds : stream.Holds message) : stream.makeRoom.HasRoom message := by
  have hfilled := hholds.filled
  have hle := stream.filled_le
  unfold CmacStream.makeRoom
  split
  case isTrue hfull =>
    have hnext : message.length / 16 = (message.length - 1) / 16 + 1 := by omega
    have hchain : stream.key.chain stream.running stream.buffer =
        chained stream.key.cipher message ((message.length - 1) / 16 + 1) := by
      rw [chained, CmacKey.chain, hholds.running, hholds.buffer_eq hfull]
    constructor
    · rw [hnext]
      exact hchain
    · have hend : message.length ≤ 16 * (message.length / 16) := by omega
      rw [List.drop_eq_nil_of_le hend]
      exact List.take_zero
  case isFalse hfull =>
    have hsame : message.length / 16 = (message.length - 1) / 16 := by omega
    exact ⟨hsame ▸ hholds.running, hsame ▸ hholds.pending⟩

/-- One piece of input, which is not empty, so that the block it is put into is the last one. -/
theorem HasRoom.fill (hready : stream.HasRoom message) (hbytes : bytes ≠ []) :
    (stream.fill bytes).Holds (message ++ bytes.take stream.room) := by
  have hpiece : (bytes.take stream.room).length = min stream.room bytes.length := List.length_take
  have hpos : 0 < bytes.length := List.length_pos_iff.mpr hbytes
  have hfilled := hready.filled
  have hroom : stream.room = 16 - stream.filled := rfl
  have hcount : ((message ++ bytes.take stream.room).length - 1) / 16 = message.length / 16 := by
    rw [List.length_append]
    omega
  have hwhole : 16 * (message.length / 16) ≤ message.length := Nat.mul_div_le _ _
  constructor
  · rw [hcount, Cmac.chained_append _ _ hwhole]
    exact hready.running
  · rw [hcount, pending_fill, hready.pending, List.drop_append_of_le_length hwhole]

/-- More input makes the message longer, in however many pieces the buffer takes it. -/
theorem Holds.update (hholds : stream.Holds message) (bytes : List UInt8) :
    (stream.update bytes).Holds (message ++ bytes) := by
  induction stream, bytes using CmacStream.update.induct generalizing message with
  | case1 stream =>
    rw [update_nil, List.append_nil]
    exact hholds
  | case2 stream bytes hbytes ih =>
    have hnext := ih (hholds.makeRoom.fill hbytes)
    rwa [List.append_assoc, List.take_append_drop, ← update_of_ne_nil stream hbytes] at hnext

/-- The tag is that of the message held, and the stream is as a new one. -/
theorem Holds.finalize (hholds : stream.Holds message) :
    stream.finalize = (stream.key.tag message, start stream.key) := by
  rw [CmacKey.tag_eq_chained, ← hholds.running, ← hholds.pending]
  rfl

end DietExchange.CmacStream
