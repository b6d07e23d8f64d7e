import DietExchange.Cmac.Tag
import DietExchange.Packet.Codec

/-!
The authentication tag of a packet. It covers a header rebuilt for the covered parameters, which
are those of a kind below the tag, in wire order; the version byte and the checksum are not part
of it.
-/

namespace DietExchange.Packet

/-- The parameters that the tag covers, in wire order. -/
def covered (packet : Packet) : List Parameter :=
  packet.parameters.filter fun parameter => parameter.kind.IsCovered

/-- The bytes that are authenticated. The length byte counts only what is covered, modulo 256. -/
def macInput (packet : Packet) : Except Error (List UInt8) := do
  let body ← Parameter.encodeAll packet.covered
  return [nextHeaderNone, UInt8.ofNat ((headerLength + body.length - 8) / 8), packet.kind.code] ++
    [0, 0] ++ wordBytes packet.controls ++ packet.sender.toBytes ++ packet.receiver.toBytes ++ body

/-- The tag of a packet under a key of 16, 24 or 32 bytes. -/
def computeMac (packet : Packet) (key : List UInt8) : Except Error Block := do
  let input ← packet.macInput
  let cmac ← CmacKey.ofBytes key
  return cmac.tag input

/-- The parameters with this content in the first tag, if there is one. -/
def replaceTag (tag : List UInt8) : List Parameter → Option (List Parameter)
  | [] => none
  | .hipMac3 _ :: rest => some (.hipMac3 tag :: rest)
  | parameter :: rest => (parameter :: ·) <$> replaceTag tag rest

/-- The packet with its tag computed and stored. The tag is computed before a place for it is
    sought. -/
def recalculateMac (packet : Packet) (key : List UInt8) : Except Error Packet := do
  let tag ← packet.computeMac key
  match replaceTag tag.toList packet.parameters with
  | some parameters => return { packet with parameters := parameters }
  | none => throw (.missingParameter packet.kind .hipMac3)

/-- Refuse a packet whose tag is missing, is not one block, or is not the one computed. -/
def verifyMac (packet : Packet) (key : List UInt8) : Except Error Unit :=
  match packet.hipMac? with
  | none => .error (.missingParameter packet.kind .hipMac3)
  | some tag =>
    if tag.length ≠ blockLength then
      .error .badMac
    else do
      let computed ← packet.computeMac key
      if computed.toList = tag then
        return ()
      else
        throw .badMac

theorem replaceTag_eq_some {tag : List UInt8} {before after : List Parameter}
    (hreplace : replaceTag tag before = some after) :
    ∃ front old back, before = front ++ .hipMac3 old :: back ∧
    after = front ++ .hipMac3 tag :: back ∧ ∀ parameter ∈ front, parameter.kind ≠ .hipMac3 := by
  induction before generalizing after with
  | nil => simp [replaceTag] at hreplace
  | cons parameter rest ih =>
    cases parameter
    case hipMac3 old =>
      simp only [replaceTag, Option.some.injEq] at hreplace
      exact ⟨[], old, rest, rfl, hreplace.symm, by simp⟩
    all_goals
      simp only [replaceTag, Option.map_eq_map, Option.map_eq_some_iff] at hreplace
      obtain ⟨others, hothers, rfl⟩ := hreplace
      obtain ⟨front, old, back, rfl, rfl, hfront⟩ := ih hothers
      exact ⟨_ :: front, old, back, rfl, rfl, by simpa [Parameter.kind] using hfront⟩

end DietExchange.Packet
