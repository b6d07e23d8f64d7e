import DietExchange.Bytes

namespace DietExchange

/-- A Diffie-Hellman group, by its one-byte identifier. -/
inductive DhGroup where
  | nistP256
  | nistP384
  | nistP521
  | secp160r1
  | unknown (code : UInt8)
  deriving DecidableEq, Repr

namespace DhGroup

def ofCode (code : UInt8) : DhGroup :=
  if code = 7 then nistP256
  else if code = 8 then nistP384
  else if code = 9 then nistP521
  else if code = 10 then secp160r1
  else unknown code

def code : DhGroup → UInt8
  | nistP256 => 7
  | nistP384 => 8
  | nistP521 => 9
  | secp160r1 => 10
  | unknown code => code

/-- The name of the group; a group without one is told by its code. -/
def name : DhGroup → String
  | nistP256 => "NistP256"
  | nistP384 => "NistP384"
  | nistP521 => "NistP521"
  | secp160r1 => "Secp160r1"
  | unknown code => s!"Unknown({code})"

/-- A group that names itself as precisely as its code allows. -/
def IsCanonical (group : DhGroup) : Prop := ofCode group.code = group

instance (group : DhGroup) : Decidable group.IsCanonical :=
  inferInstanceAs (Decidable (_ = _))

instance : Inhabited DhGroup := ⟨unknown 0⟩

@[simp]
theorem code_ofCode (value : UInt8) : (ofCode value).code = value := by
  grind [ofCode, code]

@[simp]
theorem map_code_map_ofCode (codes : List UInt8) : (codes.map ofCode).map code = codes := by
  rw [List.map_map]
  exact (List.map_congr_left fun value _ => code_ofCode value).trans (List.map_id codes)

theorem map_ofCode_map_code {groups : List DhGroup} (hcanonical : ∀ group ∈ groups,
    group.IsCanonical) : (groups.map code).map ofCode = groups := by
  rw [List.map_map]
  exact (List.map_congr_left hcanonical).trans (List.map_id groups)

end DhGroup

/-- The most groups that one list keeps. -/
def maxDhGroups : Nat := 16

/-- The groups a host supports, in order of preference. -/
structure DhGroupList where
  groups : List DhGroup
  length_le : groups.length ≤ maxDhGroups
  deriving DecidableEq

namespace DhGroupList

/-- The list of the first 16 of these groups; the others are dropped. -/
def ofList (groups : List DhGroup) : DhGroupList :=
  ⟨groups.take maxDhGroups, List.length_take_le ..⟩

/-- The list that holds one group. -/
def single (group : DhGroup) : DhGroupList := ⟨[group], Nat.le_add_left 1 15⟩

def contains (list : DhGroupList) (group : DhGroup) : Bool := list.groups.contains group

/-- One byte a group. -/
def encode (list : DhGroupList) : List UInt8 := list.groups.map DhGroup.code

instance : Inhabited DhGroupList := ⟨⟨[], by decide⟩⟩

end DhGroupList

end DietExchange
