import DietExchange.Bytes

namespace DietExchange

/-- A kind of parameter that is understood. A parameter of any other kind could change the meaning
    of its packet, so it is refused. -/
inductive ParameterKind where
  | r1Counter
  | puzzle
  | solution
  | hipCipher
  | encrypted
  | encryptedKey
  | hostId
  | hitSuiteList
  | dhGroupList
  | hipMac3
  | echoResponseUnsigned
  | echoRequestUnsigned
  deriving DecidableEq, Repr

namespace ParameterKind

def code : ParameterKind → UInt16
  | r1Counter => 128
  | puzzle => 257
  | solution => 321
  | hipCipher => 579
  | encrypted => 641
  | encryptedKey => 643
  | hostId => 705
  | hitSuiteList => 715
  | dhGroupList => 2151
  | hipMac3 => 61507
  | echoResponseUnsigned => 63425
  | echoRequestUnsigned => 63661

/-- Every kind, by ascending code. -/
def all : List ParameterKind :=
  [r1Counter, puzzle, solution, hipCipher, encrypted, encryptedKey, hostId, hitSuiteList,
    dhGroupList, hipMac3, echoResponseUnsigned, echoRequestUnsigned]

def ofCode? (code : UInt16) : Option ParameterKind :=
  all.find? fun kind => kind.code = code

/-- The name of the kind in messages. -/
def name : ParameterKind → String
  | r1Counter => "R1Counter"
  | puzzle => "Puzzle"
  | solution => "Solution"
  | hipCipher => "HipCipher"
  | encrypted => "Encrypted"
  | encryptedKey => "EncryptedKey"
  | hostId => "HostId"
  | hitSuiteList => "HitSuiteList"
  | dhGroupList => "DhGroupList"
  | hipMac3 => "HipMac3"
  | echoResponseUnsigned => "EchoResponseUnsigned"
  | echoRequestUnsigned => "EchoRequestUnsigned"

def ofName? (name : String) : Option ParameterKind :=
  all.find? fun kind => kind.name == name

/-- Whether the tag of a packet covers its parameters of this kind: those below the tag itself. -/
def IsCovered (kind : ParameterKind) : Prop := kind.code < hipMac3.code

instance (kind : ParameterKind) : Decidable kind.IsCovered :=
  inferInstanceAs (Decidable (_ < _))

@[simp]
theorem ofCode?_code (kind : ParameterKind) : ofCode? kind.code = some kind := by
  cases kind <;> rfl

theorem ofCode?_eq_some_iff {value : UInt16} {kind : ParameterKind} :
    ofCode? value = some kind ↔ kind.code = value := by
  refine ⟨fun hkind => ?_, fun hcode => hcode ▸ ofCode?_code kind⟩
  simpa using List.find?_some hkind

end ParameterKind

/-- The four packets of the exchange. -/
inductive PacketKind where
  | i1
  | r1
  | i2
  | r2
  deriving DecidableEq, Repr

namespace PacketKind

def code : PacketKind → UInt8
  | i1 => 1
  | r1 => 2
  | i2 => 3
  | r2 => 4

def ofCode? (code : UInt8) : Option PacketKind :=
  if code = 1 then some i1
  else if code = 2 then some r1
  else if code = 3 then some i2
  else if code = 4 then some r2
  else none

/-- The name of the kind in messages. -/
def name : PacketKind → String
  | i1 => "I1"
  | r1 => "R1"
  | i2 => "I2"
  | r2 => "R2"

/-- The parameters that a packet of this kind must carry, in the order in which they are asked
    for. -/
def mandatory : PacketKind → List ParameterKind
  | i1 => [.dhGroupList]
  | r1 => [.puzzle, .hostId, .dhGroupList]
  | i2 => [.solution, .hipCipher, .encryptedKey, .hostId, .hipMac3]
  | r2 => [.dhGroupList, .encryptedKey, .hipMac3]

@[simp]
theorem ofCode?_code (kind : PacketKind) : ofCode? kind.code = some kind := by
  cases kind <;> rfl

theorem ofCode?_eq_some_iff {value : UInt8} {kind : PacketKind} :
    ofCode? value = some kind ↔ kind.code = value := by
  refine ⟨fun hkind => ?_, fun hcode => hcode ▸ ofCode?_code kind⟩
  unfold ofCode? at hkind
  grind [code]

/-- No code uses the highest bit. -/
theorem code_and (kind : PacketKind) : kind.code &&& 0x7f = kind.code := by
  cases kind <;> rfl

end PacketKind

end DietExchange
