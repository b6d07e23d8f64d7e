import DietExchange.Error
import DietExchange.Hit
import DietExchange.Parameter.Basic

namespace DietExchange

structure Packet where
  kind : PacketKind
  controls : UInt16
  sender : Hit
  receiver : Hit
  parameters : List Parameter
  deriving DecidableEq

namespace Packet

/-- A packet with these parameters and no control bit set. -/
def ofParameters (kind : PacketKind) (sender receiver : Hit)
    (parameters : List Parameter) : Packet :=
  ⟨kind, 0, sender, receiver, parameters⟩

/-- The packet with one more parameter at its end. -/
def push (packet : Packet) (parameter : Parameter) : Packet :=
  { packet with parameters := packet.parameters ++ [parameter] }

/-- The packet without its parameters of a kind. -/
def drop (packet : Packet) (kind : ParameterKind) : Packet :=
  { packet with parameters := packet.parameters.filter fun parameter => parameter.kind ≠ kind }

/-- Parameters with this one in the place of the first of its kind, if there is one. -/
def replaceFirst (new : Parameter) : List Parameter → List Parameter
  | [] => []
  | old :: rest => if old.kind = new.kind then new :: rest else old :: replaceFirst new rest

/-- The packet with every solution in it changed. -/
def mapSolutions (packet : Packet) (change : Solution → Solution) : Packet :=
  { packet with parameters := packet.parameters.map fun
    | .solution solution => .solution (change solution)
    | parameter => parameter }

/-- The first parameter of a kind. -/
def parameter? (packet : Packet) (kind : ParameterKind) : Option Parameter :=
  packet.parameters.find? fun parameter => parameter.kind = kind

def r1Counter? (packet : Packet) : Option UInt64 :=
  match packet.parameter? .r1Counter with
  | some (.r1Counter counter) => some counter
  | _ => none

def puzzle? (packet : Packet) : Option Puzzle :=
  match packet.parameter? .puzzle with
  | some (.puzzle puzzle) => some puzzle
  | _ => none

def solution? (packet : Packet) : Option Solution :=
  match packet.parameter? .solution with
  | some (.solution solution) => some solution
  | _ => none

def hipCipher? (packet : Packet) : Option CipherOffer :=
  match packet.parameter? .hipCipher with
  | some (.hipCipher offer) => some offer
  | _ => none

def hostId? (packet : Packet) : Option HostId :=
  match packet.parameter? .hostId with
  | some (.hostId id) => some id
  | _ => none

def dhGroupList? (packet : Packet) : Option DhGroupList :=
  match packet.parameter? .dhGroupList with
  | some (.dhGroupList list) => some list
  | _ => none

def hipMac? (packet : Packet) : Option (List UInt8) :=
  match packet.parameter? .hipMac3 with
  | some (.hipMac3 tag) => some tag
  | _ => none

def echoRequest? (packet : Packet) : Option (List UInt8) :=
  match packet.parameter? .echoRequestUnsigned with
  | some (.echoRequestUnsigned data) => some data
  | _ => none

def echoResponse? (packet : Packet) : Option (List UInt8) :=
  match packet.parameter? .echoResponseUnsigned with
  | some (.echoResponseUnsigned data) => some data
  | _ => none

/-- Refuse a packet that lacks a mandatory parameter; the first that is missing is named. -/
def checkMandatory (packet : Packet) : Except Error Unit :=
  match packet.kind.mandatory.find? fun kind => (packet.parameter? kind).isNone with
  | some kind => .error (.missingParameter packet.kind kind)
  | none => .ok ()

/-- A value taken from a mandatory parameter; without it the parameter is missing. -/
def require {α : Type} (packet : Packet) (kind : ParameterKind) (value : Option α) :
    Except Error α :=
  match value with
  | some value => .ok value
  | none => .error (.missingParameter packet.kind kind)

/-- Whether every parameter can be read back as it was. -/
def IsWellFormed (packet : Packet) : Prop := ∀ parameter ∈ packet.parameters, parameter.IsWellFormed

instance (packet : Packet) : Decidable packet.IsWellFormed :=
  inferInstanceAs (Decidable (∀ parameter ∈ packet.parameters, parameter.IsWellFormed))

theorem checkMandatory_eq_ok_iff {packet : Packet} :
    packet.checkMandatory = .ok () ↔
      ∀ kind ∈ packet.kind.mandatory, (packet.parameter? kind).isSome := by
  unfold checkMandatory
  split
  · rename_i kind hfind
    simp only [reduceCtorEq, false_iff]
    intro hall
    have hmissing := List.find?_some hfind
    have hpresent := hall kind (List.mem_of_find?_eq_some hfind)
    cases hparameter : packet.parameter? kind <;> simp_all
  · rename_i hfind
    simp only [true_iff]
    intro kind hmem
    have hnot := List.find?_eq_none.mp hfind kind hmem
    cases hparameter : packet.parameter? kind <;> simp_all

end Packet

end DietExchange
