import DietExchange.Bytes

namespace DietExchange

/-- A cipher suite, by its two-byte identifier. -/
inductive CipherSuite where
  | null
  | aes128Cbc
  | aes256Cbc
  | unknown (code : UInt16)
  deriving DecidableEq, Repr

namespace CipherSuite

def ofCode (code : UInt16) : CipherSuite :=
  if code = 1 then null
  else if code = 2 then aes128Cbc
  else if code = 4 then aes256Cbc
  else unknown code

def code : CipherSuite → UInt16
  | null => 1
  | aes128Cbc => 2
  | aes256Cbc => 4
  | unknown code => code

/-- The name of the suite; a suite without one is told by its code. -/
def name : CipherSuite → String
  | null => "Null"
  | aes128Cbc => "Aes128Cbc"
  | aes256Cbc => "Aes256Cbc"
  | unknown code => s!"Unknown({code})"

/-- A suite that names itself as precisely as its code allows. -/
def IsCanonical (suite : CipherSuite) : Prop := ofCode suite.code = suite

instance (suite : CipherSuite) : Decidable suite.IsCanonical :=
  inferInstanceAs (Decidable (_ = _))

instance : Inhabited CipherSuite := ⟨unknown 0⟩

@[simp]
theorem code_ofCode (value : UInt16) : (ofCode value).code = value := by
  grind [ofCode, code]

@[simp]
theorem map_code_map_ofCode (codes : List UInt16) : (codes.map ofCode).map code = codes := by
  rw [List.map_map]
  exact (List.map_congr_left fun value _ => code_ofCode value).trans (List.map_id codes)

theorem map_ofCode_map_code {suites : List CipherSuite} (hcanonical : ∀ suite ∈ suites,
    suite.IsCanonical) : (suites.map code).map ofCode = suites := by
  rw [List.map_map]
  exact (List.map_congr_left hcanonical).trans (List.map_id suites)

end CipherSuite

/-- The most suites that one offer keeps. -/
def maxCipherSuites : Nat := 8

/-- The suites an initiator offers, in order of preference. -/
structure CipherOffer where
  suites : List CipherSuite
  length_le : suites.length ≤ maxCipherSuites
  deriving DecidableEq

namespace CipherOffer

/-- The offer of the first eight of these suites; the others are dropped. -/
def ofList (suites : List CipherSuite) : CipherOffer :=
  ⟨suites.take maxCipherSuites, List.length_take_le ..⟩

/-- The first suite of `ours`, in our order, that is also offered. -/
def select? (offer : CipherOffer) (ours : List CipherSuite) : Option CipherSuite :=
  ours.find? offer.suites.contains

/-- Two bytes a suite. -/
def encode (offer : CipherOffer) : List UInt8 :=
  offer.suites.flatMap fun suite => wordBytes suite.code

instance : Inhabited CipherOffer := ⟨⟨[], by decide⟩⟩

theorem mem_of_select? {offer : CipherOffer} {ours : List CipherSuite} {suite : CipherSuite}
    (hselect : offer.select? ours = some suite) : suite ∈ ours ∧ suite ∈ offer.suites :=
  ⟨List.mem_of_find?_eq_some hselect, by simpa using List.find?_some hselect⟩

end CipherOffer

end DietExchange
