namespace DietExchange

/-- An address of version 4 of the internet protocol. -/
structure Ipv4 where
  octets : Vector UInt8 4
  deriving DecidableEq, Inhabited

/-- An address of version 6 of the internet protocol. -/
structure Ipv6 where
  segments : Vector UInt16 8
  deriving DecidableEq, Inhabited

/-- Where a datagram comes from or goes to. An address of version 6 also names the zone that it is
    valid in; 0 stands for none. -/
inductive Address where
  | v4 (host : Ipv4) (port : UInt16)
  | v6 (host : Ipv6) (scope : UInt32) (port : UInt16)
  deriving DecidableEq, Inhabited

/-- A decimal number below a bound. -/
def decimal? (bound : Nat) (text : String) : Option Nat :=
  if text.isEmpty || !text.all Char.isDigit then none else text.toNat?.filter (· < bound)

namespace Ipv4

/-- Four decimal numbers. -/
def text (host : Ipv4) : String := ".".intercalate (host.octets.toList.map toString)

/-- The address that is written like this, without leading zeros. -/
def ofText? (text : String) : Option Ipv4 := do
  let octets ← (text.splitOn ".").mapM fun part =>
    if 1 < part.length && part.startsWith "0" then none else decimal? 256 part
  match octets with
  | [a, b, c, d] => some ⟨#v[UInt8.ofNat a, UInt8.ofNat b, UInt8.ofNat c, UInt8.ofNat d]⟩
  | _ => none

end Ipv4

namespace Ipv6

/-- Where the longest run of zeros starts and how long it is; of several, the first. -/
def longestZeros (segments : List UInt16) : Nat × Nat :=
  (List.range segments.length).foldl (fun (start, length) index =>
    let here := ((segments.drop index).takeWhile (· = 0)).length
    if length < here then (index, here) else (start, length)) (0, 0)

/-- Hexadecimal numbers, without leading zeros. -/
def segmentsText (segments : List UInt16) : String :=
  ":".intercalate (segments.map fun segment => String.ofList (Nat.toDigits 16 segment.toNat))

/-- The address of version 4 that an address stands for. -/
def mapped? (host : Ipv6) : Option Ipv4 :=
  match host.segments.toList with
  | [a, b, c, d, e, f, high, low] =>
    if [a, b, c, d, e, f] = [0, 0, 0, 0, 0, 0xffff] then
      some ⟨#v[(high >>> 8).toUInt8, high.toUInt8, (low >>> 8).toUInt8, low.toUInt8]⟩
    else
      none
  | _ => none

/-- Eight hexadecimal numbers. The longest run of zeros is left out if there are at least two of
    them, and an address that stands for one of version 4 ends like it. -/
def text (host : Ipv6) : String :=
  match host.mapped? with
  | some short => "::ffff:" ++ short.text
  | none =>
    let segments := host.segments.toList
    let (start, length) := longestZeros segments
    if 1 < length then
      segmentsText (segments.take start) ++ "::" ++ segmentsText (segments.drop (start + length))
    else
      segmentsText segments

/-- What a hexadecimal digit of either case counts. -/
def digit? (c : Char) : Option Nat :=
  if c.isDigit then some (c.toNat - '0'.toNat)
  else if 'a' ≤ c && c ≤ 'f' then some (c.toNat - 'a'.toNat + 10)
  else if 'A' ≤ c && c ≤ 'F' then some (c.toNat - 'A'.toNat + 10)
  else none

/-- The segment that is written with these one to four digits. -/
def segmentOfText? (text : String) : Option UInt16 := do
  let digits ← text.toList.mapM digit?
  if 0 < digits.length && digits.length ≤ 4 then
    some (UInt16.ofNat (digits.foldl (fun value digit => value * 16 + digit) 0))
  else
    none

/-- The segments of a part of an address, of which the last two may be written like an address of
    version 4. -/
def segmentsOfText? (text : String) : Option (List UInt16) :=
  if text.isEmpty then some []
  else do
    let parts := text.splitOn ":"
    match Ipv4.ofText? (parts.getLast?.getD "") with
    | some short =>
      let word (high low : UInt8) : UInt16 := high.toUInt16 <<< 8 ||| low.toUInt16
      let front ← parts.dropLast.mapM segmentOfText?
      some (front ++ [word short.octets[0] short.octets[1], word short.octets[2] short.octets[3]])
    | none => parts.mapM segmentOfText?

/-- The address that is written like this; one run of zeros may be left out. -/
def ofText? (text : String) : Option Ipv6 := do
  let segments ← match text.splitOn "::" with
    | [front, back] => do
      let front ← segmentsOfText? front
      let back ← segmentsOfText? back
      let left := 8 - front.length - back.length
      if 0 < left then some (front ++ List.replicate left 0 ++ back) else none
    | _ => segmentsOfText? text
  match segments with
  | [a, b, c, d, e, f, g, h] => some ⟨#v[a, b, c, d, e, f, g, h]⟩
  | _ => none

end Ipv6

namespace Address

def text : Address → String
  | v4 host port => s!"{host.text}:{port}"
  | v6 host scope port =>
    if scope = 0 then s!"[{host.text}]:{port}" else s!"[{host.text}%{scope}]:{port}"

instance : ToString Address := ⟨text⟩

def portOfText? (text : String) : Option UInt16 := (decimal? (Nat.pow 2 16) text).map UInt16.ofNat

/-- The address that is written like this; no other text names one. -/
def ofText? (text : String) : Option Address := do
  if text.startsWith "[" then
    let [inner, port] := ((text.drop 1).toString).splitOn "]:" | none
    let port ← portOfText? port
    match inner.splitOn "%" with
    | [host] => some (v6 (← Ipv6.ofText? host) 0 port)
    | [host, scope] =>
      some (v6 (← Ipv6.ofText? host) (UInt32.ofNat (← decimal? (Nat.pow 2 32) scope)) port)
    | _ => none
  else
    let [host, port] := text.splitOn ":" | none
    some (v4 (← Ipv4.ofText? host) (← portOfText? port))

/-- The host with this number in the private network 10.0.0.0/24, at the port of the protocol. -/
def ofHost (number : UInt8) : Address := v4 ⟨#v[10, 0, 0, number]⟩ 10500

/-- There is always another address. -/
theorem exists_ne (address : Address) : ∃ other, other ≠ address := by
  by_cases heq : ofHost 1 = address
  · exact ⟨ofHost 2, by rw [← heq]; decide⟩
  · exact ⟨ofHost 1, heq⟩

end Address

end DietExchange
