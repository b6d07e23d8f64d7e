namespace DietExchange

/-- The last `width` base-256 digits of `value`, most significant first. -/
def bigEndian : (width value : Nat) → List UInt8
  | 0, _ => []
  | width + 1, value => UInt8.ofNat (value / Nat.pow 256 width) :: bigEndian width value

/-- The number whose base-256 digits are `bytes`, most significant first. -/
def bigEndianValue (bytes : List UInt8) : Nat :=
  bytes.foldl (fun value byte => value * 256 + byte.toNat) 0

@[simp]
theorem length_bigEndian (width value : Nat) : (bigEndian width value).length = width := by
  induction width with
  | zero => rfl
  | succ width ih => simp [bigEndian, ih]

theorem foldl_bigEndianValue (bytes : List UInt8) (start : Nat) :
    bytes.foldl (fun value byte => value * 256 + byte.toNat) start =
      start * Nat.pow 256 bytes.length + bigEndianValue bytes := by
  induction bytes generalizing start with
  | nil => simp [bigEndianValue]
  | cons byte rest ih =>
    simp only [bigEndianValue, List.foldl_cons, List.length_cons]
    rw [ih, ih (0 * 256 + byte.toNat)]
    have hpow : Nat.pow 256 (rest.length + 1) = Nat.pow 256 rest.length * 256 := rfl
    rw [hpow]
    grind

@[simp]
theorem bigEndianValue_nil : bigEndianValue [] = 0 := rfl

theorem bigEndianValue_cons (byte : UInt8) (rest : List UInt8) :
    bigEndianValue (byte :: rest) = byte.toNat * Nat.pow 256 rest.length + bigEndianValue rest := by
  rw [bigEndianValue, List.foldl_cons, foldl_bigEndianValue]
  simp

theorem bigEndianValue_lt (bytes : List UInt8) : bigEndianValue bytes <
    Nat.pow 256 bytes.length := by
  induction bytes with
  | nil => simp
  | cons byte rest ih =>
    have hbyte : byte.toNat < 256 := byte.toNat_lt
    rw [bigEndianValue_cons, List.length_cons]
    calc byte.toNat * Nat.pow 256 rest.length + bigEndianValue rest
        < byte.toNat * Nat.pow 256 rest.length + Nat.pow 256 rest.length := Nat.add_lt_add_left ih _
      _ = (byte.toNat + 1) * Nat.pow 256 rest.length := by rw [Nat.succ_mul]
      _ ≤ 256 * Nat.pow 256 rest.length := Nat.mul_le_mul_right _ hbyte
      _ = Nat.pow 256 rest.length * 256 := Nat.mul_comm _ _

/-- Writing keeps a number modulo its width. -/
theorem bigEndianValue_bigEndian (width value : Nat) :
    bigEndianValue (bigEndian width value) = value % Nat.pow 256 width := by
  induction width with
  | zero => simp [bigEndian, Nat.mod_one]
  | succ width ih =>
    have hpow : Nat.pow 256 (width + 1) = Nat.pow 256 width * 256 := rfl
    rw [bigEndian, bigEndianValue_cons, length_bigEndian, ih, UInt8.toNat_ofNat', hpow, Nat.mod_mul,
      Nat.add_comm, Nat.mul_comm]

/-- Reading loses nothing: a byte string is the big-endian form of its value. -/
theorem bigEndian_bigEndianValue (bytes : List UInt8) :
    bigEndian bytes.length (bigEndianValue bytes) = bytes := by
  suffices h : ∀ carry,
      bigEndian bytes.length (carry * Nat.pow 256 bytes.length + bigEndianValue bytes) = bytes by
    simpa using h 0
  induction bytes with
  | nil => intro carry; rfl
  | cons byte rest ih =>
    intro carry
    have hpos : 0 < Nat.pow 256 rest.length := Nat.pow_pos (by omega)
    have hpow : Nat.pow 256 (rest.length + 1) = Nat.pow 256 rest.length * 256 := rfl
    have hsplit : carry * Nat.pow 256 (rest.length + 1) + bigEndianValue (byte :: rest) =
        (carry * 256 + byte.toNat) * Nat.pow 256 rest.length + bigEndianValue rest := by
      rw [bigEndianValue_cons, hpow, Nat.add_mul, Nat.mul_assoc, Nat.mul_comm 256, Nat.add_assoc]
    have hhead : ((carry * 256 + byte.toNat) * Nat.pow 256 rest.length + bigEndianValue rest) /
        Nat.pow 256 rest.length = carry * 256 + byte.toNat := by
      rw [Nat.mul_comm, Nat.mul_add_div hpos, Nat.div_eq_of_lt (bigEndianValue_lt rest),
        Nat.add_zero]
    rw [List.length_cons, bigEndian, hsplit, hhead, ih]
    congr 1
    apply UInt8.toNat_inj.mp
    have hbyte : byte.toNat < 256 := byte.toNat_lt
    simp only [UInt8.toNat_ofNat', Nat.reducePow]
    omega

theorem eq_of_bigEndian_eq (width : Nat) {a b : Nat} (ha : a < Nat.pow 256 width)
    (hb : b < Nat.pow 256 width) (heq : bigEndian width a = bigEndian width b) : a = b := by
  have hvalue := congrArg bigEndianValue heq
  rwa [bigEndianValue_bigEndian, bigEndianValue_bigEndian, Nat.mod_eq_of_lt ha, Nat.mod_eq_of_lt hb]
    at hvalue

/-- The two bytes of a 16-bit word. -/
def wordBytes (word : UInt16) : List UInt8 := bigEndian 2 word.toNat

theorem wordBytes_ofNat {value : Nat} (hvalue : value < 65536) :
    wordBytes (UInt16.ofNat value) = bigEndian 2 value := by
  rw [wordBytes, UInt16.toNat_ofNat_of_lt' hvalue]

@[simp]
theorem length_wordBytes (word : UInt16) : (wordBytes word).length = 2 := length_bigEndian 2 _

theorem eq_of_wordBytes_eq {a b : UInt16} (heq : wordBytes a = wordBytes b) : a = b :=
  UInt16.toNat_inj.mp (eq_of_bigEndian_eq 2 a.toNat_lt b.toNat_lt heq)

/-- Lower-case hexadecimal digits of a byte, always two. -/
def hexByte (byte : UInt8) : String :=
  let digit (n : Nat) : Char := if n < 10 then Char.ofNat (48 + n) else Char.ofNat (87 + n)
  String.ofList [digit (byte.toNat / 16), digit (byte.toNat % 16)]

/-- Lower-case hexadecimal digits of a byte string, two to a byte. -/
def hexString (bytes : List UInt8) : String :=
  String.join (bytes.map hexByte)

/-- The value of a hexadecimal digit; anything else counts as 0. -/
def hexDigitValue (c : Char) : Nat :=
  if '0' ≤ c ∧ c ≤ '9' then c.toNat - 48
  else if 'a' ≤ c ∧ c ≤ 'f' then c.toNat - 87
  else if 'A' ≤ c ∧ c ≤ 'F' then c.toNat - 55
  else 0

/-- The bytes that pairs of hexadecimal digits spell; an odd last digit is left out. -/
def ofHexDigits : List Char → List UInt8
  | high :: low :: rest =>
    UInt8.ofNat (hexDigitValue high * 16 + hexDigitValue low) :: ofHexDigits rest
  | _ => []

end DietExchange
