import DietExchange.Proofs.Packet.Limits

namespace DietExchange.Parameter

/-- Whether the parameter can be read back and these bytes are written for it. -/
structure IsEncoded (parameter : Parameter) (bytes : List UInt8) : Prop where
  encode_eq : parameter.encode = .ok bytes
  wellFormed : parameter.IsWellFormed

variable {parameter other : Parameter} {bytes others : List UInt8}

/-- What is written for a parameter is read back as it exactly if it is well formed. -/
theorem parse_append_of_encode_iff (hencode : parameter.encode = .ok bytes) (rest : List UInt8) :
    parse (bytes ++ rest) = .ok (parameter, rest) ↔ parameter.IsWellFormed := by
  constructor
  · intro hparse
    obtain ⟨front, ⟨content, padding, hwritten, -⟩, -⟩ := parse_eq_ok_iff.mp hparse
    exact isWellFormed_of_written hwritten
  · intro hwellFormed
    exact parse_eq_ok_iff.mpr ⟨bytes, isTlv_of_encode hencode hwellFormed, rfl⟩

namespace IsEncoded

theorem parse_append (hencoded : parameter.IsEncoded bytes) (rest : List UInt8) :
    parse (bytes ++ rest) = .ok (parameter, rest) :=
  (parse_append_of_encode_iff hencoded.encode_eq rest).mpr hencoded.wellFormed

/-- The length field holds the length of the content. -/
theorem exists_content (hencoded : parameter.IsEncoded bytes) :
    ∃ content, parameter.content = .ok content ∧ content.length ≤ 65535 ∧
      bytes.length = paddedLength content.length := by
  obtain ⟨content, hcontent, hfits⟩ := bind_eq_ok_iff.mp hencoded.encode_eq
  obtain ⟨hlength, -⟩ := ite_error_eq_ok_iff.mp hfits
  refine ⟨content, hcontent, Nat.not_lt.mp hlength, ?_⟩
  rw [length_of_encode_eq_padded hencoded.encode_eq, length_of_content hcontent]

theorem dvd_length (hencoded : parameter.IsEncoded bytes) : 8 ∣ bytes.length := by
  rw [length_of_encode_eq_padded hencoded.encode_eq, paddedLength]
  exact Nat.dvd_mul_left 8 _

theorem le_length (hencoded : parameter.IsEncoded bytes) : 8 ≤ bytes.length := by
  rw [length_of_encode_eq_padded hencoded.encode_eq]
  unfold paddedLength
  omega

theorem ne_nil (hencoded : parameter.IsEncoded bytes) : bytes ≠ [] := by
  have hlength := hencoded.le_length
  rintro rfl
  simp at hlength

/-- Behind a form that is the front of another nothing is left: both are read as the same parameter,
    with what follows either form left over. -/
theorem eq_of_isPrefix (hencoded : parameter.IsEncoded bytes) (hothers : other.IsEncoded others)
    (hfront : bytes <+: others) : parameter = other := by
  obtain ⟨rest, rfl⟩ := hfront
  have hlong := hencoded.parse_append rest
  have hshort := hothers.parse_append []
  rw [List.append_nil] at hshort
  exact (Prod.mk.inj (Except.ok.inj (hlong.symm.trans hshort))).1

variable {parameters : List Parameter} {encodings : List (List UInt8)}

/-- A row of forms is what is written for the list of parameters. -/
theorem encodeAll_flatten (hencoded : List.Forall₂ IsEncoded parameters encodings) :
    encodeAll parameters = .ok encodings.flatten := by
  induction hencoded with
  | nil => rfl
  | cons hfirst _ ih =>
    exact bind_eq_ok_iff.mpr ⟨_, hfirst.encode_eq, bind_eq_ok_iff.mpr ⟨_, ih, rfl⟩⟩

/-- Reading goes on behind a row of forms as if they had not been there. -/
theorem parseAll_flatten_append (hencoded : List.Forall₂ IsEncoded parameters encodings)
    (rest : List UInt8) :
    parseAll (encodings.flatten ++ rest) = (parameters ++ ·) <$> parseAll rest := by
  induction hencoded with
  | nil => exact (id_map (parseAll rest)).symm
  | @cons parameter bytes parameters encodings hfirst _ ih =>
    have hne : bytes ++ (encodings.flatten ++ rest) ≠ [] :=
      List.append_ne_nil_of_left_ne_nil hfirst.ne_nil _
    rw [List.flatten_cons, List.append_assoc, parseAll_of_ok hne (hfirst.parse_append _), ih]
    cases parseAll rest <;> rfl

end IsEncoded

/-- The form of a parameter that can be read back has the padded length of its content, at least one
    unit of eight bytes, and is read as that parameter with whatever follows left over. No form is
    the front of that of another parameter, and a row of forms is what is written for the list of
    the parameters and is read as that list. -/
theorem isPrefixCode_encode :
    (∀ parameter bytes, IsEncoded parameter bytes →
      (∃ content, parameter.content = .ok content ∧ content.length ≤ 65535 ∧
        bytes.length = paddedLength content.length) ∧
      8 ∣ bytes.length ∧ 8 ≤ bytes.length ∧
      ∀ rest, parse (bytes ++ rest) = .ok (parameter, rest)) ∧
    (∀ parameter other bytes others, IsEncoded parameter bytes → IsEncoded other others →
      parameter ≠ other → ¬bytes <+: others) ∧
    ∀ parameters encodings, List.Forall₂ IsEncoded parameters encodings →
      encodeAll parameters = .ok encodings.flatten ∧
      parseAll encodings.flatten = .ok parameters := by
  refine ⟨?single, ?pair, ?row⟩
  case single =>
    intro parameter bytes hencoded
    exact ⟨hencoded.exists_content, hencoded.dvd_length, hencoded.le_length, hencoded.parse_append⟩
  case pair =>
    intro parameter other bytes others hencoded hothers hne hfront
    exact hne (hencoded.eq_of_isPrefix hothers hfront)
  case row =>
    intro parameters encodings hencoded
    have hread := IsEncoded.parseAll_flatten_append hencoded []
    have hend : parseAll [] = .ok [] := by rw [parseAll, if_pos rfl]
    rw [List.append_nil, hend] at hread
    refine ⟨IsEncoded.encodeAll_flatten hencoded, hread.trans ?_⟩
    exact congrArg Except.ok (List.append_nil parameters)

/-- The longest content that a length field can tell, and the shortest. -/
theorem isPrefixCode_encode_longest : ∃ short long,
    IsEncoded (echoRequestUnsigned []) short ∧
    IsEncoded (echoRequestUnsigned (List.replicate 65535 0)) long ∧
    short.length = 8 ∧ long.length = 65544 ∧ ¬short <+: long ∧
    parse (long ++ [1]) = .ok (echoRequestUnsigned (List.replicate 65535 0), [1]) ∧
    parseAll [short, long].flatten =
      .ok [echoRequestUnsigned [], echoRequestUnsigned (List.replicate 65535 0)] := by
  have hsize : ¬65535 < (List.replicate 65535 (0 : UInt8)).length := by
    rw [List.length_replicate]
    decide
  have hshort : IsEncoded (echoRequestUnsigned []) _ := ⟨rfl, trivial⟩
  have hlong : IsEncoded (echoRequestUnsigned (List.replicate 65535 0)) _ :=
    ⟨bind_eq_ok_iff.mpr ⟨_, rfl, if_neg hsize⟩, trivial⟩
  have hne : echoRequestUnsigned [] ≠ echoRequestUnsigned (List.replicate 65535 0) := by
    intro heq
    have hcount := congrArg contentSize heq
    rw [contentSize, contentSize, List.length_replicate, List.length_nil] at hcount
    cases hcount
  obtain ⟨hsingle, hpair, hrow⟩ := isPrefixCode_encode
  obtain ⟨⟨content, hcontent, -, hlength⟩, -, -, hparse⟩ := hsingle _ _ hlong
  refine ⟨_, _, hshort, hlong, rfl, ?_, hpair _ _ _ _ hshort hlong hne, hparse [1],
    (hrow _ _ (.cons hshort (.cons hlong .nil))).2⟩
  rw [hlength, ← Except.ok.inj hcontent, List.length_replicate]
  rfl

end DietExchange.Parameter
