import DietExchange.Parameter.Decode

/-!
The layouts of parameter content, told without a reader: which byte strings stand for a parameter.
Reserved bytes may hold anything, so that a parameter may have several.
-/

namespace DietExchange

namespace Parameter

/-- Whether this content stands for the parameter. -/
def Written (content : List UInt8) : Parameter → Prop
  | r1Counter counter => ∃ reserved, reserved.length = 4 ∧
      content = reserved ++ bigEndian 8 counter.toNat
  | puzzle p => content = p.k :: p.lifetime :: (wordBytes p.cookie ++ p.challenge.toList)
  | solution s => ∃ reserved, content =
      s.k :: reserved :: (wordBytes s.cookie ++ s.challenge.toList ++ s.answer.toList)
  | hipCipher offer => (∀ suite ∈ offer.suites, suite.IsCanonical) ∧ content = offer.encode
  | encrypted e => ∃ reserved, reserved.length = 4 ∧ content = reserved ++ e.iv.toList ++ e.data
  | hostId id => id.publicKey.length = id.curve.publicKeyLength ∧ id.domainType < 16 ∧
      id.domainIdentifier.length ≤ maxDomainIdentifierLength ∧ content = id.layout
  | dhGroupList list => (∀ group ∈ list.groups, group.IsCanonical) ∧ content = list.encode
  | encryptedKey data | hitSuiteList data | hipMac3 data | echoResponseUnsigned data
  | echoRequestUnsigned data => content = data

theorem isWellFormed_of_written {parameter : Parameter} {content : List UInt8}
    (hwritten : parameter.Written content) : parameter.IsWellFormed := by
  cases parameter with
  | hostId id => exact ⟨hwritten.1, hwritten.2.1⟩
  | hipCipher offer => exact hwritten.1
  | dhGroupList list => exact hwritten.1
  | _ => trivial

end Parameter

theorem splitWords_eq_iff {bytes : List UInt8} {words : List UInt16} :
    splitWords bytes = (words, []) ↔ bytes = words.flatMap wordBytes := by
  fun_induction splitWords bytes generalizing words with
  | case1 high low rest found left hsplit ih =>
    rw [hsplit] at ih
    have hword : wordBytes (UInt16.ofNat (bigEndianValue [high, low])) = [high, low] := by
      have hvalue : bigEndianValue [high, low] < 65536 :=
        by simpa using bigEndianValue_lt [high, low]
      rw [wordBytes, UInt16.toNat_ofNat_of_lt' hvalue]
      exact bigEndian_bigEndianValue [high, low]
    cases words with
    | nil => simp
    | cons word words =>
      simp only [Prod.mk.injEq, List.cons.injEq, List.flatMap_cons]
      constructor
      · rintro ⟨⟨rfl, hwords⟩, hleft⟩
        rw [hword, ← ih.mp (Prod.ext hwords hleft)]
        rfl
      · intro hbytes
        have hlength : (wordBytes word).length = [high, low].length := length_bigEndian 2 _
        have hsplit : [high, low] ++ rest = wordBytes word ++ words.flatMap wordBytes := hbytes
        obtain ⟨hfront, hback⟩ := List.append_inj hsplit hlength.symm
        obtain ⟨rfl, rfl⟩ := Prod.mk.inj (ih.mpr hback)
        refine ⟨⟨?_, rfl⟩, rfl⟩
        rw [hfront, wordBytes]
        exact (congrArg UInt16.ofNat ((bigEndianValue_bigEndian 2 word.toNat).trans
          (Nat.mod_eq_of_lt word.toNat_lt))).trans UInt16.ofNat_toNat
  | case2 left hshort =>
    cases words with
    | nil => simp
    | cons word words =>
      simp only [Prod.mk.injEq, reduceCtorEq, false_and, false_iff]
      rintro rfl
      exact hshort _ _ _ rfl

namespace CipherOffer

theorem encode_eq (offer : CipherOffer) :
    offer.encode = (offer.suites.map CipherSuite.code).flatMap wordBytes := by
  rw [encode, List.flatMap_map]

/-- An offer is read exactly from the codes of its suites, of which none hides a known one. -/
theorem read_eq_ok_iff {offer : CipherOffer} {bytes : List UInt8} :
    read bytes = .ok (offer, []) ↔
      (∀ suite ∈ offer.suites, suite.IsCanonical) ∧ bytes = offer.encode := by
  rw [encode_eq, ← splitWords_eq_iff]
  unfold read
  constructor
  · intro hread
    dsimp only at hread
    split at hread
    · obtain ⟨rfl, hleft⟩ := Prod.mk.inj (Except.ok.inj hread)
      refine ⟨?_, Prod.ext (CipherSuite.map_code_map_ofCode _).symm hleft⟩
      intro suite hsuite
      obtain ⟨code, -, rfl⟩ := List.mem_map.mp hsuite
      rw [CipherSuite.IsCanonical, CipherSuite.code_ofCode]
    · simp at hread
  · rintro ⟨hcanonical, hsplit⟩
    simp only [hsplit, CipherSuite.map_ofCode_map_code hcanonical]
    rw [dif_pos offer.length_le]

end CipherOffer

namespace DhGroupList

/-- A list is read exactly from the codes of its groups, of which none hides a known one. -/
theorem read_eq_ok_iff {list : DhGroupList} {bytes rest : List UInt8} :
    read bytes = .ok (list, rest) ↔
      ((∀ group ∈ list.groups, group.IsCanonical) ∧ bytes = list.encode) ∧ rest = [] := by
  unfold read encode
  constructor
  · intro hread
    dsimp only at hread
    split at hread
    · obtain ⟨rfl, rfl⟩ := Prod.mk.inj (Except.ok.inj hread)
      refine ⟨⟨?_, (DhGroup.map_code_map_ofCode _).symm⟩, rfl⟩
      intro group hgroup
      obtain ⟨code, -, rfl⟩ := List.mem_map.mp hgroup
      rw [DhGroup.IsCanonical, DhGroup.code_ofCode]
    · simp at hread
  · rintro ⟨⟨hcanonical, rfl⟩, rfl⟩
    simp only [DhGroup.map_ofCode_map_code hcanonical]
    rw [dif_pos list.length_le]

end DhGroupList

namespace Puzzle

theorem read_eq_ok_iff {puzzle : Puzzle} {bytes rest : List UInt8} :
    read bytes = .ok (puzzle, rest) ↔
      bytes = puzzle.k :: puzzle.lifetime ::
        (wordBytes puzzle.cookie ++ puzzle.challenge.toList ++ rest) := by
  unfold read
  simp only [Reader.bind_eq_ok_iff, Reader.byte_eq_ok_iff, Reader.word_eq_ok_iff,
    Reader.block_eq_ok_iff, Reader.pure_eq_ok_iff]
  constructor
  · rintro ⟨k, _, rfl, lifetime, _, rfl, cookie, _, rfl, challenge, _, rfl, rfl, rfl⟩
    simp
  · rintro rfl
    exact ⟨_, _, rfl, _, _, rfl, _, _, List.append_assoc _ _ _, _, _, rfl, rfl, rfl⟩

end Puzzle

namespace Solution

theorem read_eq_ok_iff {solution : Solution} {bytes rest : List UInt8} :
    read bytes = .ok (solution, rest) ↔ ∃ reserved, bytes = solution.k :: reserved ::
      (wordBytes solution.cookie ++ solution.challenge.toList ++ solution.answer.toList ++
        rest) := by
  unfold read
  simp only [Reader.bind_eq_ok_iff, Reader.byte_eq_ok_iff, Reader.word_eq_ok_iff,
    Reader.block_eq_ok_iff, Reader.pure_eq_ok_iff]
  constructor
  · rintro ⟨k, _, rfl, reserved, _, rfl, cookie, _, rfl, challenge, _, rfl, answer, _,
      rfl, rfl, rfl⟩
    exact ⟨reserved, by simp⟩
  · rintro ⟨reserved, rfl⟩
    exact ⟨_, _, rfl, _, _, rfl, _, _,
      by simp only [List.append_assoc], _, _, rfl, _, _, rfl, rfl, rfl⟩

end Solution

namespace Encrypted

theorem read_eq_ok_iff {encrypted : Encrypted} {bytes rest : List UInt8} :
    read bytes = .ok (encrypted, rest) ↔ (∃ reserved, reserved.length = 4 ∧
      bytes = reserved ++ encrypted.iv.toList ++ encrypted.data) ∧ rest = [] := by
  unfold read
  simp only [Reader.bind_eq_ok_iff, Reader.take_eq_ok_iff, Reader.block_eq_ok_iff,
    Reader.rest_eq_ok_iff, Reader.pure_eq_ok_iff]
  constructor
  · rintro ⟨reserved, _, ⟨hlength, rfl⟩, iv, _, rfl, data, _, ⟨rfl, rfl⟩, rfl, rfl⟩
    exact ⟨⟨reserved, hlength, by simp only [List.append_assoc]⟩, rfl⟩
  · rintro ⟨⟨reserved, hlength, rfl⟩, rfl⟩
    exact ⟨_, _, ⟨hlength, List.append_assoc _ _ _⟩, _, _, rfl, _, _, ⟨rfl, rfl⟩, rfl, rfl⟩

end Encrypted

namespace HostId

theorem readKey_eq_ok_iff {part key : List UInt8} {curve : Curve} :
    readKey part = .ok (curve, key) ↔
      key.length = curve.publicKeyLength ∧ part = wordBytes curve.code ++ key := by
  unfold readKey
  rw [bind_eq_ok_iff]
  constructor
  · rintro ⟨⟨code, left⟩, hcode, hrest⟩
    obtain rfl := Reader.word_eq_ok_iff.mp hcode
    dsimp only at hrest
    split at hrest
    · rename_i found hfound
      split at hrest
      · rename_i hlength
        obtain ⟨rfl, rfl⟩ := Prod.mk.inj (pure_eq_ok_iff.mp hrest)
        exact ⟨hlength, by rw [Curve.code_of_ofCode? hfound]⟩
      · exact absurd hrest throw_ne_ok
    · exact absurd hrest throw_ne_ok
  · rintro ⟨hlength, rfl⟩
    refine ⟨(curve.code, key), Reader.word_eq_ok_iff.mpr rfl, ?_⟩
    simp [hlength, pure, Except.pure]

theorem domainField_lt {id : HostId}
    (hlength : id.domainIdentifier.length ≤ maxDomainIdentifierLength) :
    id.domainField < 65536 := by
  unfold domainField
  unfold maxDomainIdentifierLength at hlength
  omega

/-- The type and the length of the domain identifier that one word holds are split by 4096. -/
theorem split_domainField (curve : Curve) (key : List UInt8) (domain : UInt16)
    (identifier : List UInt8) (hlength : identifier.length = domain.toNat % 4096) :
    UInt8.ofNat (domain.toNat / 4096) < 16 ∧ identifier.length ≤ maxDomainIdentifierLength ∧
      domainField ⟨curve, key, UInt8.ofNat (domain.toNat / 4096), identifier⟩ = domain.toNat := by
  have hdomain : domain.toNat < 65536 := domain.toNat_lt
  have htype : (UInt8.ofNat (domain.toNat / 4096)).toNat = domain.toNat / 4096 :=
    UInt8.toNat_ofNat_of_lt' (by simp only [UInt8.size]; omega)
  refine ⟨?_, ?_, ?_⟩
  · rw [UInt8.lt_iff_toNat_lt, htype]
    change domain.toNat / 4096 < 16
    omega
  · change identifier.length ≤ 4095
    omega
  · simp only [domainField, htype]
    omega

theorem publicKeyLength_lt (curve : Curve) : 2 + curve.publicKeyLength < 65536 := by
  cases curve <;> decide

theorem read_eq_ok_iff {id : HostId} {bytes rest : List UInt8} :
    read bytes = .ok (id, rest) ↔ id.publicKey.length = id.curve.publicKeyLength ∧
      id.domainType < 16 ∧ id.domainIdentifier.length ≤ maxDomainIdentifierLength ∧
      bytes = id.layout ++ rest := by
  unfold read
  simp only [Reader.bind_eq_ok_iff, Reader.word_eq_ok_iff]
  constructor
  · rintro ⟨keyLength, _, rfl, domain, _, rfl, algorithm, _, rfl, hread⟩
    split at hread
    · exact absurd hread (by simp [Reader.fail])
    · rename_i halgorithm
      obtain rfl := Decidable.not_not.mp halgorithm
      simp only [Reader.bind_eq_ok_iff, Reader.take_eq_ok_iff, Reader.lift_eq_ok_iff,
        Reader.pure_eq_ok_iff] at hread
      obtain ⟨part, _, ⟨hpart, rfl⟩, identifier, _, ⟨hidentifier, rfl⟩, ⟨curve, key⟩, _,
        ⟨hkey, rfl⟩, rfl, rfl⟩ := hread
      obtain ⟨hlength, rfl⟩ := readKey_eq_ok_iff.mp hkey
      obtain ⟨htype, hbound, hfield⟩ := split_domainField curve key domain identifier hidentifier
      refine ⟨hlength, htype, hbound, ?_⟩
      have hkeyLength : 2 + key.length = keyLength.toNat := by
        rw [← hpart, List.length_append, length_wordBytes]
      simp only [layout, hfield, hkeyLength, wordBytes, List.append_assoc]
  · rintro ⟨hkey, htype, hidentifier, rfl⟩
    have hkeyLength : 2 + id.publicKey.length < 65536 := hkey ▸ publicKeyLength_lt id.curve
    have hfield := domainField_lt hidentifier
    have htype : id.domainType.toNat < 16 := UInt8.lt_iff_toNat_lt.mp htype
    unfold maxDomainIdentifierLength at hidentifier
    have hbytes : id.layout ++ rest = wordBytes (UInt16.ofNat (2 + id.publicKey.length)) ++
        (wordBytes (UInt16.ofNat id.domainField) ++ (wordBytes ecdhAlgorithm ++
          (wordBytes id.curve.code ++ id.publicKey ++ (id.domainIdentifier ++ rest)))) := by
      simp only [layout, wordBytes_ofNat hkeyLength, wordBytes_ofNat hfield, List.append_assoc]
    refine ⟨_, _, hbytes, _, _, rfl, _, _, rfl, ?_⟩
    rw [if_neg (not_not_intro rfl)]
    simp only [Reader.bind_eq_ok_iff, Reader.take_eq_ok_iff, Reader.lift_eq_ok_iff,
      Reader.pure_eq_ok_iff]
    refine ⟨wordBytes id.curve.code ++ id.publicKey, _, ⟨?_, rfl⟩, id.domainIdentifier, _,
      ⟨?_, rfl⟩, (id.curve, id.publicKey), _, ⟨readKey_eq_ok_iff.mpr ⟨hkey, rfl⟩, rfl⟩, ?_, rfl⟩
    · rw [List.length_append, length_wordBytes, UInt16.toNat_ofNat_of_lt' hkeyLength]
    · rw [UInt16.toNat_ofNat_of_lt' hfield, domainField]
      omega
    · have hnibble : id.domainField / 4096 = id.domainType.toNat := by
        unfold domainField
        omega
      rw [UInt16.toNat_ofNat_of_lt' hfield, hnibble, UInt8.ofNat_toNat]

end HostId

namespace Parameter

theorem reader_eq_ok_iff {kind : ParameterKind} {content : List UInt8} {parameter : Parameter} :
    reader kind content = .ok (parameter, []) ↔ parameter.kind = kind ∧
    parameter.Written content := by
  constructor
  · intro hread
    cases kind <;> simp only [reader, Reader.map_eq_ok_iff, Reader.bind_eq_ok_iff,
      Reader.take_eq_ok_iff, Reader.number_eq_ok_iff, Reader.pure_eq_ok_iff, Reader.rest_eq_ok_iff,
      Puzzle.read_eq_ok_iff, Solution.read_eq_ok_iff, CipherOffer.read_eq_ok_iff,
      Encrypted.read_eq_ok_iff, HostId.read_eq_ok_iff, DhGroupList.read_eq_ok_iff, and_true,
      List.append_nil] at hread
    case r1Counter =>
      obtain ⟨reserved, _, ⟨hlength, rfl⟩, counter, _, ⟨hcounter, rfl⟩, rfl, rfl⟩ := hread
      refine ⟨rfl, reserved, hlength, ?_⟩
      rw [UInt64.toNat_ofNat_of_lt' hcounter, List.append_nil]
    all_goals
      obtain ⟨value, hvalue, rfl⟩ := hread
      exact ⟨rfl, hvalue⟩
  · rintro ⟨rfl, hwritten⟩
    cases parameter <;> simp only [kind, reader, Reader.map_eq_ok_iff, Reader.bind_eq_ok_iff,
      Reader.take_eq_ok_iff, Reader.number_eq_ok_iff, Reader.pure_eq_ok_iff, Reader.rest_eq_ok_iff,
      Puzzle.read_eq_ok_iff, Solution.read_eq_ok_iff, CipherOffer.read_eq_ok_iff,
      Encrypted.read_eq_ok_iff, HostId.read_eq_ok_iff, DhGroupList.read_eq_ok_iff, and_true,
      List.append_nil]
    case r1Counter counter =>
      obtain ⟨reserved, hlength, rfl⟩ := hwritten
      exact ⟨reserved, _, ⟨hlength, rfl⟩, counter.toNat, [],
        ⟨counter.toNat_lt, (List.append_nil _).symm⟩, by rw [UInt64.ofNat_toNat], rfl⟩
    all_goals exact ⟨_, hwritten, rfl⟩

/-- The content of a kind is read as a parameter exactly if it stands for it. -/
theorem ofContent_eq_ok_iff {kind : ParameterKind} {content : List UInt8} {parameter : Parameter} :
    ofContent kind content = .ok parameter ↔ parameter.kind = kind ∧ parameter.Written content := by
  rw [← reader_eq_ok_iff]
  unfold ofContent
  split
  · rename_i found hfound
    rw [hfound]
    simp
  · rename_i hnone
    simp only [reduceCtorEq, false_iff]
    exact hnone parameter

/-- What is written for a parameter that can be read back stands for it. -/
theorem written_of_content {parameter : Parameter} {content : List UInt8}
    (hcontent : parameter.content = .ok content) (hwellFormed : parameter.IsWellFormed) :
    parameter.Written content := by
  cases parameter with
  | hostId id =>
    simp only [Parameter.content, HostId.content, ite_error_eq_ok_iff, not_or,
      Nat.not_lt] at hcontent
    obtain ⟨⟨-, hidentifier⟩, hbytes⟩ := hcontent
    exact ⟨hwellFormed.1, hwellFormed.2, hidentifier, (Except.ok.inj hbytes).symm⟩
  | r1Counter counter => exact ⟨bigEndian 4 0, length_bigEndian 4 0, (Except.ok.inj hcontent).symm⟩
  | encrypted e => exact ⟨bigEndian 4 0, length_bigEndian 4 0, (Except.ok.inj hcontent).symm⟩
  | solution s =>
    obtain rfl := Except.ok.inj hcontent
    exact ⟨0, by simp⟩
  | puzzle p =>
    obtain rfl := Except.ok.inj hcontent
    simp [Written]
  | hipCipher offer => exact ⟨hwellFormed, (Except.ok.inj hcontent).symm⟩
  | dhGroupList list => exact ⟨hwellFormed, (Except.ok.inj hcontent).symm⟩
  | _ => exact (Except.ok.inj hcontent).symm

end Parameter

end DietExchange
