import DietExchange.Parameter.Layout

namespace DietExchange.Parameter

/-- Whether these bytes are a wire form of the parameter. -/
def IsTlv (parameter : Parameter) (bytes : List UInt8) : Prop :=
  ∃ content padding, parameter.Written content ∧ content.length < 65536 ∧
    padding.length = paddedLength content.length - 4 - content.length ∧
    bytes = wordBytes parameter.kind.code ++ bigEndian 2 content.length ++ content ++ padding

/-- Whether these bytes are wire forms of the parameters, one after the other. -/
inductive AreTlvs : List Parameter → List UInt8 → Prop where
  | nil : AreTlvs [] []
  | cons {parameter : Parameter} {parameters : List Parameter} {front back : List UInt8} :
    parameter.IsTlv front → AreTlvs parameters back →
    AreTlvs (parameter :: parameters) (front ++ back)

theorem add_le_paddedLength (length : Nat) : 4 + length ≤ paddedLength length := by
  unfold paddedLength
  omega

theorem decode_eq_ok_iff {code : UInt16} {content : List UInt8} {parameter : Parameter} :
    decode code content = .ok parameter ↔ parameter.kind.code = code ∧
    parameter.Written content := by
  unfold decode
  split
  · rename_i hunknown
    simp only [reduceCtorEq, false_iff, not_and]
    rintro rfl
    simp at hunknown
  · rename_i kind hkind
    obtain rfl := ParameterKind.ofCode?_eq_some_iff.mp hkind
    rw [ofContent_eq_ok_iff]
    refine and_congr_left fun _ => ⟨congrArg _, fun hcode => ?_⟩
    exact Option.some.inj ((ParameterKind.ofCode?_code parameter.kind).symm.trans (hcode ▸ hkind))

/-- A parameter is read off the front of exactly the byte strings that start with one of its wire
    forms. -/
theorem parse_eq_ok_iff {bytes rest : List UInt8} {parameter : Parameter} :
    parse bytes = .ok (parameter, rest) ↔ ∃ front, parameter.IsTlv front ∧
    bytes = front ++ rest := by
  unfold parse IsTlv
  constructor
  · intro hparse
    split at hparse
    · simp at hparse
    · rename_i code content left htlv
      obtain ⟨found, hfound, hpure⟩ := bind_eq_ok_iff.mp hparse
      obtain ⟨rfl, rfl⟩ := Prod.mk.inj (pure_eq_ok_iff.mp hpure)
      obtain ⟨hlength, padding, hpadding, rfl⟩ := readTlv_eq_ok_iff.mp htlv
      obtain ⟨rfl, hwritten⟩ := decode_eq_ok_iff.mp hfound
      exact ⟨_, ⟨content, padding, hwritten, hlength, hpadding, rfl⟩, rfl⟩
  · rintro ⟨_, ⟨content, padding, hwritten, hlength, hpadding, rfl⟩, rfl⟩
    rw [readTlv_eq_ok_iff.mpr ⟨hlength, padding, hpadding, rfl⟩]
    exact bind_eq_ok_iff.mpr ⟨parameter, decode_eq_ok_iff.mpr ⟨rfl, hwritten⟩, rfl⟩

/-- A byte string is read as a list of parameters exactly if it is a sequence of their wire
    forms. -/
theorem parseAll_eq_ok_iff {bytes : List UInt8} {parameters : List Parameter} :
    parseAll bytes = .ok parameters ↔ AreTlvs parameters bytes := by
  constructor
  · intro hparse
    fun_induction parseAll bytes generalizing parameters with
    | case1 =>
      obtain rfl := Except.ok.inj hparse
      exact .nil
    | case2 => simp at hparse
    | case3 bytes hne parameter rest hfirst ih =>
      cases hrest : parseAll rest with
      | error error =>
        rw [hrest] at hparse
        exact absurd hparse (by simp [Functor.map, Except.map])
      | ok others =>
        rw [hrest] at hparse
        obtain rfl := Except.ok.inj hparse
        obtain ⟨front, htlv, rfl⟩ := parse_eq_ok_iff.mp hfirst
        exact .cons htlv (ih hrest)
  · intro htlvs
    induction htlvs with
    | nil => rw [parseAll, if_pos rfl]
    | @cons parameter others front back htlv hrest ih =>
      have hne : front ++ back ≠ [] := by
        obtain ⟨content, padding, -, -, -, rfl⟩ := htlv
        simp [wordBytes, bigEndian]
      rw [parseAll, if_neg hne]
      have hfirst : parse (front ++ back) = .ok (parameter, back) :=
        parse_eq_ok_iff.mpr ⟨front, htlv, rfl⟩
      split
      · rename_i error herror
        rw [herror] at hfirst
        simp at hfirst
      · rename_i found left hfound
        obtain ⟨rfl, rfl⟩ := Prod.mk.inj (Except.ok.inj (hfound.symm.trans hfirst))
        rw [ih]
        rfl

/-- What is written for a parameter that can be read back is one of its wire forms. -/
theorem isTlv_of_encode {parameter : Parameter} {bytes : List UInt8}
    (hencode : parameter.encode = .ok bytes) (hwellFormed : parameter.IsWellFormed) :
    parameter.IsTlv bytes := by
  obtain ⟨content, hcontent, hfits⟩ := bind_eq_ok_iff.mp hencode
  obtain ⟨hlength, hbytes⟩ := ite_error_eq_ok_iff.mp hfits
  exact ⟨content, _, written_of_content hcontent hwellFormed, by omega, List.length_replicate,
    (Except.ok.inj hbytes).symm⟩

/-- What is written for parameters that can be read back is a sequence of their wire forms. -/
theorem areTlvs_of_encodeAll {parameters : List Parameter} {bytes : List UInt8}
    (hencode : encodeAll parameters = .ok bytes)
    (hwellFormed : ∀ parameter ∈ parameters, parameter.IsWellFormed) :
      AreTlvs parameters bytes := by
  induction parameters generalizing bytes with
  | nil =>
    obtain rfl := Except.ok.inj hencode
    exact .nil
  | cons parameter rest ih =>
    obtain ⟨first, hfirst, hrest⟩ := bind_eq_ok_iff.mp hencode
    obtain ⟨others, hothers, hbytes⟩ := bind_eq_ok_iff.mp hrest
    obtain rfl := pure_eq_ok_iff.mp hbytes
    exact .cons (isTlv_of_encode hfirst (hwellFormed _ List.mem_cons_self))
      (ih hothers fun other hother => hwellFormed other (List.mem_cons_of_mem _ hother))

end DietExchange.Parameter
