import ForgeDeno.NativePayload
import ForgeDeno.Utf8Strict

namespace ForgeDeno.Native

open JsString

/-- The pattern of lone surrogates finds none exactly in well-formed strings; the unit in front
must not make a pair with the first one. -/
theorem loneSurrogate_iff (previous : Option UInt16) (s : JsString)
    (apart : previous.any isHighSurrogate = false ∨ s.head?.any isLowSurrogate = false) :
    loneSurrogate previous s = false ↔ s.WellFormed := by
  induction s using codePoints.induct generalizing previous with
  | case1 => exact iff_of_true rfl wellFormed_nil
  | case2 u =>
    have points : codePoints [u] = u.toNat :: codePoints [] := rfl
    rw [wellFormed_of_points points, isSurrogate_unit, and_iff_left wellFormed_nil, loneSurrogate]
    cases high : isHighSurrogate u with
    | true => simp
    | false =>
      cases low : isLowSurrogate u with
      | false => simp [loneSurrogate]
      | true =>
        have unpaired : previous.any isHighSurrogate = false := by simpa [low] using apart
        simp [unpaired]
  | case3 u v rest pair ih =>
    obtain ⟨high, low⟩ := Bool.and_eq_true_iff.mp pair
    have point : ¬isSurrogate (0x10000 + (u.toNat - 0xD800) * 0x400 + (v.toNat - 0xDC00)) := by
      unfold isSurrogate
      omega
    have points : codePoints (u :: v :: rest)
        = (0x10000 + (u.toNat - 0xD800) * 0x400 + (v.toNat - 0xDC00)) :: codePoints rest := by
      rw [codePoints, if_pos pair]
    have inner := ih (some v) (.inl (not_high_of_low low))
    rw [wellFormed_of_points points, and_iff_right point, ← inner]
    simp [loneSurrogate, high, low, not_low_of_high high, not_high_of_low low]
  | case4 u v rest single ih =>
    have points : codePoints (u :: v :: rest) = u.toNat :: codePoints (v :: rest) := by
      rw [codePoints, if_neg single]
    rw [wellFormed_of_points points, isSurrogate_unit, loneSurrogate]
    cases high : isHighSurrogate u with
    | true =>
      have follower : isLowSurrogate v = false := by simpa [high] using single
      simp [follower]
    | false =>
      cases low : isLowSurrogate u with
      | false => simp [ih (some u) (.inl high)]
      | true =>
        have unpaired : previous.any isHighSurrogate = false := by simpa [low] using apart
        simp [unpaired]

theorem assertUtf8_ok {value field : JsString} : assertUtf8 value field = .ok () ↔ value.WellFormed := by
  rw [← loneSurrogate_iff none value (.inl rfl), assertUtf8]
  cases loneSurrogate none value <;> simp

theorem object_ok {payload : JsonValue} {required optional : List JsString} {input : Members} :
    object payload required optional = .ok input ↔ payload = .object input ∧
      (∀ member ∈ input, member.1 ∈ required ++ optional) ∧ ∀ key ∈ required, absent input key = false := by
  cases payload with
  | object members =>
    rw [object]
    by_cases unknown : (members.any fun member => !(required ++ optional).contains member.1) = true
    · rw [if_pos unknown]
      refine iff_of_false nofun ?_
      rintro ⟨⟨⟩, known, -⟩
      obtain ⟨member, mem, other⟩ := List.any_eq_true.mp unknown
      rw [List.contains_eq_mem] at other
      simp [known member mem] at other
    · rw [if_neg unknown]
      have known : ∀ member ∈ members, member.1 ∈ required ++ optional := by
        intro member mem
        by_contra other
        exact unknown (List.any_eq_true.mpr ⟨member, mem, by simpa using other⟩)
      cases found : required.find? (absent members) with
      | some key =>
        refine iff_of_false nofun ?_
        rintro ⟨⟨⟩, -, present⟩
        have missing := List.find?_some found
        rw [present key (List.mem_of_find?_eq_some found)] at missing
        cases missing
      | none =>
        simp only [Except.ok.injEq, JsonValue.object.injEq]
        constructor
        · rintro rfl
          exact ⟨rfl, known, fun key mem =>
            Bool.eq_false_of_not_eq_true (List.find?_eq_none.mp found key mem)⟩
        · rintro ⟨rfl, -⟩
          rfl
  | null | bool b | number n | string s | array items => exact iff_of_false nofun (fun h => by cases h.1)

end ForgeDeno.Native
