import ForgeDeno.Utf8Strict

namespace JsString

open List

/-- A code point's first byte is no continuation byte, its other bytes are. -/
def isContinuation (b : UInt8) : Prop := 0x80 ≤ b.toNat ∧ b.toNat < 0xC0

section bytes

variable {c : Nat}

theorem isContinuation_toUInt8 {n : Nat} (h : n < 0x40) : isContinuation (0x80 + n).toUInt8 := by
  rw [isContinuation, toNat_byte (by omega)]
  omega

theorem utf8OfCodePoint_cases (scalar : Scalar c) : ∃ lead rest, utf8OfCodePoint c = lead :: rest ∧
    ¬isContinuation lead ∧ ∀ b ∈ rest, isContinuation b := by
  obtain ⟨valid, proper⟩ := scalar
  unfold isSurrogate at proper
  have low : isContinuation (0x80 + c % 0x40).toUInt8 :=
    isContinuation_toUInt8 (Nat.mod_lt c (by decide))
  have middle : isContinuation (0x80 + c / 0x40 % 0x40).toUInt8 :=
    isContinuation_toUInt8 (Nat.mod_lt _ (by decide))
  have high : isContinuation (0x80 + c / 0x1000 % 0x40).toUInt8 :=
    isContinuation_toUInt8 (Nat.mod_lt _ (by decide))
  by_cases one : c < 0x80
  · refine ⟨_, _, utf8OfCodePoint_one one, ?_, forall_mem_nil _⟩
    rw [isContinuation, toNat_byte (by omega)]
    omega
  · by_cases two : c < 0x800
    · refine ⟨_, _, utf8OfCodePoint_two (by omega) two, ?_, ?_⟩
      · rw [isContinuation, toNat_byte (by omega)]
        omega
      · exact forall_mem_cons.mpr ⟨low, forall_mem_nil _⟩
    · by_cases three : c < 0x10000
      · refine ⟨_, _, utf8OfCodePoint_three (by omega) three proper, ?_, ?_⟩
        · rw [isContinuation, toNat_byte (by omega)]
          omega
        · exact forall_mem_cons.mpr ⟨middle, forall_mem_cons.mpr ⟨low, forall_mem_nil _⟩⟩
      · refine ⟨_, _, utf8OfCodePoint_four (by omega), ?_, ?_⟩
        · rw [isContinuation, toNat_byte (by omega)]
          omega
        · exact forall_mem_cons.mpr ⟨high, forall_mem_cons.mpr ⟨middle,
            forall_mem_cons.mpr ⟨low, forall_mem_nil _⟩⟩⟩

end bytes

theorem codePoints_append {s t : JsString} (apart : ∀ u, s.getLast? = some u →
    ∀ v, t.head? = some v → (isHighSurrogate u && isLowSurrogate v) = false) :
    codePoints (s ++ t) = codePoints s ++ codePoints t := by
  induction s using codePoints.induct with
  | case1 => rfl
  | case2 u =>
    cases t with
    | nil => rfl
    | cons v t =>
      have single : ¬(isHighSurrogate u && isLowSurrogate v) = true := by
        rw [apart u rfl v rfl]
        exact Bool.false_ne_true
      have step : codePoints (u :: v :: t) = u.toNat :: codePoints (v :: t) := by
        rw [codePoints, if_neg single]
      exact step
  | case3 u v rest pair ih =>
    have rest_apart : ∀ w, rest.getLast? = some w →
        ∀ x, t.head? = some x → (isHighSurrogate w && isLowSurrogate x) = false := by
      intro w last
      refine apart w ?_
      rw [getLast?_cons, getLast?_cons, last]
      rfl
    rw [cons_append, cons_append, codePoints, codePoints, if_pos pair, if_pos pair,
      ih rest_apart, cons_append]
  | case4 u v rest single ih =>
    have rest_apart : ∀ w, (v :: rest).getLast? = some w →
        ∀ x, t.head? = some x → (isHighSurrogate w && isLowSurrogate x) = false := by
      intro w last
      refine apart w ?_
      rw [getLast?_cons, last]
      rfl
    have tail := ih rest_apart
    rw [cons_append] at tail
    rw [cons_append, cons_append, codePoints, codePoints, if_neg single, if_neg single,
      tail, cons_append]

theorem WellFormed.head {t : JsString} (formed : t.WellFormed) {v : UInt16}
    (head : t.head? = some v) : isLowSurrogate v = false := by
  by_contra low
  have low : isLowSurrogate v = true := Bool.eq_true_of_not_eq_false low
  cases t with
  | nil => cases head
  | cons u t =>
    cases head
    have points : codePoints (v :: t) = v.toNat :: codePoints t := codePoints_cons (not_high_of_low low)
    have mem : v.toNat ∈ codePoints (v :: t) := by
      rw [points]
      exact mem_cons_self
    exact formed _ mem ((isSurrogate_unit v).mpr (.inr low))

theorem WellFormed.append {t : JsString} (formed : t.WellFormed) (s : JsString) :
    utf8Encode (s ++ t) = utf8Encode s ++ utf8Encode t := by
  have whole : codePoints (s ++ t) = codePoints s ++ codePoints t := by
    refine codePoints_append ?_
    intro u _ v head
    rw [formed.head head, Bool.and_false]
  rw [utf8Encode, whole, flatMap_append]
  rfl

theorem codePoints_flatMap_append {points : List Nat} (scalars : ∀ c ∈ points, Scalar c)
    (rest : JsString) : codePoints (points.flatMap ofCodePoint ++ rest) = points ++ codePoints rest := by
  induction points with
  | nil => rfl
  | cons c points ih =>
    obtain ⟨valid, scalar⟩ := scalars c mem_cons_self
    rw [flatMap_cons, append_assoc, codePoints_point valid scalar,
      ih fun d mem => scalars d (mem_cons_of_mem c mem), cons_append]

theorem prefix_iff {p s : JsString} (p_formed : p.WellFormed) (s_formed : s.WellFormed) :
    p <+: s ↔ p.utf8Encode <+: s.utf8Encode := by
  constructor
  · rintro ⟨rest, rfl⟩
    refine ⟨utf8Encode rest, ?_⟩
    have points := codePoints_flatMap_append p_formed.scalars rest
    rw [flatMap_codePoints] at points
    rw [utf8Encode, utf8Encode, utf8Encode, points, flatMap_append]
  · rintro ⟨rest, eq⟩
    -- the replacing decoder reads both sides without looking ahead
    refine ⟨decodeFrom none rest, ?_⟩
    have left := decodeFrom_points p.codePoints (codePoints_le p) rest
    have right := decodeFrom_utf8Encode s
    have kept : p.codePoints.flatMap (fun c => ofCodePoint (replacePoint c)) = p :=
      toWellFormed_of_wellFormed p_formed
    rw [kept] at left
    rw [toWellFormed_of_wellFormed s_formed, ← eq] at right
    exact left.symm.trans right

/-- Bytes in front of an encoding that make an encoding are one themselves: the first byte of a
code point is not inside another one. -/
theorem suffix_points {points tail : List Nat} (scalars : ∀ c ∈ points, Scalar c)
    (tail_scalars : ∀ c ∈ tail, Scalar c) {front : List UInt8}
    (eq : front ++ tail.flatMap utf8OfCodePoint = points.flatMap utf8OfCodePoint) :
    ∃ others, others ++ tail = points := by
  induction points generalizing front with
  | nil =>
    cases tail with
    | nil => exact ⟨[], rfl⟩
    | cons c tail =>
      obtain ⟨lead, rest, bytes, -⟩ := utf8OfCodePoint_cases (tail_scalars c mem_cons_self)
      rw [flatMap_cons, bytes] at eq
      exact absurd eq (by simp)
  | cons c points ih =>
    have rest_scalars : ∀ d ∈ points, Scalar d := fun d mem =>
      scalars d (mem_cons_of_mem c mem)
    obtain ⟨lead, rest, bytes, -, continued⟩ := utf8OfCodePoint_cases (scalars c mem_cons_self)
    rw [flatMap_cons] at eq
    rcases append_eq_append_iff.mp eq with ⟨inside, split, shared⟩ | ⟨more, split, shared⟩
    · cases front with
      | nil =>
        rw [nil_append, ← flatMap_cons] at eq
        have same := (utf8DecodeStrict_points tail_scalars).symm.trans
          ((congrArg utf8DecodeStrict eq).trans (utf8DecodeStrict_points scalars))
        have points_eq := congrArg codePoints (Option.some.inj same)
        rw [codePoints_flatMap tail_scalars, codePoints_flatMap scalars] at points_eq
        exact ⟨[], points_eq⟩
      | cons b front =>
        cases inside with
        | nil =>
          rw [← nil_append (tail.flatMap utf8OfCodePoint)] at shared
          obtain ⟨others, whole⟩ := ih rest_scalars shared
          exact ⟨c :: others, congrArg (c :: ·) whole⟩
        | cons d inside =>
          -- the tail would start inside the bytes of this code point
          rw [bytes, cons_append] at split
          have inner := continued d (by
            rw [(List.cons.inj split).2]
            exact mem_append_right _ mem_cons_self)
          cases tail with
          | nil => cases shared
          | cons e tail =>
            obtain ⟨first, others, head, starts, -⟩ :=
              utf8OfCodePoint_cases (tail_scalars e mem_cons_self)
            rw [flatMap_cons, head, cons_append, cons_append] at shared
            rw [(List.cons.inj shared).1] at starts
            exact absurd inner starts
    · obtain ⟨others, whole⟩ := ih rest_scalars shared.symm
      exact ⟨c :: others, congrArg (c :: ·) whole⟩

theorem suffix_iff {t s : JsString} (t_formed : t.WellFormed) (s_formed : s.WellFormed) :
    t <:+ s ↔ t.utf8Encode <:+ s.utf8Encode := by
  constructor
  · rintro ⟨front, rfl⟩
    exact ⟨utf8Encode front, (t_formed.append front).symm⟩
  · rintro ⟨front, eq⟩
    obtain ⟨others, whole⟩ := suffix_points s_formed.scalars t_formed.scalars eq
    refine ⟨others.flatMap ofCodePoint, ?_⟩
    rw [← flatMap_codePoints s, ← whole, flatMap_append, flatMap_codePoints]

end JsString
