import ForgeDeno.Utf8

namespace JsString

open Option List

theorem isSurrogate_unit (u : UInt16) :
    isSurrogate u.toNat ↔ isHighSurrogate u = true ∨ isLowSurrogate u = true := by
  simp only [isSurrogate, isHighSurrogate, isLowSurrogate, Bool.and_eq_true, decide_eq_true_eq,
    UInt16.le_iff_toNat_le, UInt16.reduceToNat]
  omega

theorem not_low_of_high {u : UInt16} (h : isHighSurrogate u = true) : isLowSurrogate u = false := by
  simp only [isHighSurrogate, isLowSurrogate, Bool.and_eq_true, Bool.and_eq_false_iff,
    decide_eq_true_eq, decide_eq_false_iff_not, UInt16.le_iff_toNat_le, UInt16.reduceToNat] at h ⊢
  omega

theorem not_high_of_low {u : UInt16} (h : isLowSurrogate u = true) : isHighSurrogate u = false := by
  by_contra high
  have low := not_low_of_high (Bool.eq_true_of_not_eq_false high)
  cases h.symm.trans low

theorem wellFormed_nil : WellFormed [] := by
  intro c mem
  cases mem

variable {s : JsString}

theorem wellFormed_of_points {rest : JsString} {c : Nat} (h : s.codePoints = c :: rest.codePoints) :
    s.WellFormed ↔ ¬isSurrogate c ∧ rest.WellFormed := by
  unfold WellFormed
  rw [h, forall_mem_cons]

def Scalar (c : Nat) : Prop := c ≤ 0x10FFFF ∧ ¬isSurrogate c

theorem codePoints_flatMap {points : List Nat} (scalars : ∀ c ∈ points, Scalar c) :
    codePoints (points.flatMap ofCodePoint) = points := by
  induction points with
  | nil => rfl
  | cons c points ih =>
    obtain ⟨valid, scalar⟩ := scalars c mem_cons_self
    rw [flatMap_cons, codePoints_point valid scalar, ih fun d mem => scalars d (mem_cons_of_mem c mem)]

theorem wellFormed_flatMap {points : List Nat} (scalars : ∀ c ∈ points, Scalar c) :
    WellFormed (points.flatMap ofCodePoint) := by
  intro c mem
  rw [codePoints_flatMap scalars] at mem
  exact (scalars c mem).2

theorem utf8Encode_flatMap {points : List Nat} (scalars : ∀ c ∈ points, Scalar c) :
    utf8Encode (points.flatMap ofCodePoint) = points.flatMap utf8OfCodePoint := by
  rw [utf8Encode, codePoints_flatMap scalars]

theorem WellFormed.scalars (h : s.WellFormed) : ∀ c ∈ s.codePoints, Scalar c := by
  intro c mem
  exact ⟨codePoints_le s c mem, h c mem⟩

theorem continuation?_some {b : UInt8} {y : Nat} : continuation? b = some y ↔ b.toNat = 0x80 + y ∧ y < 0x40 := by
  unfold continuation?
  have range : (0x80 ≤ b && b ≤ 0xBF) = true ↔ 0x80 ≤ b.toNat ∧ b.toNat ≤ 0xBF := by
    simp only [Bool.and_eq_true, decide_eq_true_eq, UInt8.le_iff_toNat_le, UInt8.reduceToNat]
  split
  next inside =>
    have bounds := range.mp inside
    rw [some_inj]
    omega
  next outside =>
    refine iff_of_false (by simp) ?_
    rintro ⟨eq, small⟩
    exact outside (range.mpr (by omega))

theorem byte_le {a : UInt8} {low high : UInt8} : (low ≤ a && a ≤ high) = true ↔
    low.toNat ≤ a.toNat ∧ a.toNat ≤ high.toNat := by
  simp only [Bool.and_eq_true, decide_eq_true_eq, UInt8.le_iff_toNat_le]

theorem toUInt8_eq {n : Nat} {a : UInt8} (h : a.toNat = n) : n.toUInt8 = a := by
  rw [← h]
  exact UInt8.ofNat_toNat

section ranges

variable {c : Nat}

theorem utf8OfCodePoint_one (high : c < 0x80) : utf8OfCodePoint c = [c.toUInt8] := by
  rw [utf8OfCodePoint, if_neg (by omega), if_pos high]

theorem utf8OfCodePoint_two (low : 0x80 ≤ c) (high : c < 0x800) : utf8OfCodePoint c
    = [(0xC0 + c / 0x40).toUInt8, (0x80 + c % 0x40).toUInt8] := by
  rw [utf8OfCodePoint, if_neg (by omega), if_neg (by omega), if_pos high]

theorem utf8OfCodePoint_three (low : 0x800 ≤ c) (high : c < 0x10000)
    (scalar : ¬(0xD800 ≤ c ∧ c ≤ 0xDFFF)) : utf8OfCodePoint c =
      [(0xE0 + c / 0x1000).toUInt8, (0x80 + c / 0x40 % 0x40).toUInt8, (0x80 + c % 0x40).toUInt8] := by
  rw [utf8OfCodePoint, if_neg scalar, if_neg (by omega), if_neg (by omega), if_pos high]

theorem utf8OfCodePoint_four (low : 0x10000 ≤ c) : utf8OfCodePoint c =
    [(0xF0 + c / 0x40000).toUInt8, (0x80 + c / 0x1000 % 0x40).toUInt8,
      (0x80 + c / 0x40 % 0x40).toUInt8, (0x80 + c % 0x40).toUInt8] := by
  rw [utf8OfCodePoint, if_neg (by omega), if_neg (by omega), if_neg (by omega), if_neg (by omega)]

end ranges

theorem continued {n : Nat} (h : n < 0x40) : continuation? (0x80 + n).toUInt8 = some n :=
  continuation?_some.mpr ⟨toNat_byte (by omega), h⟩

section forms

variable {a b c d : UInt8} {y z w : Nat} {rest : List UInt8}

theorem utf8DecodeStrict_one (ascii : a < 0x80) :
    utf8DecodeStrict (a :: rest) = (utf8DecodeStrict rest).map (ofCodePoint a.toNat ++ ·) := by
  rw [utf8DecodeStrict.eq_def]
  simp only [if_pos ascii]

theorem utf8DecodeStrict_two (ascii : ¬a < 0x80) (lead : (0xC2 ≤ a && a ≤ 0xDF) = true)
    (second : continuation? b = some y) : utf8DecodeStrict (a :: b :: rest) =
      (utf8DecodeStrict rest).map (ofCodePoint ((a.toNat - 0xC0) * 0x40 + y) ++ ·) := by
  rw [utf8DecodeStrict.eq_def]
  refine (if_neg ascii).trans ((if_pos lead).trans ?_)
  rw [second]
  cases utf8DecodeStrict rest <;> rfl

theorem utf8DecodeStrict_three (ascii : ¬a < 0x80) (pair : ¬(0xC2 ≤ a && a ≤ 0xDF) = true)
    (lead : (0xE0 ≤ a && a ≤ 0xEF) = true) (second : continuation? b = some y)
    (third : continuation? c = some z) {point : Nat} (whole : (a.toNat - 0xE0) * 0x1000 + y * 0x40 + z = point)
    (formed : ¬(point < 0x800 ∨ (0xD800 ≤ point ∧ point ≤ 0xDFFF))) : utf8DecodeStrict (a :: b :: c :: rest) =
      (utf8DecodeStrict rest).map (ofCodePoint point ++ ·) := by
  rw [utf8DecodeStrict.eq_def]
  refine (if_neg ascii).trans ((if_neg pair).trans ((if_pos lead).trans ?_))
  subst whole
  rw [second, third]
  refine (if_neg formed).trans ?_
  cases utf8DecodeStrict rest <;> rfl

theorem utf8DecodeStrict_four (ascii : ¬a < 0x80) (pair : ¬(0xC2 ≤ a && a ≤ 0xDF) = true)
    (triple : ¬(0xE0 ≤ a && a ≤ 0xEF) = true) (lead : (0xF0 ≤ a && a ≤ 0xF4) = true)
    (second : continuation? b = some y) (third : continuation? c = some z)
    (fourth : continuation? d = some w) {point : Nat}
    (whole : (a.toNat - 0xF0) * 0x40000 + y * 0x1000 + z * 0x40 + w = point)
    (formed : ¬(point < 0x10000 ∨ 0x10FFFF < point)) : utf8DecodeStrict (a :: b :: c :: d :: rest) =
      (utf8DecodeStrict rest).map (ofCodePoint point ++ ·) := by
  rw [utf8DecodeStrict.eq_def]
  refine (if_neg ascii).trans ((if_neg pair).trans ((if_neg triple).trans ((if_pos lead).trans ?_)))
  subst whole
  -- one rewrite at a time: a `simp` here sets the kernel to work on the literals
  rw [second, third, fourth, bind_eq_bind, bind_some, bind_eq_bind, bind_some, bind_some]
  refine (if_neg formed).trans ?_
  cases utf8DecodeStrict rest <;> rfl

end forms

theorem utf8DecodeStrict_point {c : Nat} (scalar : Scalar c) (rest : List UInt8) :
    utf8DecodeStrict (utf8OfCodePoint c ++ rest) = (utf8DecodeStrict rest).map (ofCodePoint c ++ ·) := by
  obtain ⟨valid, proper⟩ := scalar
  unfold isSurrogate at proper
  have below {a : UInt8} : a < 0x80 ↔ a.toNat < 128 := UInt8.lt_iff_toNat_lt
  have last := continued (Nat.mod_lt c (by decide : 0 < 0x40))
  by_cases one : c < 0x80
  · have byte : c.toUInt8.toNat = c := toNat_byte (by omega)
    have ascii : c.toUInt8 < 0x80 := below.mpr (by omega)
    rw [utf8OfCodePoint_one one, singleton_append, utf8DecodeStrict_one ascii, byte]
  · by_cases two : c < 0x800
    · have byte : (0xC0 + c / 0x40).toUInt8.toNat = 0xC0 + c / 0x40 := toNat_byte (by omega)
      have ascii : ¬(0xC0 + c / 0x40).toUInt8 < 0x80 := fun h => by
        have low := below.mp h
        omega
      have lead : (0xC2 ≤ (0xC0 + c / 0x40).toUInt8 && (0xC0 + c / 0x40).toUInt8 ≤ 0xDF) = true :=
        byte_le.mpr (by
          simp only [UInt8.reduceToNat, byte]
          omega)
      have whole : (0xC0 + c / 0x40 - 0xC0) * 0x40 + c % 0x40 = c := by omega
      rw [utf8OfCodePoint_two (by omega) two, cons_append, singleton_append,
        utf8DecodeStrict_two ascii lead last, byte, whole]
    · have middle := continued (Nat.mod_lt (c / 0x40) (by decide : 0 < 0x40))
      by_cases three : c < 0x10000
      · have byte : (0xE0 + c / 0x1000).toUInt8.toNat = 0xE0 + c / 0x1000 := toNat_byte (by omega)
        have ascii : ¬(0xE0 + c / 0x1000).toUInt8 < 0x80 := fun h => by
          have low := below.mp h
          omega
        have pair : ¬(0xC2 ≤ (0xE0 + c / 0x1000).toUInt8 && (0xE0 + c / 0x1000).toUInt8 ≤ 0xDF) = true := by
          rw [byte_le, byte]
          simp only [UInt8.reduceToNat]
          omega
        have lead : (0xE0 ≤ (0xE0 + c / 0x1000).toUInt8 && (0xE0 + c / 0x1000).toUInt8 ≤ 0xEF) = true :=
          byte_le.mpr (by
            simp only [UInt8.reduceToNat, byte]
            omega)
        have whole : (0xE0 + c / 0x1000 - 0xE0) * 0x1000 + c / 0x40 % 0x40 * 0x40 + c % 0x40 = c := by
          omega
        have formed : ¬(c < 0x800 ∨ (0xD800 ≤ c ∧ c ≤ 0xDFFF)) := by omega
        rw [← byte] at whole
        rw [utf8OfCodePoint_three (by omega) three proper, cons_append, cons_append,
          singleton_append, utf8DecodeStrict_three ascii pair lead middle last whole formed]
      · have second := continued (Nat.mod_lt (c / 0x1000) (by decide : 0 < 0x40))
        have byte : (0xF0 + c / 0x40000).toUInt8.toNat = 0xF0 + c / 0x40000 := toNat_byte (by omega)
        have ascii : ¬(0xF0 + c / 0x40000).toUInt8 < 0x80 := fun h => by
          have low := below.mp h
          omega
        have pair : ¬(0xC2 ≤ (0xF0 + c / 0x40000).toUInt8 &&
            (0xF0 + c / 0x40000).toUInt8 ≤ 0xDF) = true := by
          rw [byte_le, byte]
          simp only [UInt8.reduceToNat]
          omega
        have triple : ¬(0xE0 ≤ (0xF0 + c / 0x40000).toUInt8 &&
            (0xF0 + c / 0x40000).toUInt8 ≤ 0xEF) = true := by
          rw [byte_le, byte]
          simp only [UInt8.reduceToNat]
          omega
        have lead : (0xF0 ≤ (0xF0 + c / 0x40000).toUInt8 &&
            (0xF0 + c / 0x40000).toUInt8 ≤ 0xF4) = true :=
          byte_le.mpr (by
            simp only [UInt8.reduceToNat, byte]
            omega)
        have whole : (0xF0 + c / 0x40000 - 0xF0) * 0x40000 + c / 0x1000 % 0x40 * 0x1000 +
            c / 0x40 % 0x40 * 0x40 + c % 0x40 = c := by omega
        have formed : ¬(c < 0x10000 ∨ 0x10FFFF < c) := by omega
        rw [← byte] at whole
        rw [utf8OfCodePoint_four (by omega), cons_append, cons_append, cons_append,
          singleton_append,
          utf8DecodeStrict_four ascii pair triple lead second middle last whole formed]

theorem utf8DecodeStrict_points {points : List Nat} (scalars : ∀ c ∈ points, Scalar c) :
    utf8DecodeStrict (points.flatMap utf8OfCodePoint) = some (points.flatMap ofCodePoint) := by
  induction points with
  | nil => exact utf8DecodeStrict.eq_def []
  | cons c points ih =>
    rw [flatMap_cons, utf8DecodeStrict_point (scalars c mem_cons_self),
      ih fun d mem => scalars d (mem_cons_of_mem c mem)]
    rfl

def Encodes (bytes : List UInt8) (s : JsString) : Prop :=
  ∃ points : List Nat, (∀ c ∈ points, Scalar c) ∧ bytes = points.flatMap utf8OfCodePoint ∧
    s = points.flatMap ofCodePoint

variable {bytes : List UInt8}

theorem Encodes.point {c : Nat} (scalar : Scalar c)
    (h : Encodes bytes s) : Encodes (utf8OfCodePoint c ++ bytes) (ofCodePoint c ++ s) := by
  obtain ⟨points, scalars, rfl, rfl⟩ := h
  refine ⟨c :: points, ?_, rfl, rfl⟩
  intro d mem
  rcases mem_cons.mp mem with rfl | mem
  · exact scalar
  · exact scalars d mem

theorem utf8DecodeStrict_some
    (h : utf8DecodeStrict bytes = some s) : Encodes bytes s := by
  induction bytes using utf8DecodeStrict.induct generalizing s with
  | case1 =>
    rw [utf8DecodeStrict.eq_def] at h
    cases h
    exact ⟨[], forall_mem_nil _, rfl, rfl⟩
  | case2 a rest ascii ih =>
    rw [utf8DecodeStrict.eq_def] at h
    simp only [if_pos ascii] at h
    obtain ⟨tail, decoded, rfl⟩ := map_eq_some_iff.mp h
    have low := UInt8.lt_iff_toNat_lt.mp ascii
    simp only [UInt8.reduceToNat] at low
    have scalar : Scalar a.toNat := ⟨by omega, by unfold isSurrogate; omega⟩
    have encoded : utf8OfCodePoint a.toNat = [a] := by
      rw [utf8OfCodePoint_one low, toUInt8_eq rfl]
    have whole := (ih decoded).point scalar
    rw [encoded] at whole
    exact whole
  | case3 a other =>
    rw [utf8DecodeStrict.eq_def] at h
    simp [other] at h
  | case4 a other b rest lead ih =>
    rw [utf8DecodeStrict.eq_def] at h
    simp only [if_neg other, if_pos lead] at h
    obtain ⟨y, second, h⟩ := bind_eq_some_iff.mp h
    obtain ⟨tail, decoded, same⟩ := bind_eq_some_iff.mp h
    obtain ⟨byte, small⟩ := continuation?_some.mp second
    have range := byte_le.mp lead
    simp only [UInt8.reduceToNat] at range
    obtain ⟨c, point⟩ : ∃ c, (a.toNat - 0xC0) * 0x40 + y = c := ⟨_, rfl⟩
    rw [point] at same
    have scalar : Scalar c := ⟨by omega, by unfold isSurrogate; omega⟩
    have encoded : utf8OfCodePoint c = [a, b] := by
      rw [utf8OfCodePoint_two (by omega) (by omega),
        toUInt8_eq (a := a) (by omega), toUInt8_eq (a := b) (by omega)]
    have whole := (ih decoded).point scalar
    rw [encoded] at whole
    cases same
    exact whole
  | case5 a other b pair =>
    rw [utf8DecodeStrict.eq_def] at h
    simp only [if_neg other, if_neg pair] at h
    cases h
  | case6 a other b pair d rest lead ih =>
    rw [utf8DecodeStrict.eq_def] at h
    simp only [if_neg other, if_neg pair, if_pos lead] at h
    obtain ⟨y, second, h⟩ := bind_eq_some_iff.mp h
    obtain ⟨z, third, h⟩ := bind_eq_some_iff.mp h
    split at h
    next => cases h
    next formed =>
      obtain ⟨tail, decoded, same⟩ := bind_eq_some_iff.mp h
      obtain ⟨byte, small⟩ := continuation?_some.mp second
      obtain ⟨byte', small'⟩ := continuation?_some.mp third
      have range := byte_le.mp lead
      simp only [UInt8.reduceToNat] at range
      obtain ⟨c, point⟩ : ∃ c, (a.toNat - 0xE0) * 0x1000 + y * 0x40 + z = c := ⟨_, rfl⟩
      rw [point] at same formed
      have scalar : Scalar c := ⟨by omega, by unfold isSurrogate; omega⟩
      have encoded : utf8OfCodePoint c = [a, b, d] := by
        rw [utf8OfCodePoint_three (by omega) (by omega) (by omega), toUInt8_eq (a := a) (by omega),
          toUInt8_eq (a := b) (by omega), toUInt8_eq (a := d) (by omega)]
      have whole := (ih decoded).point scalar
      rw [encoded] at whole
      cases same
      exact whole
  | case7 a other b pair d triple =>
    rw [utf8DecodeStrict.eq_def] at h
    simp only [if_neg other, if_neg pair, if_neg triple] at h
    cases h
  | case8 a other b pair d triple e rest lead ih =>
    rw [utf8DecodeStrict.eq_def] at h
    simp only [if_neg other, if_neg pair, if_neg triple, if_pos lead] at h
    obtain ⟨y, second, h⟩ := bind_eq_some_iff.mp h
    obtain ⟨z, third, h⟩ := bind_eq_some_iff.mp h
    obtain ⟨w, fourth, h⟩ := bind_eq_some_iff.mp h
    split at h
    next => cases h
    next formed =>
      obtain ⟨tail, decoded, same⟩ := bind_eq_some_iff.mp h
      obtain ⟨byte, small⟩ := continuation?_some.mp second
      obtain ⟨byte', small'⟩ := continuation?_some.mp third
      obtain ⟨byte'', small''⟩ := continuation?_some.mp fourth
      have range := byte_le.mp lead
      simp only [UInt8.reduceToNat] at range
      obtain ⟨c, point⟩ : ∃ c, (a.toNat - 0xF0) * 0x40000 + y * 0x1000 + z * 0x40 + w = c :=
        ⟨_, rfl⟩
      rw [point] at same formed
      have scalar : Scalar c := ⟨by omega, by unfold isSurrogate; omega⟩
      have encoded : utf8OfCodePoint c = [a, b, d, e] := by
        rw [utf8OfCodePoint_four (by omega), toUInt8_eq (a := a) (by omega),
          toUInt8_eq (a := b) (by omega), toUInt8_eq (a := d) (by omega),
          toUInt8_eq (a := e) (by omega)]
      have whole := (ih decoded).point scalar
      rw [encoded] at whole
      cases same
      exact whole
  | case9 a other b pair d triple e rest quad =>
    rw [utf8DecodeStrict.eq_def] at h
    simp only [if_neg other, if_neg pair, if_neg triple, if_neg quad] at h
    cases h

theorem utf8DecodeStrict_iff :
    utf8DecodeStrict bytes = some s ↔ s.WellFormed ∧ bytes = s.utf8Encode := by
  constructor
  · intro h
    obtain ⟨points, scalars, rfl, rfl⟩ := utf8DecodeStrict_some h
    exact ⟨wellFormed_flatMap scalars, (utf8Encode_flatMap scalars).symm⟩
  · rintro ⟨formed, rfl⟩
    rw [utf8Encode, utf8DecodeStrict_points formed.scalars, flatMap_codePoints]

theorem utf8DecodeFatal_iff : utf8DecodeFatal bytes = some s ↔ s.WellFormed ∧
      (bytes = utf8Encode (bom :: s) ∨ bytes = s.utf8Encode ∧ s.head? ≠ some bom) := by
  unfold utf8DecodeFatal
  split
  next rest =>
    rw [utf8DecodeStrict_iff, utf8Encode_bom]
    constructor
    · rintro ⟨formed, rfl⟩
      exact ⟨formed, .inl rfl⟩
    · rintro ⟨formed, same | ⟨same, unmarked⟩⟩
      · exact ⟨formed, by simpa using same⟩
      · exact absurd (head_of_utf8Encode_bom same.symm) unmarked
  next unmarked =>
    rw [utf8DecodeStrict_iff]
    constructor
    · rintro ⟨formed, rfl⟩
      refine ⟨formed, .inr ⟨rfl, ?_⟩⟩
      intro marked
      cases s with
      | nil => cases marked
      | cons u rest =>
        cases marked
        exact unmarked _ (utf8Encode_bom rest)
    · rintro ⟨formed, same | ⟨same, -⟩⟩
      · exact absurd (same.trans (utf8Encode_bom s)) (unmarked _)
      · exact ⟨formed, same⟩

end JsString
