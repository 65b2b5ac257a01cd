import ForgeDeno.Utf8Strict

namespace JsString

open List Option

/-- Every `k` continuation bytes after the bits so far give a scalar value. -/
def Reaches (k point : Nat) : Prop := ∀ t < 0x40 ^ k, Scalar (point * 0x40 ^ k + t)

def Pending.Fits (p : Pending) : Prop :=
  ∃ k, p.needed = k + 1 ∧ ∀ n, p.lower ≤ n → n ≤ p.upper → Reaches k (p.point * 0x40 + n % 0x40)

theorem Reaches.next {k point m : Nat} (h : Reaches (k + 1) point) (small : m < 0x40) :
    Reaches k (point * 0x40 + m) := by
  intro t bound
  have power : 0x40 ^ (k + 1) = 0x40 * 0x40 ^ k := by ring
  have inside : m * 0x40 ^ k + t < 0x40 ^ (k + 1) := by
    have steps : (m + 1) * 0x40 ^ k ≤ 0x40 * 0x40 ^ k := Nat.mul_le_mul_right _ (by omega)
    have split : (m + 1) * 0x40 ^ k = m * 0x40 ^ k + 0x40 ^ k := by ring
    omega
  have whole := h _ inside
  have same : point * 0x40 ^ (k + 1) + (m * 0x40 ^ k + t) = (point * 0x40 + m) * 0x40 ^ k + t := by
    ring
  rw [same] at whole
  exact whole

theorem Pending.Fits.next {p : Pending} (h : p.Fits) (more : p.needed ≠ 1) {n : Nat}
    (low : p.lower ≤ n) (high : n ≤ p.upper) :
    Pending.Fits ⟨p.point * 0x40 + n % 0x40, p.needed - 1, 0x80, 0xBF⟩ := by
  obtain ⟨k, count, reach⟩ := h
  obtain ⟨j, rfl⟩ : ∃ j, k = j + 1 := ⟨k - 1, by omega⟩
  refine ⟨j, ?_, ?_⟩
  · show p.needed - 1 = j + 1
    omega
  · intro m _ _
    exact (reach n low high).next (Nat.mod_lt m (by omega))

theorem Pending.Fits.last {p : Pending} (h : p.Fits) (once : p.needed = 1) {n : Nat}
    (low : p.lower ≤ n) (high : n ≤ p.upper) : Scalar (p.point * 0x40 + n % 0x40) := by
  obtain ⟨k, count, reach⟩ := h
  have none_left : k = 0 := by omega
  subst none_left
  have whole := reach n low high 0 (by omega)
  simpa using whole

theorem ofCodePoint_ne_nil (c : Nat) : ofCodePoint c ≠ [] := by
  unfold ofCodePoint
  split <;> exact cons_ne_nil _ _

theorem scalar_replacement : Scalar 0xFFFD := by
  unfold Scalar isSurrogate
  omega

theorem leadByte_cases (n : Nat) : (∃ c, Scalar c ∧ leadByte n = (ofCodePoint c, none)) ∨
      ∃ p : Pending, p.Fits ∧ leadByte n = ([], some p) := by
  unfold leadByte
  split
  next ascii =>
    refine .inl ⟨n, ?_, rfl⟩
    unfold Scalar isSurrogate
    omega
  next =>
    split
    next two =>
      refine .inr ⟨_, ⟨0, rfl, ?_⟩, rfl⟩
      intro m low high t bound
      simp only [pow_zero] at bound low high ⊢
      unfold Scalar isSurrogate
      omega
    next =>
      split
      next three =>
        refine .inr ⟨_, ⟨1, rfl, ?_⟩, rfl⟩
        intro m low high t bound
        simp only [pow_one] at bound low high ⊢
        unfold Scalar isSurrogate
        split at low <;> split at high <;> omega
      next =>
        split
        next four =>
          refine .inr ⟨_, ⟨2, rfl, ?_⟩, rfl⟩
          intro m low high t bound
          have square : (0x40 : Nat) ^ 2 = 0x1000 := rfl
          simp only [square] at bound low high ⊢
          unfold Scalar isSurrogate
          split at low <;> split at high <;> omega
        next => exact .inl ⟨0xFFFD, scalar_replacement, rfl⟩

theorem decodeFrom_scalars (bytes : List UInt8) : ∀ pending : Option Pending, (∀ p, pending = some p → p.Fits) →
      ∃ points : List Nat, (∀ c ∈ points, Scalar c) ∧ decodeFrom pending bytes = points.flatMap ofCodePoint := by
  induction bytes with
  | nil =>
    intro pending _
    cases pending with
    | none => exact ⟨[], by simp, rfl⟩
    | some p => exact ⟨[0xFFFD], by simp [scalar_replacement], rfl⟩
  | cons b rest ih =>
    have restart : ∃ points : List Nat, (∀ c ∈ points, Scalar c) ∧
        (leadByte b.toNat).1 ++ decodeFrom (leadByte b.toNat).2 rest = points.flatMap ofCodePoint := by
      rcases leadByte_cases b.toNat with ⟨c, scalar, lead⟩ | ⟨p, fits, lead⟩
      · rw [lead]
        obtain ⟨points, scalars, same⟩ := ih none (by simp)
        refine ⟨c :: points, ?_, ?_⟩
        · exact forall_mem_cons.mpr ⟨scalar, scalars⟩
        · rw [flatMap_cons, same]
      · rw [lead]
        exact ih (some p) fun q same => some.inj same ▸ fits
    intro pending fits
    cases pending with
    | none => exact restart
    | some p =>
      have here := fits p rfl
      rw [decodeFrom]
      split
      next range =>
        split
        next once =>
          obtain ⟨points, scalars, same⟩ := ih none (by simp)
          refine ⟨(p.point * 0x40 + b.toNat % 0x40) :: points, ?_, ?_⟩
          · exact forall_mem_cons.mpr ⟨here.last once range.1 range.2, scalars⟩
          · rw [flatMap_cons, same]
        next more =>
          exact ih _ fun q same => some.inj same ▸ here.next more range.1 range.2
      next =>
        obtain ⟨points, scalars, same⟩ := restart
        refine ⟨0xFFFD :: points, ?_, ?_⟩
        · exact forall_mem_cons.mpr ⟨scalar_replacement, scalars⟩
        · rw [flatMap_cons, ← same]
          rfl

theorem decodeFrom_wellFormed (bytes : List UInt8) : (decodeFrom none bytes).WellFormed := by
  obtain ⟨points, scalars, same⟩ := decodeFrom_scalars bytes none (by simp)
  rw [same]
  exact wellFormed_flatMap scalars

theorem utf8Decode_wellFormed (bytes : List UInt8) : (utf8Decode bytes).WellFormed := by
  unfold utf8Decode
  split <;> exact decodeFrom_wellFormed _

theorem decodeFrom_ne_nil (bytes : List UInt8) (pending : Option Pending)
    (h : pending ≠ none ∨ bytes ≠ []) : decodeFrom pending bytes ≠ [] := by
  induction bytes generalizing pending with
  | nil =>
    cases pending with
    | none => simp at h
    | some p => exact cons_ne_nil _ _
  | cons b rest ih =>
    have restart : (leadByte b.toNat).1 ++ decodeFrom (leadByte b.toNat).2 rest ≠ [] := by
      rcases leadByte_cases b.toNat with ⟨c, _, lead⟩ | ⟨p, _, lead⟩
      · rw [lead]
        exact append_ne_nil_of_left_ne_nil (ofCodePoint_ne_nil c) _
      · rw [lead]
        exact ih (some p) (.inl (some_ne_none p))
    cases pending with
    | none => exact restart
    | some p =>
      rw [decodeFrom]
      split
      next =>
        split
        next => exact append_ne_nil_of_left_ne_nil (ofCodePoint_ne_nil _) _
        next => exact ih _ (.inl (some_ne_none _))
      next => exact cons_ne_nil _ _

theorem bom_of_head {c : Nat} {rest : JsString} (scalar : Scalar c)
    (h : (ofCodePoint c ++ rest).head? = some bom) : c = 0xFEFF := by
  obtain ⟨valid, _⟩ := scalar
  unfold ofCodePoint at h
  split at h
  next small =>
    have same : c.toUInt16.toNat = bom.toNat := congrArg UInt16.toNat (some.inj h)
    rw [toNat_unit small] at same
    exact same
  next large =>
    have same : (0xD800 + (c - 0x10000) / 0x400).toUInt16.toNat = bom.toNat :=
      congrArg UInt16.toNat (some.inj h)
    rw [toNat_unit (by omega)] at same
    have mark : bom.toNat = 0xFEFF := rfl
    omega

theorem not_bom_replacement {rest : JsString} : ((0xFFFD : UInt16) :: rest).head? ≠ some bom := by
  intro h
  exact absurd (some.inj h) (by decide)

section marks

variable {p : Pending} {bytes : List UInt8} (h : (decodeFrom (some p) bytes).head? = some bom)

include h

theorem head_of_last (fits : p.Fits) (once : p.needed = 1) : ∃ b rest, bytes = b :: rest ∧
    p.lower ≤ b.toNat ∧ b.toNat ≤ p.upper ∧ p.point * 0x40 + b.toNat % 0x40 = 0xFEFF := by
  cases bytes with
  | nil => exact absurd h not_bom_replacement
  | cons b rest =>
    rw [decodeFrom] at h
    split at h
    next range =>
      exact ⟨b, rest, rfl, range.1, range.2, bom_of_head (fits.last once range.1 range.2) h⟩
    next => exact absurd h not_bom_replacement

theorem head_of_next (more : p.needed ≠ 1) : ∃ b rest, bytes = b :: rest ∧ p.lower ≤ b.toNat ∧ b.toNat ≤ p.upper ∧
      (decodeFrom (some ⟨p.point * 0x40 + b.toNat % 0x40, p.needed - 1, 0x80, 0xBF⟩) rest).head? = some bom := by
  cases bytes with
  | nil => exact absurd h not_bom_replacement
  | cons b rest =>
    rw [decodeFrom] at h
    split at h
    next range =>
      exact ⟨b, rest, rfl, range.1, range.2, h⟩
    next => exact absurd h not_bom_replacement

end marks

theorem leadByte_none {n : Nat} {out : JsString} (h : leadByte n = (out, none)) :
    (n < 0x80 ∧ out = ofCodePoint n) ∨ out = [0xFFFD] := by
  unfold leadByte at h
  split at h
  next ascii => exact .inl ⟨ascii, (congrArg Prod.fst h).symm⟩
  next =>
    split at h
    · exact absurd (congrArg Prod.snd h) (some_ne_none _)
    · split at h
      · exact absurd (congrArg Prod.snd h) (some_ne_none _)
      · split at h
        · exact absurd (congrArg Prod.snd h) (some_ne_none _)
        · exact .inr (congrArg Prod.fst h).symm

theorem leadByte_some {n : Nat} {out : JsString} {p : Pending} (h : leadByte n = (out, some p)) :
    (p.needed = 1 ∧ p.point < 0x20) ∨
      (p.needed = 2 ∧ p.point = n - 0xE0 ∧ 0xE0 ≤ n ∧ 0x80 ≤ p.lower ∧ p.upper ≤ 0xBF) ∨
      (p.needed = 3 ∧ (p.point = 0 → 0x90 ≤ p.lower) ∧ p.upper ≤ 0xBF) := by
  unfold leadByte at h
  split at h
  next => exact absurd (congrArg Prod.snd h).symm (some_ne_none p)
  next =>
    split at h
    next two =>
      have same := some.inj (congrArg Prod.snd h)
      subst same
      refine .inl ⟨rfl, ?_⟩
      show n - 0xC0 < 0x20
      omega
    next =>
      split at h
      next three =>
        have same := some.inj (congrArg Prod.snd h)
        subst same
        refine .inr (.inl ⟨rfl, rfl, three.1, ?_, ?_⟩)
        · show 0x80 ≤ if n = 0xE0 then 0xA0 else 0x80
          split <;> omega
        · show (if n = 0xED then 0x9F else 0xBF) ≤ 0xBF
          split <;> omega
      next =>
        split at h
        next four =>
          have same := some.inj (congrArg Prod.snd h)
          subst same
          refine .inr (.inr ⟨rfl, ?_, ?_⟩)
          · show n - 0xF0 = 0 → 0x90 ≤ if n = 0xF0 then 0x90 else 0x80
            intro zero
            rw [if_pos (by omega)]
          · show (if n = 0xF4 then 0x8F else 0xBF) ≤ 0xBF
            split <;> omega
        next => exact absurd (congrArg Prod.snd h).symm (some_ne_none p)

theorem head_of_decodeFrom {bytes : List UInt8} (h : (decodeFrom none bytes).head? = some bom) :
    ∃ tail, bytes = 0xEF :: 0xBB :: 0xBF :: tail := by
  cases bytes with
  | nil => cases h
  | cons a rest =>
    rw [decodeFrom] at h
    rcases leadByte_cases a.toNat with ⟨c, scalar, lead⟩ | ⟨p, fits, lead⟩
    · rw [lead] at h
      rcases leadByte_none lead with ⟨ascii, unit⟩ | replaced
      · rw [unit] at h
        have mark := bom_of_head ⟨by omega, by unfold isSurrogate; omega⟩ h
        omega
      · rw [replaced] at h
        exact absurd h not_bom_replacement
    · rw [lead, nil_append] at h
      rcases leadByte_some lead with ⟨once, point⟩ | ⟨twice, point, _, lower, upper⟩ |
        ⟨thrice, lower, upper⟩
      · obtain ⟨b, tail, _, _, _, mark⟩ := head_of_last h fits once
        omega
      · obtain ⟨b, rest, rfl, low, high, second⟩ := head_of_next h (by omega)
        obtain ⟨c, tail, rfl, third, limit, mark⟩ :=
          head_of_last second (fits.next (by omega) low high) (show p.needed - 1 = 1 by omega)
        simp only at third limit mark
        have first : a = 0xEF := UInt8.toNat_inj.mp (by simp only [UInt8.reduceToNat]; omega)
        have middle : b = 0xBB := UInt8.toNat_inj.mp (by simp only [UInt8.reduceToNat]; omega)
        have last : c = 0xBF := UInt8.toNat_inj.mp (by simp only [UInt8.reduceToNat]; omega)
        exact ⟨tail, by rw [first, middle, last]⟩
      · obtain ⟨b, rest, rfl, low, high, second⟩ := head_of_next h (by omega)
        have still := fits.next (by omega) low high
        obtain ⟨c, rest, rfl, low2, high2, third⟩ :=
          head_of_next second (show p.needed - 1 ≠ 1 by omega)
        obtain ⟨d, tail, rfl, _, _, mark⟩ :=
          head_of_last third (still.next (show p.needed - 1 ≠ 1 by omega) low2 high2)
            (show p.needed - 1 - 1 = 1 by omega)
        simp only at mark
        omega

def markBytes : List UInt8 := [0xEF, 0xBB, 0xBF]

/-- Bytes that decode to a text which is not empty and does not begin with a mark. -/
def Readable (bytes : List UInt8) : Prop :=
  bytes ≠ [] ∧ bytes ≠ markBytes ∧ ¬(markBytes ++ markBytes) <+: bytes

instance (bytes : List UInt8) : Decidable (Readable bytes) := inferInstanceAs (Decidable (_ ∧ _))

theorem unmarked_decodeFrom {bytes : List UInt8} :
    (decodeFrom none bytes).head? ≠ some bom ↔ ¬markBytes <+: bytes := by
  constructor
  · intro unmarked marked
    obtain ⟨tail, same⟩ := marked
    rw [← same] at unmarked
    exact unmarked rfl
  · intro unmarked marked
    obtain ⟨tail, same⟩ := head_of_decodeFrom marked
    exact unmarked ⟨tail, same.symm⟩

theorem readable_iff (bytes : List UInt8) :
    Readable bytes ↔ utf8Decode bytes ≠ [] ∧ (utf8Decode bytes).head? ≠ some bom := by
  have text : ∀ rest : List UInt8, decodeFrom none rest ≠ [] ↔ rest ≠ [] := by
    intro rest
    constructor
    · intro some_text empty
      rw [empty] at some_text
      exact some_text rfl
    · intro some_bytes
      exact decodeFrom_ne_nil rest none (.inr some_bytes)
  unfold utf8Decode
  split
  next rest =>
    have whole : ∀ tail, 0xEF :: 0xBB :: 0xBF :: tail = markBytes ++ tail := fun _ => rfl
    rw [text, unmarked_decodeFrom, whole]
    unfold Readable
    rw [prefix_append_right_inj]
    constructor
    · intro readable
      refine ⟨?_, readable.2.2⟩
      intro empty
      rw [empty, append_nil] at readable
      exact readable.2.1 rfl
    · intro ⟨some_bytes, unmarked⟩
      refine ⟨cons_ne_nil _ _, ?_, unmarked⟩
      intro only
      exact some_bytes (append_right_eq_self.mp only)
  next other =>
    have unmarked : ¬markBytes <+: bytes := by
      intro ⟨tail, same⟩
      exact other tail same.symm
    rw [text, unmarked_decodeFrom]
    unfold Readable
    constructor
    · intro readable
      exact ⟨readable.1, unmarked⟩
    · intro ⟨some_bytes, _⟩
      refine ⟨some_bytes, ?_, ?_⟩
      · intro only
        exact unmarked (only ▸ prefix_rfl)
      · intro twice
        exact unmarked ((prefix_append markBytes markBytes).trans twice)

end JsString
