import ForgeDeno.DerElements
import ForgeDeno.Base64Text
import ForgeDeno.ExceptRules
import Mathlib.Data.Nat.Bitwise

namespace ForgeDeno

open Option List Der

variable {value length offset : Nat}

theorem lengthBytes_step (h : value ≠ 0) :
    lengthBytes value = lengthBytes (value % 2 ^ 32 / 256) ++ [(value % 256).toUInt8] := by
  rw [lengthBytes, if_neg h]

theorem octets_step {n : Nat} (h : n ≠ 0) : Der.octets n = Der.octets (n / 256) ++ [(n % 256).toUInt8] := by
  have digits := Nat.digits_def' (by omega : 1 < 256) (Nat.pos_of_ne_zero h)
  rw [Der.octets, digits, reverse_cons, map_append]
  rfl

theorem lengthBytes_eq (short : value < 2 ^ 32) : lengthBytes value = Der.octets value := by
  induction value using Nat.strong_induction_on with
  | _ value ih =>
    by_cases zero : value = 0
    · rw [zero, lengthBytes, if_pos rfl]
      rfl
    · rw [lengthBytes_step zero, octets_step zero, Nat.mod_eq_of_lt short, ih (value / 256) (by omega) (by omega)]

theorem derLength_eq (short : length < 2 ^ 32) : derLength length = Der.lengthOctets length := by
  unfold derLength lengthOctets
  rw [lengthBytes_eq short]

variable {content bytes : Bytes}

theorem tagged_eq (tag : UInt8) (short : content.length < 2 ^ 32) :
    tagged tag content = Der.element tag content := by
  rw [tagged, derLength_eq short]
  rfl

def wrapped (length : Nat) : Int := Int.bmod length (2 ^ 32)

section arithmetic

theorem toNat_and_low (b : UInt8) : (b &&& 0x7f).toNat = b.toNat % 128 := by
  have mask : (0x7f : UInt8).toNat = 2 ^ 7 - 1 := rfl
  rw [UInt8.toNat_and, mask, Nat.and_two_pow_sub_one_eq_mod]

theorem and_high_ne_zero (b : UInt8) : b &&& 0x80 ≠ 0 ↔ ¬b.toNat < 128 := by
  have mask : (0x80 : UInt8).toNat = 2 ^ 7 := rfl
  have byte : b.toNat < 256 := b.toNat_lt
  have bit : (b &&& 0x80).toNat = (b.toNat.testBit 7).toNat * 2 ^ 7 := by
    rw [UInt8.toNat_and, mask, Nat.and_two_pow]
  have zero : (0 : UInt8).toNat = 0 := rfl
  rw [ne_eq, ← UInt8.toNat_inj, bit, zero, Nat.testBit_eq_decide_div_mod_eq]
  by_cases h : b.toNat < 128
  · have clear : ¬b.toNat / 2 ^ 7 % 2 = 1 := by omega
    rw [decide_eq_false clear]
    exact iff_of_false (fun g => g rfl) (fun g => g h)
  · have set : b.toNat / 2 ^ 7 % 2 = 1 := by omega
    rw [decide_eq_true set]
    exact iff_of_true (by decide) h

theorem shiftIn_eq (bytes : Bytes) : shiftIn bytes = wrapped (Der.ofOctets bytes) := by
  induction bytes using reverseRecOn with
  | nil => rfl
  | append_singleton bytes b ih =>
    have left : shiftIn (bytes ++ [b]) = Int.bmod (shiftIn bytes * 256 + b.toNat) (2 ^ 32) := by
      simp [shiftIn, foldl_append]
    have right : ((ofOctets (bytes ++ [b]) : Nat) : Int)
        = (ofOctets bytes : Int) * 256 + b.toNat := by
      simp [ofOctets, foldl_append]
    rw [left, ih]
    unfold wrapped
    rw [right]
    generalize 2 ^ 32 = m
    rw [← Int.bmod_add_bmod, Int.bmod_mul_bmod, Int.bmod_add_bmod]

end arithmetic

theorem wrapped_low (h : length < 2 ^ 31) : wrapped length = length :=
  Int.bmod_eq_of_le (by omega) (by omega)

theorem wrapped_high (low : 2 ^ 31 ≤ length) (high : length < 2 ^ 32) :
    wrapped length = (length : Int) - 2 ^ 32 := by
  have pos : 0 < 2 ^ 32 := by decide
  apply (Int.bmod_eq_iff pos).mpr
  exact ⟨by omega, by omega, ⟨-1, by omega⟩⟩

theorem exceeds_some (i : Int) (bound : Nat) : exceeds (some i) bound = decide ((bound : Int) < i) :=
  rfl

theorem advance_some (i n : Int) : advance (some i) n = some (i + n) := rfl

theorem byteAt_nat (bytes : Bytes) (i : Nat) : byteAt bytes (some (i : Int)) = bytes[i]? := by
  rw [byteAt, bind_some, if_pos (Int.natCast_nonneg i), Int.toNat_natCast]

theorem readElement_eq (bytes : Bytes) (offset : Nat) :
    readElement bytes (some offset) = (Der.readHeader bytes offset).bind fun header =>
      if offset + 6 < header.start ∨ (bytes.length : Int) < header.start + wrapped header.length then none
      else some ⟨bytes[offset]?, some header.start, some (header.start + wrapped header.length)⟩ := by
  have next : ((offset : Int) + 1) = ((offset + 1 : Nat) : Int) := rfl
  by_cases room : offset + 2 ≤ bytes.length
  · have inside : offset + 1 < bytes.length := by omega
    have first : bytes[offset + 1]? = some bytes[offset + 1] := getElem?_eq_getElem inside
    have present : ¬(bytes.length : Int) < (offset : Int) + 2 := by omega
    simp only [readElement, exceeds_some, advance_some, byteAt_nat, next, first, present,
      decide_false, Bool.false_eq_true, if_false, readHeader, bind_some]
    generalize bytes[offset + 1] = b
    by_cases short : b.toNat < 128
    · have direct : ¬b &&& 0x80 ≠ 0 := fun h => (and_high_ne_zero b).mp h short
      have plain : wrapped b.toNat = b.toNat := wrapped_low (by omega)
      have few : ¬offset + 6 < offset + 2 := by omega
      simp only [if_neg direct, if_pos short, bind_some, plain, few, false_or, decide_eq_true_eq]
      push_cast
      rfl
    · have indirect : b &&& 0x80 ≠ 0 := (and_high_ne_zero b).mpr short
      have low : b.toNat % 128 = b.toNat - 128 := by
        have byte : b.toNat < 256 := b.toNat_lt
        omega
      have behind : ((offset : Int) + 2).toNat = offset + 2 := by omega
      simp only [if_pos indirect, if_neg short, toNat_and_low, low, behind, shiftIn_eq]
      generalize b.toNat - 128 = count
      by_cases bad : count = 0 ∨ 4 < count ∨ bytes.length < offset + 2 + count
      · have bad' : count = 0 ∨ 4 < count ∨
            decide ((bytes.length : Int) < (offset : Int) + 2 + count) = true := by
          simp only [decide_eq_true_eq]
          omega
        rw [if_pos bad']
        by_cases header : count = 0 ∨ bytes.length < offset + 2 + count
        · rw [if_pos header, bind_none]
        · rw [if_neg header, bind_some, if_pos (.inl (by simp only; omega))]
      · have good : ¬(count = 0 ∨ 4 < count ∨
            decide ((bytes.length : Int) < (offset : Int) + 2 + count) = true) := by
          simp only [decide_eq_true_eq]
          omega
        have header : ¬(count = 0 ∨ bytes.length < offset + 2 + count) := by omega
        have few : ¬offset + 6 < offset + 2 + count := by omega
        rw [if_neg good, if_neg header, bind_some]
        simp only [few, false_or, decide_eq_true_eq]
        push_cast
        rfl
  · have absent : (bytes.length : Int) < (offset : Int) + 2 := by omega
    have none : bytes[offset + 1]? = none := getElem?_eq_none (by omega)
    simp only [readElement, exceeds_some, advance_some, absent, decide_true, if_true,
      readHeader, none, bind_none]

theorem wrapped_le (h : length < 2 ^ 32) : wrapped length ≤ length := by
  by_cases low : length < 2 ^ 31
  · rw [wrapped_low low]
  · rw [wrapped_high (by omega) h]
    omega

theorem readElement_at {tag : UInt8}
    (stands : Der.At bytes offset (Der.element tag content)) (short : content.length < 2 ^ 32) :
    readElement bytes (some offset) = some ⟨some tag,
      some ((offset + Der.headerLength content.length : Nat) : Int),
      some ((offset + Der.headerLength content.length : Nat) + wrapped content.length)⟩ := by
  have header := stands.readHeader (by omega)
  have inside := stands.end_le (cons_ne_nil _ _)
  have six := headerLength_le_six.mpr short
  have le := wrapped_le short
  rw [element_length] at inside
  rw [readElement_eq, header, bind_some, if_neg (by simp only; omega), stands.first]

theorem readElement_long {tag : UInt8}
    (stands : Der.At bytes offset (Der.element tag content)) (fits : content.length < 256 ^ 126)
    (long : 2 ^ 32 ≤ content.length) : readElement bytes (some offset) = none := by
  have header := stands.readHeader fits
  have six := headerLength_le_six (n := content.length)
  rw [readElement_eq, header, bind_some, if_pos (.inl (by simp only; omega))]

def NegativeLength (bytes : Bytes) (offset : Nat) : Prop :=
  bytes[offset + 1]? = some 0x84 ∧ offset + 6 ≤ bytes.length ∧ 0x80 ≤ (bytes.getD (offset + 2) 0).toNat

instance decidableNegativeLength (bytes : Bytes) (offset : Nat) :
    Decidable (NegativeLength bytes offset) := inferInstanceAs (Decidable (_ ∧ _ ∧ _))

theorem length_of_count {header : Der.Header}
    (read : Der.readHeader bytes offset = some header) (few : header.start ≤ offset + 6) :
    header.length < 2 ^ 32 ∧ (2 ^ 31 ≤ header.length ↔ NegativeLength bytes offset) := by
  obtain ⟨first, there, ⟨short, rfl⟩ | ⟨long, room, rfl⟩⟩ := readHeader_cases read
  · refine ⟨by simp only; omega, iff_of_false (by simp only; omega) ?_⟩
    rintro ⟨mark, -⟩
    cases there.symm.trans mark
    revert short
    decide
  · simp only at few ⊢
    obtain ⟨octets, eq⟩ : ∃ octets, (bytes.drop (offset + 2)).take (first.toNat - 128) = octets :=
      ⟨_, rfl⟩
    have count : octets.length = first.toNat - 128 := by
      rw [← eq, length_take, length_drop]
      omega
    have bound := ofOctets_lt octets
    rw [eq]
    by_cases four : octets.length = 4
    · have mark : first = 0x84 := UInt8.toNat_inj.mp (by omega : first.toNat = 0x84)
      cases octets with
      | nil => cases four
      | cons b rest =>
        have high : bytes.getD (offset + 2) 0 = b := by
          have head := congrArg (fun l : Bytes => l[0]?) eq
          have inside : 0 < first.toNat - 128 := by omega
          simp only [getElem?_cons_zero] at head
          rw [getElem?_take_of_lt inside, getElem?_drop] at head
          rw [getD_eq_getElem?_getD, head, getD_some]
        have three : rest.length = 3 := Nat.succ.inj four
        have low := ofOctets_lt rest
        rw [three] at low
        rw [ofOctets_cons, three, NegativeLength, high, there, mark]
        have byte : b.toNat < 256 := b.toNat_lt
        refine ⟨by omega, ⟨fun h => ⟨rfl, by omega, by omega⟩, fun h => ?_⟩⟩
        have top := h.2.2
        omega
    · have small : (256 : Nat) ^ octets.length ≤ 256 ^ 3 :=
        Nat.pow_le_pow_right (by decide) (by omega)
      refine ⟨by omega, iff_of_false (by omega) ?_⟩
      rintro ⟨mark, -⟩
      cases there.symm.trans mark
      exact four (by rw [count]; rfl)

/-- An element that a reader may return: at most four length octets, its content in the input. -/
structure Standing (bytes : Bytes) (offset : Nat) (header : Der.Header) : Prop where
  read : Der.readHeader bytes offset = some header
  few : header.start ≤ offset + 6
  inside : header.finish ≤ bytes.length

def Standing.element (bytes : Bytes) (offset : Nat) (header : Der.Header) : DerElement :=
  ⟨bytes[offset]?, some (header.start : Int), some (header.finish : Int)⟩

theorem readElement_some (plain : ¬NegativeLength bytes offset)
    {element : DerElement} : readElement bytes (some offset) = some element ↔
      ∃ header, Standing bytes offset header ∧ element = Standing.element bytes offset header := by
  rw [readElement_eq]
  constructor
  · intro h
    obtain ⟨header, read, eq⟩ := bind_eq_some_iff.mp h
    by_cases bad : offset + 6 < header.start ∨ (bytes.length : Int) < header.start + wrapped header.length
    · rw [if_pos bad] at eq
      cases eq
    · rw [if_neg bad] at eq
      have few : header.start ≤ offset + 6 := by omega
      obtain ⟨-, high⟩ := length_of_count read few
      have low : header.length < 2 ^ 31 := by
        by_contra large
        exact plain (high.mp (by omega))
      rw [wrapped_low low] at eq bad
      refine ⟨header, ⟨read, few, ?_⟩, (some.inj eq).symm⟩
      rw [Der.Header.finish]
      omega
  · rintro ⟨header, standing, rfl⟩
    obtain ⟨-, high⟩ := length_of_count standing.read standing.few
    have low : header.length < 2 ^ 31 := by
      by_contra large
      exact plain (high.mp (by omega))
    have inside := standing.inside
    have few := standing.few
    rw [Der.Header.finish] at inside
    rw [standing.read, bind_some, wrapped_low low, if_neg (by omega)]
    rfl

theorem readElement_negative (negative : NegativeLength bytes offset) :
    ∃ finish : Int, finish < offset + 6 ∧ readElement bytes (some offset)
        = some ⟨bytes[offset]?, some ((offset + 6 : Nat) : Int), some finish⟩ := by
  obtain ⟨mark, room, -⟩ := id negative
  have mask : ¬(0x84 : UInt8).toNat < 128 := by decide
  have four : (0x84 : UInt8).toNat - 128 = 4 := rfl
  have present : ¬(4 = 0 ∨ bytes.length < offset + 2 + 4) := by omega
  obtain ⟨length, read⟩ : ∃ length, readHeader bytes offset = some ⟨offset + 6, length⟩ := by
    refine ⟨ofOctets ((bytes.drop (offset + 2)).take 4), ?_⟩
    simp only [readHeader, mark, bind_some, if_neg mask, four, if_neg present]
  obtain ⟨bound, high⟩ := length_of_count read (Nat.le_refl _)
  have wraps := wrapped_high (high.mpr negative) bound
  simp only at wraps bound
  refine ⟨((offset + 6 : Nat) : Int) + ((length : Int) - 2 ^ 32), ?_, ?_⟩
  · push_cast
    omega
  · have accepted : ¬(offset + 6 < offset + 6 ∨ (bytes.length : Int)
        < ((offset + 6 : Nat) : Int) + ((length : Int) - 2 ^ 32)) := by omega
    rw [readElement_eq, read, bind_some]
    simp only [wraps, if_neg accepted]

def ElementBounded (bytes : Bytes) (offset : Nat) : Prop :=
  ∀ element, readElement bytes (some offset) = some element →
    ∃ start finish : Nat, element.start = some (start : Int) ∧ element.finish = some (finish : Int) ∧
      offset + 2 ≤ start ∧ start ≤ finish ∧ finish ≤ bytes.length ∧
      Der.readHeader bytes offset = some ⟨start, finish - start⟩

theorem elementBounded_iff (bytes : Bytes) (offset : Nat) :
    ElementBounded bytes offset ↔ ¬NegativeLength bytes offset := by
  constructor
  · intro bounded negative
    obtain ⟨early, before, read⟩ := readElement_negative negative
    obtain ⟨start, finish, hstart, hfinish, -, order, -⟩ := bounded _ read
    have first := some.inj hstart
    have last := some.inj hfinish
    omega
  · intro plain element h
    obtain ⟨header, standing, rfl⟩ := (readElement_some plain).mp h
    refine ⟨header.start, header.finish, rfl, rfl, (readHeader_start standing.read).1,
      Nat.le_add_right _ _, standing.inside, ?_⟩
    rw [Der.Header.finish, Nat.add_sub_cancel_left]
    exact standing.read

end ForgeDeno
