import Mathlib.Data.Nat.Digits.Lemmas
import Mathlib.Data.List.Infix

namespace Der

open List

def ofOctets (octets : List UInt8) : Nat := octets.foldl (fun n b => n * 256 + b.toNat) 0

def octets (n : Nat) : List UInt8 := (Nat.digits 256 n).reverse.map Nat.toUInt8

def lengthOctets (n : Nat) : List UInt8 :=
  if n < 128 then [n.toUInt8] else (128 + (octets n).length).toUInt8 :: octets n

def element (tag : UInt8) (content : List UInt8) : List UInt8 :=
  tag :: lengthOctets content.length ++ content

def headerLength (length : Nat) : Nat := (lengthOctets length).length + 1

theorem ofOctets_eq_ofDigits (l : List UInt8) : ofOctets l = Nat.ofDigits 256 (l.map UInt8.toNat).reverse := by
  induction l using reverseRecOn with
  | nil => rfl
  | append_singleton l b ih =>
    have step : ofOctets (l ++ [b]) = ofOctets l * 256 + b.toNat := by
      simp [ofOctets, foldl_append]
    simp only [step, ih, map_append, map_cons, map_nil, reverse_append,
      reverse_cons, reverse_nil, nil_append, singleton_append,
      Nat.ofDigits_cons]
    omega

theorem ofOctets_octets (n : Nat) : ofOctets (octets n) = n := by
  have back : ((octets n).map UInt8.toNat).reverse = Nat.digits 256 n := by
    have digit : ∀ d ∈ Nat.digits 256 n, (UInt8.toNat ∘ Nat.toUInt8) d = id d := by
      intro d mem
      have lt := Nat.digits_lt_base (by decide : 1 < 256) mem
      simp [Nat.toUInt8, Nat.mod_eq_of_lt lt]
    rw [octets, map_map, ← map_reverse, reverse_reverse, map_congr_left digit, map_id]
  rw [ofOctets_eq_ofDigits, back, Nat.ofDigits_digits]

theorem ofOctets_cons (b : UInt8) (l : List UInt8) :
    ofOctets (b :: l) = b.toNat * 256 ^ l.length + ofOctets l := by
  simp only [ofOctets_eq_ofDigits, map_cons, reverse_cons, Nat.ofDigits_append,
    Nat.ofDigits_singleton, length_reverse, length_map]
  rw [Nat.mul_comm, Nat.add_comm]

theorem ofOctets_lt (l : List UInt8) : ofOctets l < 256 ^ l.length := by
  induction l with
  | nil => decide
  | cons b l ih =>
    have byte : b.toNat < 256 := b.toNat_lt
    have room : (b.toNat + 1) * 256 ^ l.length ≤ 256 * 256 ^ l.length :=
      Nat.mul_le_mul_right _ byte
    rw [ofOctets_cons, length_cons, Nat.pow_succ]
    rw [Nat.add_mul] at room
    omega

theorem octets_length_le {n k : Nat} : (octets n).length ≤ k ↔ n < 256 ^ k := by
  rw [octets, length_map, length_reverse]
  exact Nat.digits_length_le_iff (by decide) n

theorem octets_length_pos {n : Nat} (h : n ≠ 0) : 0 < (octets n).length := by
  by_contra empty
  have small := octets_length_le.mp (Nat.le_of_not_lt empty)
  omega

theorem lengthOctets_short {n : Nat} (h : n < 128) : lengthOctets n = [n.toUInt8] := if_pos h

theorem lengthOctets_long {n : Nat} (h : ¬n < 128) :
    lengthOctets n = (128 + (octets n).length).toUInt8 :: octets n := if_neg h

theorem headerLength_short {n : Nat} (h : n < 128) : headerLength n = 2 := by
  rw [headerLength, lengthOctets_short h, length_singleton]

theorem headerLength_long {n : Nat} (h : ¬n < 128) : headerLength n = 2 + (octets n).length := by
  rw [headerLength, lengthOctets_long h, length_cons]
  omega

theorem two_le_headerLength (n : Nat) : 2 ≤ headerLength n := by
  by_cases h : n < 128
  · rw [headerLength_short h]
  · rw [headerLength_long h]
    omega

theorem headerLength_le_six {n : Nat} : headerLength n ≤ 6 ↔ n < 2 ^ 32 := by
  by_cases h : n < 128
  · rw [headerLength_short h]
    omega
  · have four := octets_length_le (n := n) (k := 4)
    rw [headerLength_long h]
    omega

theorem element_length (tag : UInt8) (content : List UInt8) :
    (element tag content).length = headerLength content.length + content.length := by
  simp only [element, headerLength, cons_append, length_cons, length_append]
  omega

structure Header where
  start : Nat
  length : Nat
deriving DecidableEq

def Header.finish (h : Header) : Nat := h.start + h.length

def readHeader (input : List UInt8) (offset : Nat) : Option Header :=
  input[offset + 1]?.bind fun first =>
    if first.toNat < 128 then some ⟨offset + 2, first.toNat⟩
    else
      let count := first.toNat - 128
      if count = 0 ∨ input.length < offset + 2 + count then none
      else some ⟨offset + 2 + count, ofOctets ((input.drop (offset + 2)).take count)⟩

def At (input : List UInt8) (offset : Nat) (part : List UInt8) : Prop := part <+: input.drop offset

section at_offset

variable {input part rest content : List UInt8} {offset : Nat} {tag : UInt8}

theorem At.self (part rest : List UInt8) : At (part ++ rest) 0 part := prefix_append part rest

theorem At.left (h : At input offset (part ++ rest)) : At input offset part :=
  (prefix_append part rest).trans h

theorem At.right (h : At input offset (part ++ rest)) : At input (offset + part.length) rest := by
  obtain ⟨more, eq⟩ := h
  refine ⟨more, ?_⟩
  rw [← drop_drop, ← eq, append_assoc, drop_left]

theorem At.enter (h : At input offset (element tag content ++ rest)) :
    At input (offset + headerLength content.length) (content ++ rest) := by
  have parts : element tag content ++ rest
      = (tag :: lengthOctets content.length) ++ (content ++ rest) :=
    append_assoc (tag :: lengthOctets content.length) content rest
  rw [parts] at h
  exact h.right

theorem At.inner (h : At input offset (element tag content)) :
    At input (offset + headerLength content.length) content := by
  rw [← append_nil (element tag content)] at h
  exact h.enter.left

theorem At.end_le (h : At input offset part) (ne : part ≠ []) : offset + part.length ≤ input.length := by
  have le := List.IsPrefix.length_le h
  have pos := length_pos_iff.mpr ne
  rw [length_drop] at le
  omega

theorem At.getElem? (h : At input offset part) {i : Nat} (hi : i < part.length) :
    input[offset + i]? = part[i]? := by
  obtain ⟨more, eq⟩ := h
  rw [← getElem?_drop, ← eq, getElem?_append_left hi]

theorem At.slice (h : At input offset part) : (input.take (offset + part.length)).drop offset = part := by
  rw [drop_take, Nat.add_sub_cancel_left]
  exact (prefix_iff_eq_take.mp h).symm

theorem At.first (h : At input offset (element tag content)) : input[offset]? = some tag := by
  have head := h.getElem? (i := 0) (by simp [element])
  exact head

theorem At.readHeader (h : At input offset (element tag content)) (fits : content.length < 256 ^ 126) :
    readHeader input offset = some ⟨offset + headerLength content.length, content.length⟩ := by
  have header : At input offset (tag :: lengthOctets content.length) := by
    have parts : element tag content = (tag :: lengthOctets content.length) ++ content := rfl
    rw [parts] at h
    exact h.left
  have second := header.getElem? (i := 1) (by
    have two := two_le_headerLength content.length
    rw [headerLength] at two
    rw [length_cons]
    omega)
  have total := header.end_le (cons_ne_nil _ _)
  by_cases short : content.length < 128
  · have first : (content.length.toUInt8).toNat = content.length :=
      Nat.mod_eq_of_lt (by omega : content.length < 256)
    rw [lengthOctets_short short] at second
    simp only [getElem?_cons_succ, getElem?_cons_zero] at second
    simp only [Der.readHeader, second, Option.bind_some, first, if_pos short, headerLength_short short]
  · have count := octets_length_le.mpr fits
    have some_octets := octets_length_pos (n := content.length) (by omega)
    have first : ((128 + (octets content.length).length).toUInt8).toNat
        = 128 + (octets content.length).length :=
      Nat.mod_eq_of_lt (by omega : 128 + (octets content.length).length < 256)
    rw [lengthOctets_long short] at second header total
    simp only [getElem?_cons_succ, getElem?_cons_zero] at second
    simp only [length_cons] at total
    have spelled : (input.drop (offset + 2)).take (octets content.length).length
        = octets content.length := by
      have whole : At input offset
          ([tag, (128 + (octets content.length).length).toUInt8] ++ octets content.length) := header
      have behind : At input (offset + 2) (octets content.length) := whole.right
      exact (prefix_iff_eq_take.mp behind).symm
    have long : ¬(128 + (octets content.length).length < 128) := by omega
    have room : ¬((octets content.length).length = 0 ∨
        input.length < offset + 2 + (octets content.length).length) := by omega
    simp only [Der.readHeader, second, Option.bind_some, first, if_neg long,
      Nat.add_sub_cancel_left, if_neg room, spelled, ofOctets_octets, headerLength_long short]
    rw [Nat.add_assoc]

theorem At.unique {tag' : UInt8} {content' : List UInt8}
    (h : At input offset (element tag content)) (h' : At input offset (element tag' content'))
    (fits : content.length < 256 ^ 126) (fits' : content'.length < 256 ^ 126) :
    tag = tag' ∧ content = content' := by
  have headers := (h.readHeader fits).symm.trans (h'.readHeader fits')
  have same : content.length = content'.length := by
    injection headers with eq
    injection eq
  have tags := h.first.symm.trans h'.first
  refine ⟨Option.some.inj tags, ?_⟩
  have cut := h.inner.slice
  have cut' := h'.inner.slice
  rw [← same] at cut'
  exact cut.symm.trans cut'

end at_offset

theorem readHeader_cases {input : List UInt8} {offset : Nat} {h : Header}
    (read : readHeader input offset = some h) : ∃ first, input[offset + 1]? = some first ∧
      (first.toNat < 128 ∧ h = ⟨offset + 2, first.toNat⟩ ∨
        128 < first.toNat ∧ offset + 2 + (first.toNat - 128) ≤ input.length ∧
          h = ⟨offset + 2 + (first.toNat - 128),
            ofOctets ((input.drop (offset + 2)).take (first.toNat - 128))⟩) := by
  obtain ⟨first, there, eq⟩ := Option.bind_eq_some_iff.mp read
  refine ⟨first, there, ?_⟩
  by_cases short : first.toNat < 128
  · rw [if_pos short] at eq
    exact .inl ⟨short, (Option.some.inj eq).symm⟩
  · rw [if_neg short] at eq
    by_cases bad : first.toNat - 128 = 0 ∨ input.length < offset + 2 + (first.toNat - 128)
    · exact absurd eq (by simp [bad])
    · simp only [if_neg bad] at eq
      exact .inr ⟨by omega, by omega, (Option.some.inj eq).symm⟩

theorem readHeader_start {input : List UInt8} {offset : Nat} {h : Header}
    (read : readHeader input offset = some h) : offset + 2 ≤ h.start ∧ h.start ≤ input.length := by
  obtain ⟨first, there, ⟨-, rfl⟩ | ⟨-, room, rfl⟩⟩ := readHeader_cases read
  · obtain ⟨inside, -⟩ := List.getElem?_eq_some_iff.mp there
    exact ⟨Nat.le_refl _, inside⟩
  · exact ⟨Nat.le_add_right _ _, room⟩

end Der
