import ForgeDeno.DerElements

namespace Der

open List

/-- The minimal definite form of a length: one octet below 128, else the octets of the length
without a leading zero behind their count. -/
def IsLength (n : Nat) (header : List UInt8) : Prop :=
  (n < 128 ∧ header = [n.toUInt8]) ∨
    (128 ≤ n ∧ ∃ spelled, header = (128 + spelled.length).toUInt8 :: spelled ∧
      spelled.length ≤ 126 ∧ spelled.head? ≠ some 0 ∧ ofOctets spelled = n)

def IsElement (tag : UInt8) (content bytes : List UInt8) : Prop :=
  ∃ header, IsLength content.length header ∧ bytes = tag :: header ++ content

def signed (content : List UInt8) : Int :=
  if content.headD 0 < 0x80 then ofOctets content else ofOctets content - 256 ^ content.length

structure IsInteger (value : Int) (content : List UInt8) : Prop where
  some_octet : content ≠ []
  minimal : ∀ a b rest, content = a :: b :: rest → ¬(a = 0x00 ∧ b < 0x80) ∧ ¬(a = 0xFF ∧ 0x80 ≤ b)
  value : signed content = value

def natural (n : Nat) : List UInt8 :=
  match octets n with
  | [] => [0]
  | b :: rest => if b < 0x80 then b :: rest else 0 :: b :: rest

def arcOctets (n : Nat) : List UInt8 :=
  ((Nat.digits 128 (n / 128)).reverse.map fun d => (128 + d).toUInt8) ++ [(n % 128).toUInt8]

def oidOctets : List Nat → List UInt8
  | first :: second :: arcs => ((40 * first + second) :: arcs).flatMap arcOctets
  | _ => []

theorem octets_zero : octets 0 = [] := rfl

theorem octets_head {n : Nat} : (octets n).head? ≠ some 0 := by
  intro zero
  have spelled := ofOctets_octets n
  cases all : octets n with
  | nil =>
    rw [all] at zero
    cases zero
  | cons b rest =>
    rw [all] at zero spelled
    cases zero
    have value := ofOctets_cons 0 rest
    have less := ofOctets_lt rest
    have size := octets_length_le.mpr (show n < 256 ^ rest.length by
      rw [← spelled, value]
      simpa using less)
    rw [all, length_cons] at size
    omega

theorem octets_ofOctets {l : List UInt8} (h : l.head? ≠ some 0) : octets (ofOctets l) = l := by
  have bytes : ∀ d ∈ (l.map UInt8.toNat).reverse, d < 256 := by
    intro d mem
    obtain ⟨b, _, rfl⟩ := mem_map.mp (mem_reverse.mp mem)
    exact b.toNat_lt
  have last : ∀ some_digit : (l.map UInt8.toNat).reverse ≠ [],
      (l.map UInt8.toNat).reverse.getLast some_digit ≠ 0 := by
    intro some_digit zero
    rw [getLast_reverse] at zero
    cases l with
    | nil => exact some_digit rfl
    | cons b rest =>
      have first : b.toNat = 0 := zero
      have null : b = 0 := UInt8.toNat_inj.mp first
      exact h (congrArg some null)
  have back : ∀ b ∈ l, (Nat.toUInt8 ∘ UInt8.toNat) b = id b := by
    intro b _
    show b.toNat.toUInt8 = b
    rw [Nat.toUInt8_eq, UInt8.ofNat_toNat]
  rw [octets, ofOctets_eq_ofDigits, Nat.digits_ofDigits 256 (by decide) _ bytes last,
    reverse_reverse, map_map, map_congr_left back, map_id]

theorem isLength_lengthOctets {n : Nat} (fits : n < 256 ^ 126) : IsLength n (lengthOctets n) := by
  by_cases short : n < 128
  · exact .inl ⟨short, lengthOctets_short short⟩
  · exact .inr ⟨Nat.le_of_not_lt short, octets n, lengthOctets_long short,
      octets_length_le.mpr fits, octets_head, ofOctets_octets n⟩

theorem isElement_element {tag : UInt8} {content : List UInt8} (fits : content.length < 256 ^ 126) :
    IsElement tag content (element tag content) :=
  ⟨_, isLength_lengthOctets fits, rfl⟩

theorem natural_cases (n : Nat) : (n = 0 ∧ natural n = [0]) ∨ ∃ b rest, octets n = b :: rest ∧ b ≠ 0 ∧
      ((b < 0x80 ∧ natural n = b :: rest) ∨ (¬b < 0x80 ∧ natural n = 0 :: b :: rest)) := by
  have spelled := ofOctets_octets n
  have head := octets_head (n := n)
  unfold natural
  cases all : octets n with
  | nil =>
    rw [all] at spelled
    exact .inl ⟨spelled.symm, rfl⟩
  | cons b rest =>
    rw [all] at head
    refine .inr ⟨b, rest, rfl, fun null => head (congrArg some null), ?_⟩
    by_cases low : b < 0x80
    · exact .inl ⟨low, if_pos low⟩
    · exact .inr ⟨low, if_neg low⟩

theorem isInteger_natural (n : Nat) : IsInteger n (natural n) := by
  have spelled := ofOctets_octets n
  rcases natural_cases n with ⟨rfl, all⟩ | ⟨b, rest, all, null, ⟨low, form⟩ | ⟨high, form⟩⟩
  · rw [all]
    refine ⟨cons_ne_nil _ _, ?_, rfl⟩
    intro a b rest same
    cases same
  · rw [form]
    rw [all] at spelled
    refine ⟨cons_ne_nil _ _, ?_, ?_⟩
    · intro a c tail same
      have first : b = a := (List.cons.inj same).1
      rw [← first]
      refine ⟨fun zero => null zero.1, ?_⟩
      intro ones
      rw [ones.1] at low
      exact absurd low (by decide)
    · unfold signed
      rw [headD_cons, if_pos low, spelled]
  · rw [form]
    rw [all] at spelled
    refine ⟨cons_ne_nil _ _, ?_, ?_⟩
    · intro a c tail same
      have first : 0 = a := (List.cons.inj same).1
      have second : b = c := (List.cons.inj (List.cons.inj same).2).1
      rw [← first, ← second]
      refine ⟨fun zeros => high zeros.2, ?_⟩
      intro ones
      exact absurd ones.1 (by decide)
    · unfold signed
      rw [headD_cons, if_pos (by decide), ofOctets_cons, spelled]
      simp

end Der
