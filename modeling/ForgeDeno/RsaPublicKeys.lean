import ForgeDeno.CertificateKeys
import ForgeDeno.DerIntegers

namespace ForgeDeno

open List Der

def IsRsaAlgorithm (bytes : Bytes) : Prop :=
  ∃ identifier parameters, Der.IsElement 0x06 (Der.oidOctets [1, 2, 840, 113549, 1, 1, 1]) identifier ∧
    Der.IsElement 0x05 [] parameters ∧ Der.IsElement 0x30 (identifier ++ parameters) bytes

def IsIntegerElement (value : Nat) (bytes : Bytes) : Prop :=
  ∃ content, Der.IsInteger value content ∧ Der.IsElement 0x02 content bytes

def IsRsaPublicKeyInfo (modulus exponent : Nat) (bytes : Bytes) : Prop :=
  ∃ algorithm first second key text, IsRsaAlgorithm algorithm ∧ IsIntegerElement modulus first ∧
    IsIntegerElement exponent second ∧ Der.IsElement 0x30 (first ++ second) key ∧
    Der.IsElement 0x03 (0x00 :: key) text ∧ Der.IsElement 0x30 (algorithm ++ text) bytes

section integers

variable {magnitude : Bytes}

theorem trimZeros_ofOctets (magnitude : Bytes) : Der.ofOctets (trimZeros magnitude) = Der.ofOctets magnitude := by
  induction magnitude using trimZeros.induct with
  | case1 b rest ih =>
    rw [trimZeros, ih, ofOctets_cons 0x00]
    simp
  | case2 bytes other => rw [trimZeros]; exact other

theorem trimZeros_length (magnitude : Bytes) : (trimZeros magnitude).length ≤ magnitude.length := by
  induction magnitude using trimZeros.induct with
  | case1 b rest ih =>
    rw [trimZeros, length_cons]
    omega
  | case2 bytes other => rw [trimZeros]; exact other

theorem trimZeros_head (nonzero : Der.ofOctets magnitude ≠ 0) : (trimZeros magnitude).head? ≠ some 0 := by
  induction magnitude using trimZeros.induct with
  | case1 b rest ih =>
    rw [ofOctets_cons 0x00] at nonzero
    rw [trimZeros]
    apply ih
    simpa using nonzero
  | case2 bytes other =>
    have kept : trimZeros bytes = bytes := by
      rw [trimZeros]
      exact other
    rw [kept]
    intro zero
    match bytes, other with
    | [], _ => cases zero
    | [b], _ =>
      cases zero
      exact nonzero rfl
    | a :: b :: rest, other =>
      cases zero
      exact other b rest rfl

theorem isZero_iff (magnitude : Bytes) : isZero magnitude = true ↔ Der.ofOctets magnitude = 0 := by
  unfold isZero
  induction magnitude with
  | nil => exact iff_of_true rfl rfl
  | cons b rest ih =>
    have positive : 0 < 256 ^ rest.length := Nat.pow_pos (by omega)
    rw [all_cons, Bool.and_eq_true, ih, ofOctets_cons, decide_eq_true_eq]
    constructor
    · intro ⟨zero, zeros⟩
      rw [zero, zeros]
      simp
    · intro zero
      have parts := Nat.add_eq_zero_iff.mp zero
      refine ⟨?_, parts.2⟩
      rcases Nat.mul_eq_zero.mp parts.1 with first | empty
      · exact UInt8.toNat_inj.mp first
      · omega

theorem derInteger_eq (nonzero : Der.ofOctets magnitude ≠ 0) :
    derInteger magnitude = tagged 0x02 (Der.natural (Der.ofOctets magnitude)) := by
  have head := trimZeros_head nonzero
  have octets := octets_ofOctets head
  rw [trimZeros_ofOctets] at octets
  unfold derInteger natural
  rw [octets]
  cases all : trimZeros magnitude with
  | nil =>
    have value := trimZeros_ofOctets magnitude
    rw [all] at value
    exact absurd value.symm nonzero
  | cons b rest =>
    refine congrArg (tagged 0x02) ?_
    by_cases low : b < 0x80
    · have clear : ¬(b &&& 0x80 ≠ 0) := by
        rw [and_high_ne_zero, not_not]
        exact UInt8.lt_iff_toNat_lt.mp low
      exact (if_neg clear).trans (if_pos low).symm
    · have set : b &&& 0x80 ≠ 0 := by
        rw [and_high_ne_zero]
        intro small
        exact low (UInt8.lt_iff_toNat_lt.mpr small)
      exact (if_pos set).trans (if_neg low).symm

theorem natural_length (nonzero : Der.ofOctets magnitude ≠ 0) :
    (Der.natural (Der.ofOctets magnitude)).length ≤ magnitude.length + 1 := by
  have octets := octets_ofOctets (trimZeros_head nonzero)
  have length := trimZeros_length magnitude
  rw [trimZeros_ofOctets] at octets
  rcases natural_cases (ofOctets magnitude) with ⟨zero, _⟩ | ⟨b, rest, all, _, form⟩
  · exact absurd zero nonzero
  · rw [← octets, all, length_cons] at length
    rcases form with ⟨_, form⟩ | ⟨_, form⟩
    · rw [form, length_cons]
      omega
    · rw [form, length_cons, length_cons]
      omega

end integers

section information

variable {modulus exponent : Bytes} {m e : Nat}

def rsaInfo (modulus exponent : Bytes) : Bytes :=
  sequence (sequence (OID_RSA_ENCRYPTION ++ DER_NULL) ++
    bitString (sequence (derInteger modulus ++ derInteger exponent)))

def rsaAlgorithm : Bytes := Der.element 0x30 (OID_RSA_ENCRYPTION ++ DER_NULL)

def rsaNumbers (m e : Nat) : Bytes :=
  Der.element 0x02 (Der.natural m) ++ Der.element 0x02 (Der.natural e)

/-- The encoding of a key, whatever the size of its numbers. -/
def rsaElement (m e : Nat) : Bytes :=
  Der.element 0x30 (rsaAlgorithm ++ Der.element 0x03 (0x00 :: Der.element 0x30 (rsaNumbers m e)))

theorem content_le_element (tag : UInt8) (content : Bytes) :
    content.length ≤ (Der.element tag content).length := by
  rw [element_length]
  omega

theorem content_le_tagged (tag : UInt8) (content : Bytes) : content.length ≤ (tagged tag content).length := by
  rw [tagged, length_append]
  omega

theorem element_length_le (tag : UInt8) {content : Bytes} (short : content.length < 2 ^ 40) :
    (Der.element tag content).length ≤ content.length + 7 := by
  have five := (octets_length_le (n := content.length) (k := 5)).mpr short
  rw [element_length]
  by_cases h : content.length < 128
  · rw [headerLength_short h]
    omega
  · rw [headerLength_long h]
    omega

theorem isElement_of_short (tag : UInt8) {content : Bytes} (short : content.length < 2 ^ 40) :
    Der.IsElement tag content (Der.element tag content) :=
  isElement_element (Nat.lt_of_lt_of_le short (by norm_num))

def numberOctets (m e : Nat) : Nat := (Der.natural m).length + (Der.natural e).length

theorem numberOctets_le (m e : Nat) : numberOctets m e ≤ (rsaNumbers m e).length := by
  have first := content_le_element 0x02 (natural m)
  have second := content_le_element 0x02 (natural e)
  unfold numberOctets rsaNumbers
  rw [length_append]
  omega

section sizes

variable (m_short : (Der.natural m).length ≤ 2 ^ 31) (e_short : (Der.natural e).length ≤ 2 ^ 31)

include m_short e_short

theorem rsaNumbers_short : (rsaNumbers m e).length ≤ numberOctets m e + 14 := by
  have first := element_length_le 0x02 (show (natural m).length < 2 ^ 40 by omega)
  have second := element_length_le 0x02 (show (natural e).length < 2 ^ 40 by omega)
  unfold numberOctets rsaNumbers
  rw [length_append]
  omega

theorem rsaText_short :
    (0x00 :: Der.element 0x30 (rsaNumbers m e)).length ≤ numberOctets m e + 22 := by
  have numbers := rsaNumbers_short m_short e_short
  unfold numberOctets at numbers ⊢
  have key := element_length_le 0x30 (show (rsaNumbers m e).length < 2 ^ 40 by omega)
  rw [length_cons]
  omega

theorem rsaContent_short : (rsaAlgorithm ++ Der.element 0x03 (0x00 :: Der.element 0x30 (rsaNumbers m e))).length ≤
    numberOctets m e + 44 := by
  have text := rsaText_short m_short e_short
  unfold numberOctets at text ⊢
  have whole := element_length_le 0x03
    (show (0x00 :: element 0x30 (rsaNumbers m e)).length < 2 ^ 40 by omega)
  have algorithm : rsaAlgorithm.length = 15 := rfl
  rw [length_append]
  omega

theorem isRsaPublicKeyInfo_rsaElement : IsRsaPublicKeyInfo m e (rsaElement m e) := by
  have numbers := rsaNumbers_short m_short e_short
  have text := rsaText_short m_short e_short
  have whole := rsaContent_short m_short e_short
  have algorithm : IsRsaAlgorithm rsaAlgorithm :=
    ⟨OID_RSA_ENCRYPTION, DER_NULL, ⟨[0x09], .inl (by decide), by decide⟩,
      ⟨[0x00], .inl (by decide), by decide⟩, isElement_of_short 0x30 (by decide)⟩
  have bound : numberOctets m e + 44 < 2 ^ 40 := by
    unfold numberOctets
    omega
  exact ⟨rsaAlgorithm, element 0x02 (natural m), element 0x02 (natural e), _, _, algorithm,
    ⟨_, isInteger_natural m, isElement_of_short 0x02 (by omega)⟩,
    ⟨_, isInteger_natural e, isElement_of_short 0x02 (by omega)⟩,
    isElement_of_short 0x30 (Nat.lt_of_le_of_lt numbers (by omega)),
    isElement_of_short 0x03 (Nat.lt_of_le_of_lt text (by omega)),
    isElement_of_short 0x30 (Nat.lt_of_le_of_lt whole bound)⟩

end sizes

section keys

variable (m_nonzero : Der.ofOctets modulus ≠ 0) (e_nonzero : Der.ofOctets exponent ≠ 0)

include m_nonzero e_nonzero

theorem rsaInfo_eq (short : (rsaElement (Der.ofOctets modulus) (Der.ofOctets exponent)).length < 2 ^ 32) :
    rsaInfo modulus exponent = rsaElement (Der.ofOctets modulus) (Der.ofOctets exponent) := by
  have first := derInteger_eq m_nonzero
  have second := derInteger_eq e_nonzero
  generalize ofOctets modulus = m at first short ⊢
  generalize ofOctets exponent = e at second short ⊢
  have key := content_le_element 0x30 (rsaNumbers m e)
  have text := content_le_element 0x03 (0x00 :: element 0x30 (rsaNumbers m e))
  have whole := Nat.lt_of_le_of_lt (content_le_element 0x30 _) short
  rw [length_cons] at text
  have numbers := numberOctets_le m e
  have total := whole
  unfold numberOctets at numbers
  rw [length_append] at total
  have pair : derInteger modulus ++ derInteger exponent = rsaNumbers m e := by
    rw [first, second, tagged_eq 0x02 (by omega), tagged_eq 0x02 (by omega)]
    rfl
  have algorithm : sequence (OID_RSA_ENCRYPTION ++ DER_NULL) = rsaAlgorithm := tagged_eq 0x30 (by decide)
  have inner : sequence (rsaNumbers m e) = element 0x30 (rsaNumbers m e) := tagged_eq 0x30 (by omega)
  have bits : bitString (element 0x30 (rsaNumbers m e)) =
      element 0x03 (0x00 :: element 0x30 (rsaNumbers m e)) :=
    tagged_eq 0x03 (by rw [length_cons]; omega)
  unfold rsaInfo
  rw [pair, algorithm, inner, bits]
  exact tagged_eq 0x30 whole

theorem numberOctets_le_rsaInfo :
    numberOctets (Der.ofOctets modulus) (Der.ofOctets exponent) ≤ (rsaInfo modulus exponent).length := by
  have first := content_le_tagged 0x02 (natural (ofOctets modulus))
  have second := content_le_tagged 0x02 (natural (ofOctets exponent))
  have key := content_le_tagged 0x30 (derInteger modulus ++ derInteger exponent)
  have text := content_le_tagged 0x03 (0x00 :: sequence (derInteger modulus ++ derInteger exponent))
  have whole := content_le_tagged 0x30 (sequence (OID_RSA_ENCRYPTION ++ DER_NULL) ++
    bitString (sequence (derInteger modulus ++ derInteger exponent)))
  rw [← derInteger_eq m_nonzero] at first
  rw [← derInteger_eq e_nonzero] at second
  rw [length_append] at key whole
  rw [length_cons] at text
  unfold numberOctets rsaInfo
  unfold sequence bitString at *
  omega

end keys

theorem rsaPublicKeyFrom_eq {base64 : Base64} {attributes : List Attribute}
    (m_there : findAttribute attributes AttributeType.Modulus = some modulus)
    (e_there : findAttribute attributes AttributeType.PublicExponent = some exponent)
    (m_nonzero : Der.ofOctets modulus ≠ 0) (e_nonzero : Der.ofOctets exponent ≠ 0) :
    rsaPublicKeyFrom base64 attributes = .ok (base64.encode (rsaInfo modulus exponent)) := by
  have usable : ¬(isZero modulus || isZero exponent) = true := by
    rw [Bool.or_eq_true, isZero_iff, isZero_iff]
    omega
  unfold rsaPublicKeyFrom attributeOr
  rw [m_there, e_there]
  show (if _ then _ else _) = _
  rw [if_neg usable]
  rfl

/-- The longest string of the engine, in UTF-16 units. -/
def maxStringLength : Nat := 2 ^ 29 - 24

def invalidStringLength : TokenFailure :=
  { name := js "RangeError", message := js "Invalid string length" }

/-- `rsaPublicKeyFrom`, whose last call `toBase64` throws rather than build too long a string. -/
def rsaPublicKeyText (base64 : Base64) (attributes : List Attribute) : Except TokenFailure JsString := do
  let text ← rsaPublicKeyFrom base64 attributes
  if text.length ≤ maxStringLength then return text else throw invalidStringLength

/-- The bytes are the DER SubjectPublicKeyInfo of the two numbers, unless their text does not fit
the engine; lengths that 32 bits cannot hold occur in such texts only. -/
theorem rsaPublicKeyFrom_exact {base64 : Base64} (grows : ∀ bytes, bytes.length ≤ (base64.encode bytes).length)
    {attributes : List Attribute}
    (m_there : findAttribute attributes AttributeType.Modulus = some modulus)
    (e_there : findAttribute attributes AttributeType.PublicExponent = some exponent)
    (m_nonzero : Der.ofOctets modulus ≠ 0) (e_nonzero : Der.ofOctets exponent ≠ 0)
    (m_short : modulus.length < 2 ^ 31) (e_short : exponent.length < 2 ^ 31) :
    ∃ bytes, IsRsaPublicKeyInfo (Der.ofOctets modulus) (Der.ofOctets exponent) bytes ∧
      rsaPublicKeyText base64 attributes =
        if (base64.encode bytes).length ≤ maxStringLength then .ok (base64.encode bytes)
        else .error invalidStringLength := by
  have m_length := Nat.le_trans (natural_length m_nonzero) m_short
  have e_length := Nat.le_trans (natural_length e_nonzero) e_short
  refine ⟨_, isRsaPublicKeyInfo_rsaElement m_length e_length, ?_⟩
  unfold rsaPublicKeyText
  rw [rsaPublicKeyFrom_eq m_there e_there m_nonzero e_nonzero]
  by_cases short : (rsaElement (ofOctets modulus) (ofOctets exponent)).length < 2 ^ 32
  · rw [rsaInfo_eq m_nonzero e_nonzero short]
    rfl
  · have made := numberOctets_le_rsaInfo m_nonzero e_nonzero
    have content := rsaContent_short m_length e_length
    have whole := element_length_le 0x30 (Nat.lt_of_le_of_lt content (by unfold numberOctets; omega))
    unfold rsaElement at short
    have long : ∀ bytes : Bytes, 2 ^ 31 ≤ bytes.length →
        ¬(base64.encode bytes).length ≤ maxStringLength := by
      intro bytes size
      have text := grows bytes
      unfold maxStringLength
      omega
    rw [if_neg (long _ (by unfold rsaElement; omega))]
    exact if_neg (long _ (by omega))

end information

def rsaAttributes (modulus exponent : Bytes) : List Attribute :=
  [{ type := AttributeType.Modulus, value := modulus, present := true },
    { type := AttributeType.PublicExponent, value := exponent, present := true }]

theorem small_rsa_key :
    ∃ bytes, IsRsaPublicKeyInfo (Der.ofOctets [0x00, 0xC5, 0x01]) (Der.ofOctets [0x01, 0x00, 0x01]) bytes ∧
      rsaPublicKeyText rfcBase64 (rsaAttributes [0x00, 0xC5, 0x01] [0x01, 0x00, 0x01]) =
        if (rfcBase64.encode bytes).length ≤ maxStringLength then .ok (rfcBase64.encode bytes)
        else .error invalidStringLength :=
  rsaPublicKeyFrom_exact Rfc4648.length_le_encode rfl rfl (by decide) (by decide) (by decide) (by decide)

def ones (n : Nat) : Bytes := List.replicate n 0xFF

theorem ones_head {n : Nat} (h : n ≠ 0) : (ones n).head? ≠ some 0 := by
  obtain ⟨m, rfl⟩ := Nat.exists_eq_succ_of_ne_zero h
  unfold ones
  rw [replicate_succ, head?_cons]
  decide

theorem ones_nonzero {n : Nat} (h : n ≠ 0) : Der.ofOctets (ones n) ≠ 0 := by
  intro zero
  have octets := octets_ofOctets (ones_head h)
  rw [zero, octets_zero] at octets
  have lengths := congrArg List.length octets
  unfold ones at lengths
  rw [length_replicate] at lengths
  exact h lengths.symm

theorem ones_octets {n : Nat} (h : n ≠ 0) : n ≤ (Der.natural (Der.ofOctets (ones n))).length := by
  have octets := octets_ofOctets (ones_head h)
  have size := congrArg List.length octets
  unfold ones at size
  rw [length_replicate] at size
  rcases natural_cases (ofOctets (ones n)) with ⟨zero, _⟩ | ⟨b, rest, all, _, ⟨_, form⟩ | ⟨_, form⟩⟩
  · exact absurd zero (ones_nonzero h)
  · rw [form, ← all]
    exact Nat.le_of_eq size.symm
  · rw [form, length_cons, ← all]
    exact Nat.le_succ_of_le (Nat.le_of_eq size.symm)

theorem ones_refused {base64 : Base64} (grows : ∀ bytes, bytes.length ≤ (base64.encode bytes).length)
    {n : Nat} (some_byte : n ≠ 0) (long : maxStringLength < n) :
    rsaPublicKeyText base64 (rsaAttributes (ones n) [3]) = .error invalidStringLength := by
  have octets := ones_octets some_byte
  have nonzero := ones_nonzero some_byte
  have exponent : ofOctets [3] ≠ 0 := by decide
  have made := numberOctets_le_rsaInfo nonzero exponent
  have text := grows (rsaInfo (ones n) [3])
  have refused : ¬(base64.encode (rsaInfo (ones n) [3])).length ≤ maxStringLength := by
    unfold numberOctets at made
    omega
  unfold rsaPublicKeyText
  rw [rsaPublicKeyFrom_eq rfl rfl nonzero exponent]
  exact if_neg refused

/-- A modulus of 512 MiB has no text. -/
theorem huge_rsa_key : (ones (2 ^ 29)).length < 2 ^ 31 ∧ Der.ofOctets (ones (2 ^ 29)) ≠ 0 ∧
    ¬∃ bytes, rsaPublicKeyText rfcBase64 (rsaAttributes (ones (2 ^ 29)) [3]) = .ok (rfcBase64.encode bytes) ∧
      IsRsaPublicKeyInfo (Der.ofOctets (ones (2 ^ 29))) (Der.ofOctets [3]) bytes := by
  have some_byte : 2 ^ 29 ≠ 0 := by norm_num
  have long : maxStringLength < 2 ^ 29 := by norm_num [maxStringLength]
  refine ⟨?_, ones_nonzero some_byte, ?_⟩
  · rw [ones, length_replicate]
    norm_num
  · rw [ones_refused Rfc4648.length_le_encode some_byte long]
    exact fun made => by cases made.choose_spec.1

end ForgeDeno
