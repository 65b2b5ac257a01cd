import ForgeDeno.CertificateWalk

namespace ForgeDeno

open List Der Option

/-- The contents of the fields of an X.509 certificate; a BIT STRING's content starts with its
count of unused bits, and `extra` holds the unique identifiers and the extensions. -/
structure CertificateFields where
  version : Option Bytes
  serialNumber : Bytes
  signature : Bytes
  issuer : List Bytes
  validity : Bytes
  subject : List Bytes
  algorithm : Bytes
  publicKey : Bytes
  extra : Bytes
  signatureAlgorithm : Bytes
  signatureValue : Bytes

namespace CertificateFields

def sets (name : List Bytes) : Bytes := name.flatMap (Der.element 0x31)

def unversioned (c : CertificateFields) : List (UInt8 × Bytes) :=
  [(0x02, c.serialNumber), (0x30, c.signature), (0x30, sets c.issuer), (0x30, c.validity), (0x30, sets c.subject)]

/-- The fields in front of the public key: `[0] EXPLICIT version` is optional. -/
def leading (c : CertificateFields) : List (UInt8 × Bytes) :=
  match c.version with
  | some version => (0xa0, Der.element 0x02 version) :: c.unversioned
  | none => c.unversioned

def infoContent (c : CertificateFields) : Bytes :=
  Der.element 0x30 c.algorithm ++ Der.element 0x03 c.publicKey

def info (c : CertificateFields) : Bytes := Der.element 0x30 c.infoContent

def encoded (fields : List (UInt8 × Bytes)) : Bytes :=
  fields.flatMap fun field => Der.element field.1 field.2

def tbsContent (c : CertificateFields) : Bytes := encoded c.leading ++ (c.info ++ c.extra)

def content (c : CertificateFields) : Bytes :=
  Der.element 0x30 c.tbsContent ++ (Der.element 0x30 c.signatureAlgorithm ++ Der.element 0x03 c.signatureValue)

def der (c : CertificateFields) : Bytes := Der.element 0x30 c.content

/-- The version is there, every length in front of the key stays below 2^31 and so does the key's,
unless the whole array has 2^32 bytes, where an end counted from behind is the end counted from
the front. -/
def Readable (c : CertificateFields) : Prop :=
  c.version.isSome ∧ c.content.length < 2 ^ 32 ∧ (∀ field ∈ c.leading, field.2.length < 2 ^ 31) ∧
    (c.infoContent.length < 2 ^ 31 ∨ c.der.length = 2 ^ 32)

instance decidableReadable (c : CertificateFields) : Decidable c.Readable :=
  inferInstanceAs (Decidable (_ ∧ _ ∧ _ ∧ _))

end CertificateFields

structure Certificate extends CertificateFields where
  encodable : toCertificateFields.content.length < 256 ^ 126

def Lost (cursor : Position) : Prop := ∀ i, cursor = some i → i ≤ -2

theorem readElement_lost (bytes : Bytes) {cursor : Position} (lost : Lost cursor) :
    ∃ start, readElement bytes cursor = some ⟨none, start, none⟩ := by
  cases cursor with
  | none => exact ⟨none, rfl⟩
  | some i =>
    have behind := lost i rfl
    have present : ¬(bytes.length : Int) < i + 2 := by omega
    have negative : ¬0 ≤ i := by omega
    have negative' : ¬0 ≤ i + 1 := by omega
    refine ⟨some (i + 2), ?_⟩
    simp only [readElement, exceeds_some, advance_some, present, decide_false,
      Bool.false_eq_true, if_false, byteAt, bind_some, if_neg negative, if_neg negative']

theorem skipElements_lost (bytes : Bytes) (n : Nat) {cursor : Position} (lost : Lost cursor) :
    ∃ later, Lost later ∧ skipElements bytes n cursor = .ok later := by
  induction n generalizing cursor with
  | zero => exact ⟨cursor, lost, rfl⟩
  | succ n ih =>
    obtain ⟨start, read⟩ := readElement_lost bytes lost
    have gone : Lost none := nofun
    obtain ⟨later, lost', eq⟩ := ih gone
    refine ⟨later, lost', ?_⟩
    rw [skipElements, read]
    exact eq

section fields

variable {bytes more : Bytes}

theorem skipElements_small (fields : List (UInt8 × Bytes))
    (small : ∀ field ∈ fields, field.2.length < 2 ^ 31) {offset : Nat}
    (stands : Der.At bytes offset (CertificateFields.encoded fields ++ more)) :
    skipElements bytes fields.length (some (offset : Int))
      = .ok (some ((offset + (CertificateFields.encoded fields).length : Nat) : Int)) := by
  induction fields generalizing offset with
  | nil => rfl
  | cons field fields ih =>
    have parts : CertificateFields.encoded (field :: fields) ++ more
        = element field.1 field.2 ++ (CertificateFields.encoded fields ++ more) := by
      rw [CertificateFields.encoded, flatMap_cons, append_assoc]
      rfl
    have low := small field mem_cons_self
    rw [parts] at stands
    have read := readElement_at stands.left (by omega)
    have rest := ih (fun f mem => small f (mem_cons_of_mem _ mem)) stands.right
    have total : (CertificateFields.encoded (field :: fields)).length
        = (element field.1 field.2).length + (CertificateFields.encoded fields).length := by
      rw [CertificateFields.encoded, flatMap_cons, length_append]
      rfl
    rw [wrapped_low low] at read
    rw [length_cons, skipElements, read, total, ← Nat.add_assoc]
    simp only
    rw [element_length] at rest ⊢
    rw [← Nat.add_assoc] at rest ⊢
    exact rest

theorem skipElements_large (size : bytes.length < 2 ^ 32 + 6) (room : 8 ≤ more.length)
    (fields : List (UInt8 × Bytes)) (large : ¬∀ field ∈ fields, field.2.length < 2 ^ 31) {offset : Nat}
    (stands : Der.At bytes offset (CertificateFields.encoded fields ++ more)) :
    ∃ cursor, Lost cursor ∧ skipElements bytes fields.length (some (offset : Int)) = .ok cursor := by
  induction fields generalizing offset with
  | nil =>
    refine absurd ?_ large
    intro field mem
    cases mem
  | cons field fields ih =>
    have parts : CertificateFields.encoded (field :: fields) ++ more
        = element field.1 field.2 ++ (CertificateFields.encoded fields ++ more) := by
      rw [CertificateFields.encoded, flatMap_cons, append_assoc]
      rfl
    rw [parts] at stands
    have behind := stands.end_le (cons_ne_nil _ _)
    rw [length_append, length_append, element_length] at behind
    have two := two_le_headerLength field.2.length
    have read := readElement_at stands.left (by omega)
    rw [length_cons, skipElements, read]
    simp only
    by_cases low : field.2.length < 2 ^ 31
    · have later : ¬∀ f ∈ fields, f.2.length < 2 ^ 31 := by
        intro small
        refine large fun f mem => ?_
        rcases mem_cons.mp mem with rfl | mem
        · exact low
        · exact small f mem
      have rest := ih later stands.right
      rw [wrapped_low low]
      rw [element_length, ← Nat.add_assoc] at rest
      exact rest
    · rw [wrapped_high (by omega) (by omega)]
      refine skipElements_lost bytes fields.length ?_
      intro i eq
      have value := some.inj eq
      omega

end fields

theorem sliceBytes_prefix (bytes : Bytes) (start : Nat) (finish : Position) :
    sliceBytes bytes (some (start : Int)) finish <+: bytes.drop start := by
  have positive : ¬(start : Int) < 0 := by omega
  simp only [sliceBytes, if_neg positive, Int.toNat_natCast]
  rw [drop_take]
  exact take_prefix _ _

theorem sliceBytes_some (bytes : Bytes) (start : Nat) (finish : Int) :
    sliceBytes bytes (some (start : Int)) (some finish)
      = (bytes.take (if finish < 0 then (bytes.length + finish).toNat else finish.toNat)).drop start := by
  have positive : ¬(start : Int) < 0 := by omega
  simp only [sliceBytes, if_neg positive, Int.toNat_natCast]

namespace Certificate

variable (c : Certificate)

def trailer : Bytes := Der.element 0x30 c.signatureAlgorithm ++ Der.element 0x03 c.signatureValue

def fieldsStart : Nat := Der.headerLength c.content.length + Der.headerLength c.tbsContent.length

theorem der_at : Der.At c.der 0 (Der.element 0x30 c.content) := by
  have whole := At.self c.der []
  rw [append_nil] at whole
  exact whole

theorem tbs_at :
    Der.At c.der (Der.headerLength c.content.length) (Der.element 0x30 c.tbsContent ++ c.trailer) := by
  have inner := c.der_at.inner
  rw [Nat.zero_add] at inner
  exact inner

theorem fields_at : Der.At c.der c.fieldsStart
    (CertificateFields.encoded c.leading ++ (c.info ++ (c.extra ++ c.trailer))) := by
  have inner := c.tbs_at.enter
  have parts : c.tbsContent ++ c.trailer
      = CertificateFields.encoded c.leading ++ (c.info ++ (c.extra ++ c.trailer)) := by
    rw [CertificateFields.tbsContent, append_assoc, append_assoc]
  rw [parts] at inner
  exact inner

theorem trailer_length : 4 ≤ c.trailer.length := by
  have algorithm := two_le_headerLength c.signatureAlgorithm.length
  have value := two_le_headerLength c.signatureValue.length
  rw [trailer, length_append, element_length, element_length]
  omega

theorem infoContent_length : 4 ≤ c.infoContent.length := by
  have algorithm := two_le_headerLength c.algorithm.length
  have key := two_le_headerLength c.publicKey.length
  rw [CertificateFields.infoContent, length_append, element_length, element_length]
  omega

theorem info_length : c.info.length
    = Der.headerLength c.infoContent.length + c.infoContent.length := element_length _ _

theorem rest_length : 10 ≤ (c.info ++ (c.extra ++ c.trailer)).length := by
  have trailer := c.trailer_length
  have content := c.infoContent_length
  have header := two_le_headerLength c.infoContent.length
  rw [length_append, length_append, c.info_length]
  omega

theorem der_length : c.der.length = Der.headerLength c.content.length + c.content.length :=
  element_length _ _

theorem tbsContent_lt : c.tbsContent.length < c.content.length := by
  have header := two_le_headerLength c.tbsContent.length
  rw [CertificateFields.content, length_append, element_length]
  omega

section short

variable {c} (short : c.content.length < 2 ^ 32)
include short

theorem der_size : c.der.length < 2 ^ 32 + 6 := by
  have six := headerLength_le_six.mpr short
  rw [c.der_length]
  omega

theorem opened : readElement c.der (some 0) = some ⟨some 0x30,
      some ((Der.headerLength c.content.length : Nat) : Int),
      some (((Der.headerLength c.content.length : Nat) : Int) + wrapped c.content.length)⟩ ∧
    readElement c.der (some ((Der.headerLength c.content.length : Nat) : Int))
      = some ⟨some 0x30, some (c.fieldsStart : Int),
          some ((c.fieldsStart : Int) + wrapped c.tbsContent.length)⟩ := by
  have outer := readElement_at c.der_at short
  have inner := readElement_at c.tbs_at.left (by
    have lt := c.tbsContent_lt
    omega)
  rw [Nat.zero_add] at outer
  exact ⟨outer, inner⟩

theorem first_read : ∃ first start finish,
    readElement c.der (some (c.fieldsStart : Int)) = some ⟨some first, start, finish⟩ ∧
      (first = 0xa0 ↔ c.version.isSome) := by
  have size := der_size short
  have rest := c.rest_length
  obtain ⟨field, fields, eq, versioned⟩ : ∃ field fields, c.leading = field :: fields ∧
      (field.1 = 0xa0 ↔ c.version.isSome) := by
    rw [CertificateFields.leading]
    cases c.version with
    | none => exact ⟨_, _, rfl, by simp⟩
    | some version => exact ⟨_, _, rfl, by simp⟩
  have stands := c.fields_at
  rw [eq, CertificateFields.encoded, flatMap_cons, append_assoc] at stands
  have behind := stands.end_le (cons_ne_nil _ _)
  rw [length_append, length_append, element_length] at behind
  have two := two_le_headerLength field.2.length
  exact ⟨field.1, _, _, readElement_at stands.left (by omega), versioned⟩

theorem subjectPublicKeyInfo_der {info : Bytes} : subjectPublicKeyInfo c.der = .ok info ↔ ∃ cursor start finish,
      skipElements c.der (if c.version.isSome then 6 else 4) (some (c.fieldsStart : Int)) = .ok cursor ∧
      readElement c.der cursor = some ⟨some 0x30, start, finish⟩ ∧ info = sliceBytes c.der cursor finish := by
  obtain ⟨outer, tbs⟩ := opened short
  obtain ⟨first, start, finish, read, versioned⟩ := first_read short
  have same : (some first = some (0xa0 : UInt8)) ↔ c.version.isSome :=
    some_inj.trans versioned
  have walked : skipElements c.der (if some first = some (0xa0 : UInt8) then 5 else 4)
      (if some first = some (0xa0 : UInt8) then finish else some (c.fieldsStart : Int))
        = skipElements c.der (if c.version.isSome then 6 else 4) (some (c.fieldsStart : Int)) := by
    by_cases v : c.version.isSome = true
    · have next : skipElements c.der 6 (some (c.fieldsStart : Int))
          = skipElements c.der 5 finish := by
        rw [skipElements, read]
      rw [if_pos (same.mpr v), if_pos (same.mpr v), if_pos v, next]
    · rw [if_neg (fun h => v (same.mp h)), if_neg (fun h => v (same.mp h)), if_neg v]
  simp only [subjectPublicKeyInfo, outer, tbs, read, walked]
  constructor
  · intro h
    obtain ⟨cursor, skipped, h⟩ := ExceptRules.bind_ok.mp h
    split at h
    next start finish found => exact ⟨cursor, start, finish, skipped, found, (Except.ok.inj h).symm⟩
    next => cases h
  · rintro ⟨cursor, start, finish, skipped, found, rfl⟩
    refine ExceptRules.bind_ok.mpr ⟨cursor, skipped, ?_⟩
    simp only [found]

omit short in
theorem info_at : Der.At c.der (c.fieldsStart + (CertificateFields.encoded c.leading).length)
    (Der.element 0x30 c.infoContent) := c.fields_at.right.left

theorem slice_iff {place : Nat} (stands : Der.At c.der place c.info)
    (ends : place + c.info.length < c.der.length) : sliceBytes c.der (some (place : Int)) (some
        (((place + Der.headerLength c.infoContent.length : Nat) : Int) + wrapped c.infoContent.length)) = c.info ↔
      c.infoContent.length < 2 ^ 31 ∨ c.der.length = 2 ^ 32 := by
  have size := der_size short
  have length := c.info_length
  have whole := stands.slice
  by_cases low : c.infoContent.length < 2 ^ 31
  · have finish : ((place + headerLength c.infoContent.length : Nat) : Int)
        + c.infoContent.length = ((place + c.info.length : Nat) : Int) := by omega
    rw [wrapped_low low, finish, sliceBytes_nat]
    exact iff_of_true whole (.inl low)
  · have six := headerLength_le_six (n := c.infoContent.length)
    have content := c.infoContent_length
    rw [wrapped_high (by omega) (by omega)]
    constructor
    · intro eq
      have lengths := congrArg List.length eq
      rw [sliceBytes_some, length_drop, length_take] at lengths
      right
      split at lengths
      next negative => omega
      next => omega
    · rintro (small | full)
      · exact absurd small low
      · have finish : (if ((place + headerLength c.infoContent.length : Nat) : Int)
            + ((c.infoContent.length : Int) - 2 ^ 32) < 0
            then (c.der.length + (((place + headerLength c.infoContent.length : Nat) : Int)
              + ((c.infoContent.length : Int) - 2 ^ 32))).toNat
            else (((place + headerLength c.infoContent.length : Nat) : Int)
              + ((c.infoContent.length : Int) - 2 ^ 32)).toNat) = place + c.info.length := by
          split
          next => omega
          next => omega
        rw [sliceBytes_some, finish]
        exact whole

theorem versioned_iff (versioned : c.version.isSome = true) :
    subjectPublicKeyInfo c.der = .ok c.info ↔ c.Readable := by
  have size := der_size short
  have room := c.rest_length
  have six : c.leading.length = 6 := by
    obtain ⟨version, eq⟩ := isSome_iff_exists.mp versioned
    rw [CertificateFields.leading, eq]
    rfl
  have stands := c.fields_at
  rw [subjectPublicKeyInfo_der short, if_pos versioned, ← six]
  by_cases small : ∀ field ∈ c.leading, field.2.length < 2 ^ 31
  · have skipped := skipElements_small c.leading small stands
    have behind := stands.right.end_le (by
      intro empty
      rw [empty] at room
      exact absurd room (by decide))
    have info := info_at (c := c)
    have six := headerLength_le_six (n := c.infoContent.length)
    have trailer := c.trailer_length
    rw [length_append, length_append] at behind
    have ends : c.fieldsStart + (CertificateFields.encoded c.leading).length + c.info.length
        < c.der.length := by omega
    have read := readElement_at info (by
      rw [c.info_length] at ends
      omega)
    have slice := slice_iff short info ends
    constructor
    · rintro ⟨cursor, start, finish, walked, found, eq⟩
      cases skipped.symm.trans walked
      cases read.symm.trans found
      exact ⟨versioned, short, small, slice.mp eq.symm⟩
    · rintro ⟨-, -, -, bound⟩
      exact ⟨_, _, _, skipped, read, (slice.mpr bound).symm⟩
  · obtain ⟨cursor, lost, skipped⟩ := skipElements_large size (by omega) c.leading small stands
    obtain ⟨start, read⟩ := readElement_lost c.der lost
    constructor
    · rintro ⟨cursor, start, finish, walked, found, -⟩
      cases skipped.symm.trans walked
      cases read.symm.trans found
    · rintro ⟨-, -, bounds, -⟩
      exact absurd bounds small

omit short in
theorem sets_ne_infoContent (name : List Bytes) : CertificateFields.sets name ≠ c.infoContent := by
  intro eq
  cases name with
  | nil =>
    have length := c.infoContent_length
    rw [← eq] at length
    exact absurd length (by decide)
  | cons set rest =>
    have head : some (0x31 : UInt8) = some 0x30 := congrArg head? eq
    exact absurd (some.inj head) (by decide)

theorem unversioned_ne (unversioned : c.version = none) : subjectPublicKeyInfo c.der ≠ .ok c.info := by
  have size := der_size short
  have room := c.rest_length
  obtain ⟨four, count, parts⟩ : ∃ four : List (UInt8 × Bytes), four.length = 4 ∧
      CertificateFields.encoded c.leading
        = CertificateFields.encoded four ++ element 0x30 (CertificateFields.sets c.subject) := by
    refine ⟨[(0x02, c.serialNumber), (0x30, c.signature), (0x30, CertificateFields.sets c.issuer),
      (0x30, c.validity)], rfl, ?_⟩
    simp only [CertificateFields.leading, unversioned, CertificateFields.unversioned,
      CertificateFields.encoded, flatMap_cons, flatMap_nil, append_nil,
      append_assoc]
  have stands := c.fields_at
  rw [parts, append_assoc] at stands
  have none : ¬(c.version.isSome = true) := by simp [unversioned]
  intro returned
  obtain ⟨cursor, start, finish, walked, found, eq⟩ := (subjectPublicKeyInfo_der short).mp returned
  rw [if_neg none, ← count] at walked
  by_cases small : ∀ field ∈ four, field.2.length < 2 ^ 31
  · have skipped := skipElements_small four small stands
    cases skipped.symm.trans walked
    have key : At c.der (c.fieldsStart + (CertificateFields.encoded four).length)
        (element 0x30 c.infoContent) := by
      have piece := sliceBytes_prefix c.der
        (c.fieldsStart + (CertificateFields.encoded four).length) finish
      rw [← eq] at piece
      exact piece
    have subject := stands.right.left
    have subject_end := subject.end_le (cons_ne_nil _ _)
    have key_end := key.end_le (cons_ne_nil _ _)
    rw [element_length] at subject_end key_end
    exact c.sets_ne_infoContent c.subject (subject.unique key (by omega) (by omega)).2
  · have more : 8 ≤ (element 0x30 (CertificateFields.sets c.subject)
        ++ (c.info ++ (c.extra ++ c.trailer))).length := by
      rw [length_append]
      omega
    obtain ⟨lost_cursor, lost, skipped⟩ := skipElements_large size more four small stands
    obtain ⟨start, read⟩ := readElement_lost c.der lost
    cases skipped.symm.trans walked
    cases read.symm.trans found

end short

theorem subjectPublicKeyInfo_iff : subjectPublicKeyInfo c.der = .ok c.info ↔ c.Readable := by
  by_cases short : c.content.length < 2 ^ 32
  · by_cases versioned : c.version.isSome = true
    · exact versioned_iff short versioned
    · refine iff_of_false (unversioned_ne short ?_) fun readable => versioned readable.1
      simpa using versioned
  · have refused := readElement_long c.der_at c.encodable (by omega)
    have start : ((0 : Nat) : Int) = 0 := rfl
    rw [start] at refused
    refine iff_of_false ?_ fun readable => short readable.2.1
    simp [subjectPublicKeyInfo, refused]

end Certificate

theorem Base64.Lawful.encode_injective {base64 : Base64} (lawful : base64.Lawful) {a b : Bytes}
    (h : base64.encode a = base64.encode b) : a = b := by
  have back := lawful.round_trip a
  rw [h, lawful.round_trip] at back
  exact (Except.ok.inj back).symm

/-- The extraction returns the DER of the key for exactly the certificates with a version whose
lengths are not too long. -/
theorem certificate_key_exact {base64 : Base64} (lawful : base64.Lawful) (c : Certificate)
    {attributes : List Attribute} (object : findAttribute attributes AttributeType.Value = some c.der) :
    certificatePublicKey base64 attributes = .ok (base64.encode c.info) ↔ c.Readable := by
  rw [certificatePublicKey_eq base64 object, ← c.subjectPublicKeyInfo_iff]
  constructor
  · intro h
    obtain ⟨info, extracted, eq⟩ := ExceptRules.map_ok h
    rw [extracted, lawful.encode_injective eq]
  · intro h
    rw [h]
    rfl

def ED25519_ALGORITHM : Bytes := [0x06, 0x03, 0x2b, 0x65, 0x70]

/-- A certificate of the common name `a`. -/
def selfSigned (version : Option Bytes) : CertificateFields where
  version := version
  serialNumber := [0x01]
  signature := ED25519_ALGORITHM
  issuer := [[0x30, 0x08, 0x06, 0x03, 0x55, 0x04, 0x03, 0x0c, 0x01, 0x61]]
  validity := (Der.element 0x17 (List.replicate 12 0x30 ++ [0x5a])) ++
    (Der.element 0x17 (List.replicate 12 0x31 ++ [0x5a]))
  subject := [[0x30, 0x08, 0x06, 0x03, 0x55, 0x04, 0x03, 0x0c, 0x01, 0x61]]
  algorithm := ED25519_ALGORITHM
  publicKey := 0x00 :: List.replicate 32 0x07
  extra := []
  signatureAlgorithm := ED25519_ALGORITHM
  signatureValue := 0x00 :: List.replicate 64 0x09

def versionless : Certificate := ⟨selfSigned none, by decide +kernel⟩

def third : Certificate := ⟨selfSigned (some [0x02]), by decide +kernel⟩

theorem certificate_key_third : certificatePublicKey rfcBase64 [⟨AttributeType.Value, third.der, true⟩]
      = .ok (rfcBase64.encode third.info) :=
  (certificate_key_exact rfcBase64_lawful third rfl).mpr (by decide +kernel)

theorem certificate_key_versionless :
    certificatePublicKey rfcBase64 [⟨AttributeType.Value, versionless.der, true⟩]
        = .ok (rfcBase64.encode (Der.element 0x30 (CertificateFields.sets versionless.subject))) ∧
      certificatePublicKey rfcBase64 [⟨AttributeType.Value, versionless.der, true⟩]
        ≠ .ok (rfcBase64.encode versionless.info) := by
  constructor
  · decide +kernel
  · decide +kernel

end ForgeDeno
