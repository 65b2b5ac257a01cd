import ForgeDeno.DerReader

namespace ForgeDeno

open List Option

def passed (certificate : Bytes) : Nat → Position → List Position
  | 0, cursor => [cursor]
  | n + 1, cursor =>
    match readElement certificate cursor with
    | none => [cursor]
    | some element => cursor :: passed certificate n element.finish

/-- Every value that `cursor` takes in `subjectPublicKeyInfo`. -/
def cursors (certificate : Bytes) : List Position :=
  match readElement certificate (some 0) with
  | some ⟨some 0x30, outer, _⟩ =>
    match readElement certificate outer with
    | some ⟨some 0x30, tbs, _⟩ =>
      match readElement certificate tbs with
      | none => [tbs]
      | some first =>
        if first.tag = some 0xa0 then tbs :: passed certificate 5 first.finish
        else passed certificate 4 tbs
    | _ => []
  | _ => []

def NotBack (before after : Position) : Prop :=
  ∃ i j : Int, before = some i ∧ after = some j ∧ i ≤ j

inductive Behind (bytes : Bytes) : Nat → Nat → Nat → Prop
  | here (place : Nat) : Behind bytes 0 place place
  | next {n offset place : Nat} {header : Der.Header} : Standing bytes offset header →
      Behind bytes n header.finish place → Behind bytes (n + 1) offset place

structure Walk (bytes : Bytes) (outer tbs first key : Der.Header) (place : Nat) : Prop where
  outer_stands : Standing bytes 0 outer
  outer_sequence : bytes[0]? = some 0x30
  tbs_stands : Standing bytes outer.start tbs
  tbs_sequence : bytes[outer.start]? = some 0x30
  first_stands : Standing bytes tbs.start first
  fields : if bytes[tbs.start]? = some 0xa0 then Behind bytes 5 first.finish place
    else Behind bytes 4 tbs.start place
  key_stands : Standing bytes place key
  key_sequence : bytes[place]? = some 0x30

def Overrun (bytes : Bytes) : Prop :=
  ∃ outer tbs first key place, Walk bytes outer tbs first key place ∧ outer.finish < key.finish

/-- What the extraction owes for a byte string: a failure of the module or a non-empty slice
of the outer SEQUENCE, and a cursor that only goes forward. -/
def KeyInside (base64 : Base64) (bytes : Bytes) : Prop :=
  (cursors bytes).Pairwise NotBack ∧
    ∀ attributes, findAttribute attributes AttributeType.Value = some bytes →
      (∃ failure, certificatePublicKey base64 attributes = .error failure ∧
          failure.name = js "Pkcs11Error") ∨
        ∃ (outer : DerElement) (low high : Int) (start finish : Nat),
          readElement bytes (some 0) = some outer ∧ outer.start = some low ∧
            outer.finish = some high ∧ (cursors bytes).getLast? = some (some (start : Int)) ∧
            low ≤ start ∧ start < finish ∧ finish ≤ high ∧
            certificatePublicKey base64 attributes = .ok (base64.encode ((bytes.take finish).drop start))

theorem Standing.order {bytes : Bytes} {offset : Nat} {header : Der.Header}
    (h : Standing bytes offset header) : offset + 2 ≤ header.start ∧ header.start ≤ header.finish :=
  ⟨(Der.readHeader_start h.read).1, Nat.le_add_right _ _⟩

theorem Standing.unique {bytes : Bytes} {offset : Nat} {header header' : Der.Header}
    (h : Standing bytes offset header) (h' : Standing bytes offset header') : header = header' :=
  some.inj (h.read.symm.trans h'.read)

theorem Behind.le {bytes : Bytes} {n offset place : Nat} (h : Behind bytes n offset place) : offset ≤ place := by
  induction h with
  | here place => exact Nat.le_refl _
  | next standing _ ih =>
    have order := standing.order
    omega

theorem Walk.le {bytes : Bytes} {outer tbs first key : Der.Header} {place : Nat}
    (h : Walk bytes outer tbs first key place) : outer.start ≤ place := by
  have tbs_order := h.tbs_stands.order
  have first_order := h.first_stands.order
  have fields := h.fields
  by_cases versioned : bytes[tbs.start]? = some 0xa0
  · rw [if_pos versioned] at fields
    have le := fields.le
    omega
  · rw [if_neg versioned] at fields
    have le := fields.le
    omega

theorem sliceBytes_nat (bytes : Bytes) (start finish : Nat) :
    sliceBytes bytes (some (start : Int)) (some (finish : Int)) = (bytes.take finish).drop start := by
  have positive (n : Nat) : ¬(n : Int) < 0 := by omega
  simp only [sliceBytes, if_neg (positive _), Int.toNat_natCast]

section plain

variable {bytes : Bytes} (plain : ∀ offset, ¬NegativeLength bytes offset)
include plain

theorem skipElements_ok (n : Nat) (offset : Nat) {cursor : Position} :
    skipElements bytes n (some (offset : Int)) = .ok cursor ↔
      ∃ place : Nat, cursor = some (place : Int) ∧ Behind bytes n offset place := by
  induction n generalizing offset with
  | zero =>
    constructor
    · intro h
      exact ⟨offset, (Except.ok.inj h).symm, .here offset⟩
    · rintro ⟨place, rfl, ⟨⟩⟩
      rfl
  | succ n ih =>
    constructor
    · intro h
      rw [skipElements] at h
      split at h
      next => cases h
      next element read =>
        obtain ⟨header, standing, rfl⟩ := (readElement_some (plain offset)).mp read
        obtain ⟨place, eq, behind⟩ := (ih header.finish).mp h
        exact ⟨place, eq, .next standing behind⟩
    · rintro ⟨place, rfl, ⟨⟩ | ⟨standing, behind⟩⟩
      have read := (readElement_some (plain offset)).mpr ⟨_, standing, rfl⟩
      rw [skipElements, read]
      exact (ih _).mpr ⟨place, rfl, behind⟩

theorem passed_forward (n : Nat) (offset : Nat) : (passed bytes n (some (offset : Int))).Pairwise NotBack ∧
      ∀ position ∈ passed bytes n (some (offset : Int)),
        ∃ place : Nat, position = some (place : Int) ∧ offset ≤ place := by
  induction n generalizing offset with
  | zero => simp [passed]
  | succ n ih =>
    rw [passed]
    split
    next => simp
    next element read =>
      obtain ⟨header, standing, rfl⟩ := (readElement_some (plain offset)).mp read
      have order := standing.order
      obtain ⟨forward, later⟩ := ih header.finish
      have ahead : ∀ position ∈ passed bytes n (some (header.finish : Int)),
          ∃ place : Nat, position = some (place : Int) ∧ offset ≤ place := by
        intro position mem
        obtain ⟨place, eq, le⟩ := later position mem
        exact ⟨place, eq, by omega⟩
      constructor
      · refine pairwise_cons.mpr ⟨?_, forward⟩
        intro position mem
        obtain ⟨place, rfl, le⟩ := ahead position mem
        exact ⟨offset, place, rfl, rfl, by omega⟩
      · intro position mem
        rcases mem_cons.mp mem with rfl | mem
        · exact ⟨offset, rfl, Nat.le_refl _⟩
        · exact ahead position mem

theorem passed_last {n offset place : Nat} (h : Behind bytes n offset place) :
    (passed bytes n (some (offset : Int))).getLast? = some (some (place : Int)) := by
  induction h with
  | here place => rfl
  | next standing behind ih =>
    have read := (readElement_some (plain _)).mpr ⟨_, standing, rfl⟩
    rw [passed, read]
    simp only [Standing.element]
    rw [getLast?_cons, ih, getD_some]

theorem fields_ok (tbs first : Der.Header) {cursor : Position} :
    skipElements bytes (if bytes[tbs.start]? = some 0xa0 then 5 else 4)
        (if bytes[tbs.start]? = some 0xa0 then some (first.finish : Int)
          else some (tbs.start : Int)) = .ok cursor ↔ ∃ place : Nat, cursor = some (place : Int) ∧
        if bytes[tbs.start]? = some 0xa0 then Behind bytes 5 first.finish place
        else Behind bytes 4 tbs.start place := by
  by_cases versioned : bytes[tbs.start]? = some 0xa0
  · simp only [if_pos versioned]
    exact skipElements_ok plain 5 first.finish
  · simp only [if_neg versioned]
    exact skipElements_ok plain 4 tbs.start

theorem read_sequence {offset : Nat} {start finish : Position}
    (h : readElement bytes (some (offset : Int)) = some ⟨some 0x30, start, finish⟩) :
    ∃ header, Standing bytes offset header ∧ bytes[offset]? = some 0x30 ∧
      start = some (header.start : Int) ∧ finish = some (header.finish : Int) := by
  obtain ⟨header, standing, eq⟩ := (readElement_some (plain offset)).mp h
  injection eq with tag start finish
  exact ⟨header, standing, tag.symm, start, finish⟩

theorem read_sequence_zero {start finish : Position}
    (h : readElement bytes (some 0) = some ⟨some 0x30, start, finish⟩) :
    ∃ header, Standing bytes 0 header ∧ bytes[0]? = some 0x30 ∧
      start = some (header.start : Int) ∧ finish = some (header.finish : Int) :=
  read_sequence plain h

theorem sequence_read {offset : Nat} {header : Der.Header} (standing : Standing bytes offset header)
    (tag : bytes[offset]? = some 0x30) : readElement bytes (some (offset : Int))
      = some ⟨some 0x30, some (header.start : Int), some (header.finish : Int)⟩ := by
  have read := (readElement_some (plain offset)).mpr ⟨header, standing, rfl⟩
  rw [read, Standing.element, tag]

theorem subjectPublicKeyInfo_ok {info : Bytes} :
    subjectPublicKeyInfo bytes = .ok info ↔ ∃ outer tbs first key place,
      Walk bytes outer tbs first key place ∧ info = (bytes.take key.finish).drop place := by
  constructor
  · intro h
    unfold subjectPublicKeyInfo at h
    split at h
    next start finish read =>
      obtain ⟨outer, outer_stands, outer_tag, rfl, rfl⟩ := read_sequence_zero plain read
      split at h
      next start finish read =>
        obtain ⟨tbs, tbs_stands, tbs_tag, rfl, rfl⟩ := read_sequence plain read
        split at h
        next => cases h
        next first read =>
          obtain ⟨first, first_stands, rfl⟩ := (readElement_some (plain _)).mp read
          obtain ⟨cursor, skipped, h⟩ := ExceptRules.bind_ok.mp h
          obtain ⟨place, rfl, fields⟩ := (fields_ok plain tbs first).mp skipped
          split at h
          next start finish read =>
            obtain ⟨key, key_stands, key_tag, rfl, rfl⟩ := read_sequence plain read
            rw [sliceBytes_nat] at h
            exact ⟨outer, tbs, first, key, place, ⟨outer_stands, outer_tag, tbs_stands, tbs_tag,
              first_stands, fields, key_stands, key_tag⟩, (Except.ok.inj h).symm⟩
          next => cases h
      next => cases h
    next => cases h
  · rintro ⟨outer, tbs, first, key, place, walk, rfl⟩
    have outer_read := sequence_read plain walk.outer_stands walk.outer_sequence
    have tbs_read := sequence_read plain walk.tbs_stands walk.tbs_sequence
    have first_read := (readElement_some (plain _)).mpr ⟨first, walk.first_stands, rfl⟩
    have key_read := sequence_read plain walk.key_stands walk.key_sequence
    have skipped := (fields_ok plain tbs first).mpr ⟨place, rfl, walk.fields⟩
    have start : (some 0 : Position) = some ((0 : Nat) : Int) := rfl
    simp only [subjectPublicKeyInfo, start, outer_read, tbs_read, first_read]
    refine ExceptRules.bind_ok.mpr ⟨some (place : Int), skipped, ?_⟩
    simp only [key_read]
    rw [sliceBytes_nat]

theorem cursors_forward : (cursors bytes).Pairwise NotBack := by
  unfold cursors
  split
  next start finish read =>
    obtain ⟨outer, outer_stands, -, rfl, rfl⟩ := read_sequence_zero plain read
    split
    next start finish read =>
      obtain ⟨tbs, tbs_stands, -, rfl, rfl⟩ := read_sequence plain read
      split
      next => exact pairwise_singleton _ _
      next first read =>
        obtain ⟨first, first_stands, rfl⟩ := (readElement_some (plain _)).mp read
        have order := first_stands.order
        split
        next =>
          obtain ⟨forward, later⟩ := passed_forward plain 5 first.finish
          refine pairwise_cons.mpr ⟨?_, forward⟩
          intro position mem
          obtain ⟨place, rfl, le⟩ := later position mem
          exact ⟨tbs.start, place, rfl, rfl, by omega⟩
        next => exact (passed_forward plain 4 tbs.start).1
    next => exact List.Pairwise.nil
  next => exact List.Pairwise.nil

theorem cursors_last {outer tbs first key : Der.Header} {place : Nat}
    (walk : Walk bytes outer tbs first key place) : (cursors bytes).getLast? = some (some (place : Int)) := by
  have outer_read := sequence_read plain walk.outer_stands walk.outer_sequence
  have tbs_read := sequence_read plain walk.tbs_stands walk.tbs_sequence
  have first_read := (readElement_some (plain _)).mpr ⟨first, walk.first_stands, rfl⟩
  have start : (some 0 : Position) = some ((0 : Nat) : Int) := rfl
  have fields := walk.fields
  simp only [cursors, start, outer_read, tbs_read, first_read, Standing.element]
  by_cases versioned : bytes[tbs.start]? = some 0xa0
  · rw [if_pos versioned] at fields ⊢
    rw [getLast?_cons, passed_last plain fields, getD_some]
  · rw [if_neg versioned] at fields ⊢
    exact passed_last plain fields

end plain

theorem skipElements_fails (certificate : Bytes) (n : Nat) (cursor : Position) :
    ExceptRules.FailsWith (fun e : TokenFailure => e.name = js "Pkcs11Error")
      (skipElements certificate n cursor) := by
  induction n generalizing cursor with
  | zero => exact .ok _
  | succ n ih =>
    rw [skipElements]
    split
    next => exact .error rfl
    next element _ => exact ih _

theorem subjectPublicKeyInfo_fails (certificate : Bytes) :
    ExceptRules.FailsWith (fun e : TokenFailure => e.name = js "Pkcs11Error")
      (subjectPublicKeyInfo certificate) := by
  unfold subjectPublicKeyInfo
  split
  next =>
    split
    next =>
      split
      next => exact .error rfl
      next =>
        refine (skipElements_fails _ _ _).bind fun cursor _ => ?_
        split
        next => exact .ok _
        next => exact .error rfl
    next => exact .error rfl
  next => exact .error rfl

theorem certificatePublicKey_eq (base64 : Base64) {attributes : List Attribute} {bytes : Bytes}
    (h : findAttribute attributes AttributeType.Value = some bytes) : certificatePublicKey base64 attributes
      = (subjectPublicKeyInfo bytes).map base64.encode := by
  have found : attributeOr attributes AttributeType.Value
      (js "pkcs11: certificate object has no CKA_VALUE") = .ok bytes := by
    rw [attributeOr, h]
  have run : certificatePublicKey base64 attributes
      = subjectPublicKeyInfo bytes >>= fun info => pure (base64.encode info) := by
    rw [certificatePublicKey, found]
    rfl
  rw [run]
  cases subjectPublicKeyInfo bytes <;> rfl

theorem keyInside_iff {base64 : Base64} (lawful : base64.Lawful) {bytes : Bytes}
    (plain : ∀ offset, ¬NegativeLength bytes offset) : KeyInside base64 bytes ↔ ¬Overrun bytes := by
  constructor
  · rintro ⟨-, inside⟩ ⟨outer, tbs, first, key, place, walk, past⟩
    have object : findAttribute [⟨AttributeType.Value, bytes, true⟩] AttributeType.Value
        = some bytes := rfl
    have extracted := certificatePublicKey_eq base64 object
    rw [(subjectPublicKeyInfo_ok plain).mpr ⟨outer, tbs, first, key, place, walk, rfl⟩] at extracted
    rcases inside _ object with ⟨failure, fails, -⟩ | ⟨element, low, high, start, finish, read,
      hlow, hhigh, last, le, lt, ge, returned⟩
    · cases extracted.symm.trans fails
    · obtain ⟨header, standing, rfl⟩ := (readElement_some (plain 0)).mp read
      cases standing.unique walk.outer_stands
      have high_eq := some.inj hhigh
      have same_place := some.inj (some.inj (last.symm.trans (cursors_last plain walk)))
      have texts := Except.ok.inj (returned.symm.trans extracted)
      have slices : (bytes.take finish).drop start = (bytes.take key.finish).drop place := by
        have back := lawful.round_trip ((bytes.take finish).drop start)
        rw [texts, lawful.round_trip] at back
        exact (Except.ok.inj back).symm
      have lengths := congrArg List.length slices
      have key_inside := walk.key_stands.inside
      have key_order := walk.key_stands.order
      simp only [length_drop, length_take] at lengths
      omega
  · intro bounded
    refine ⟨cursors_forward plain, ?_⟩
    intro attributes object
    rw [certificatePublicKey_eq base64 object]
    cases result : subjectPublicKeyInfo bytes with
    | error failure => exact .inl ⟨failure, rfl, subjectPublicKeyInfo_fails bytes failure result⟩
    | ok info =>
      obtain ⟨outer, tbs, first, key, place, walk, rfl⟩ := (subjectPublicKeyInfo_ok plain).mp result
      have read := sequence_read plain walk.outer_stands walk.outer_sequence
      have order := walk.key_stands.order
      have le := walk.le
      have within : key.finish ≤ outer.finish := by
        by_contra past
        exact bounded ⟨outer, tbs, first, key, place, walk, by omega⟩
      exact .inr ⟨_, outer.start, outer.finish, place, key.finish, read, rfl, rfl,
        cursors_last plain walk, by omega, by omega, by omega, rfl⟩

/-- The reader and the extraction keep their bounds for exactly the byte strings without a
negative length whose walk stays inside the outer SEQUENCE. -/
theorem der_bounds {base64 : Base64} (lawful : base64.Lawful) (bytes : Bytes) :
    (∀ offset, ElementBounded bytes offset) ∧ KeyInside base64 bytes ↔
      (∀ offset, ¬NegativeLength bytes offset) ∧ ¬Overrun bytes := by
  have reader : (∀ offset, ElementBounded bytes offset) ↔ ∀ offset, ¬NegativeLength bytes offset :=
    forall_congr' (elementBounded_iff bytes)
  constructor
  · rintro ⟨bounded, inside⟩
    have plain := reader.mp bounded
    exact ⟨plain, (keyInside_iff lawful plain).mp inside⟩
  · rintro ⟨plain, within⟩
    exact ⟨reader.mpr plain, (keyInside_iff lawful plain).mpr within⟩

/-- A self-signed certificate of an Ed25519 key. -/
def edwardsCertificate : Bytes := [
  0x30, 0x81, 0xc3, 0x30, 0x77, 0xa0, 0x03, 0x02, 0x01, 0x02, 0x02, 0x01, 0x01, 0x30, 0x05, 0x06,
  0x03, 0x2b, 0x65, 0x70, 0x30, 0x0c, 0x31, 0x0a, 0x30, 0x08, 0x06, 0x03, 0x55, 0x04, 0x03, 0x0c,
  0x01, 0x61, 0x30, 0x1e, 0x17, 0x0d, 0x30, 0x30, 0x30, 0x30, 0x30, 0x30, 0x30, 0x30, 0x30, 0x30,
  0x30, 0x30, 0x5a, 0x17, 0x0d, 0x31, 0x31, 0x31, 0x31, 0x31, 0x31, 0x31, 0x31, 0x31, 0x31, 0x31,
  0x31, 0x5a, 0x30, 0x0c, 0x31, 0x0a, 0x30, 0x08, 0x06, 0x03, 0x55, 0x04, 0x03, 0x0c, 0x01, 0x61,
  0x30, 0x2a, 0x30, 0x05, 0x06, 0x03, 0x2b, 0x65, 0x70, 0x03, 0x21, 0x00, 0x07, 0x07, 0x07, 0x07,
  0x07, 0x07, 0x07, 0x07, 0x07, 0x07, 0x07, 0x07, 0x07, 0x07, 0x07, 0x07, 0x07, 0x07, 0x07, 0x07,
  0x07, 0x07, 0x07, 0x07, 0x07, 0x07, 0x07, 0x07, 0x07, 0x07, 0x07, 0x07, 0x30, 0x05, 0x06, 0x03,
  0x2b, 0x65, 0x70, 0x03, 0x41, 0x00, 0x09, 0x09, 0x09, 0x09, 0x09, 0x09, 0x09, 0x09, 0x09, 0x09,
  0x09, 0x09, 0x09, 0x09, 0x09, 0x09, 0x09, 0x09, 0x09, 0x09, 0x09, 0x09, 0x09, 0x09, 0x09, 0x09,
  0x09, 0x09, 0x09, 0x09, 0x09, 0x09, 0x09, 0x09, 0x09, 0x09, 0x09, 0x09, 0x09, 0x09, 0x09, 0x09,
  0x09, 0x09, 0x09, 0x09, 0x09, 0x09, 0x09, 0x09, 0x09, 0x09, 0x09, 0x09, 0x09, 0x09, 0x09, 0x09,
  0x09, 0x09, 0x09, 0x09, 0x09, 0x09]

theorem Standing.is {bytes : Bytes} {offset : Nat} {header : Der.Header} (stands : Standing bytes offset header)
    (known : Der.Header) (read : Der.readHeader bytes offset = some known) : header = known :=
  Option.some.inj (stands.read.symm.trans read)

theorem Behind.pass {bytes : Bytes} {n offset place : Nat} (behind : Behind bytes (n + 1) offset place)
    (known : Der.Header) (read : Der.readHeader bytes offset = some known) :
    Behind bytes n known.finish place := by
  cases behind with
  | next stands rest => exact stands.is known read ▸ rest

theorem der_bounds_certificate : (∀ offset, ElementBounded edwardsCertificate offset) ∧
    KeyInside rfcBase64 edwardsCertificate := by
  refine (der_bounds rfcBase64_lawful _).mpr ⟨?_, ?_⟩
  · rintro offset ⟨mark, -⟩
    have mem := List.mem_of_getElem? mark
    revert mem
    decide +kernel
  · rintro ⟨outer, tbs, first, key, place, walk, past⟩
    have outer_is := walk.outer_stands.is ⟨3, 195⟩ (by decide +kernel)
    subst outer_is
    have tbs_is := walk.tbs_stands.is ⟨5, 119⟩ (by decide +kernel)
    subst tbs_is
    have first_is := walk.first_stands.is ⟨7, 3⟩ (by decide +kernel)
    subst first_is
    have fields := walk.fields
    rw [if_pos (by decide +kernel)] at fields
    have serialNumber := fields.pass ⟨12, 1⟩ (by decide +kernel)
    have signature := serialNumber.pass ⟨15, 5⟩ (by decide +kernel)
    have issuer := signature.pass ⟨22, 12⟩ (by decide +kernel)
    have validity := issuer.pass ⟨36, 30⟩ (by decide +kernel)
    have subject := validity.pass ⟨68, 12⟩ (by decide +kernel)
    cases subject
    have key_is := walk.key_stands.is ⟨82, 42⟩ (by decide +kernel)
    subst key_is
    revert past
    decide

def negativeKey : Bytes :=
  [0x30, 0x14, 0x30, 0x12, 0xa0, 0x00, 0x02, 0x00, 0x30, 0x00, 0x30, 0x00, 0x30, 0x00, 0x30, 0x00,
    0x30, 0x84, 0xff, 0xff, 0xff, 0xfa]

/-- Its element ends where it began, and its public key is the empty text. -/
theorem negativeKey_unbounded : readElement negativeKey (some 16) = some ⟨some 0x30, some 22, some 16⟩ ∧
      certificatePublicKey rfcBase64 [⟨AttributeType.Value, negativeKey, true⟩] = .ok [] ∧
      ¬((∀ offset, ElementBounded negativeKey offset) ∧ KeyInside rfcBase64 negativeKey) := by
  refine ⟨rfl, rfl, ?_⟩
  rintro ⟨bounded, -⟩
  exact (elementBounded_iff negativeKey 16).mp (bounded 16) (by decide)

end ForgeDeno
