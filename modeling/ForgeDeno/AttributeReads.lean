import ForgeDeno.BigintNumbers
import ForgeDeno.ExceptRules
import ForgeDeno.TokenOperations

namespace ForgeDeno

open List Option

def UNAVAILABLE_INFORMATION : UInt64 := 0xffffffffffffffff

namespace ReturnValue

def Ok : UInt64 := 0x00000000
def AttributeSensitive : UInt64 := 0x00000011
def AttributeTypeInvalid : UInt64 := 0x00000012

def tolerated : List UInt64 := [Ok, AttributeSensitive, AttributeTypeInvalid]

end ReturnValue

/-- A `CK_ATTRIBUTE` as it is passed to `C_GetAttributeValue`: `buffer` is how many bytes there are at
`pValue`, if that is not null. -/
structure TemplateEntry where
  type : Nat
  buffer : Option Nat
  length : UInt64

/-- What the token does to one entry: the `ulValueLen` it writes, if it writes one, and the bytes it
puts into the buffer. -/
structure EntryWrite where
  length : Option UInt64
  bytes : Bytes

/-- An answer of `C_GetAttributeValue`; entries beyond the list are left alone. -/
structure ValueAnswer where
  code : UInt64
  writes : List EntryWrite

def ValueAnswer.at (answer : ValueAnswer) (i : Nat) : EntryWrite :=
  answer.writes.getD i { length := none, bytes := [] }

/-- One call of `C_GetAttributeValue` on the object. -/
abbrev ValueCall := List TemplateEntry → ValueAnswer

def rangeError (size : Nat) : TokenFailure :=
  { name := js "RangeError",
    message := js "Invalid typed array length: " ++ JsonText.numberText (.ofInt size) }

namespace FfiModule

def sizes (types : List Nat) : List TemplateEntry :=
  types.map fun type => { type, buffer := none, length := 0 }

/-- `ulValueLen` of an entry after a call. -/
def lengthAfter (entry : TemplateEntry) (write : EntryWrite) : UInt64 := write.length.getD entry.length

/-- The entry of the second call for what the first has left; `limit` is the longest array that the
engine allocates. -/
def offer (limit : Nat) (type : Nat) (length : UInt64) : Except TokenFailure TemplateEntry :=
  if length = UNAVAILABLE_INFORMATION then
    .ok { type, buffer := none, length := UNAVAILABLE_INFORMATION }
  else
    let size := numberOfBigint length.toNat
    if size ≤ limit ∧ size < 2 ^ 53 then
      .ok { type, buffer := some (max size 1), length := size.toUInt64 }
    else .error (rangeError size)

def fill (limit : Nat) (first : ValueCall) (types : List Nat) : Except TokenFailure (List TemplateEntry) :=
  (sizes types).zipIdx.mapM fun (entry, i) =>
    offer limit entry.type (lengthAfter entry ((first (sizes types)).at i))

def bufferAfter (entry : TemplateEntry) (write : EntryWrite) : Bytes :=
  match entry.buffer with
  | none => [0]
  | some size => write.bytes.take size ++ List.replicate (size - write.bytes.length) 0

def report (entry : TemplateEntry) (write : EntryWrite) : Attribute :=
  let length := lengthAfter entry write
  if length = UNAVAILABLE_INFORMATION then { type := entry.type, value := [], present := false }
  else
    { type := entry.type, value := (bufferAfter entry write).take (numberOfBigint length.toNat), present := true }

def wanted (template : List TemplateEntry) : Bool := template.any fun entry => entry.buffer.isSome

def fillAnswer (second : ValueCall) (template : List TemplateEntry) : ValueAnswer :=
  if wanted template then second template else { code := ReturnValue.Ok, writes := [] }

/-- `getAttributes` on a token that answers the two calls with `first` and `second`. -/
def getAttributes (limit : Nat) (first second : ValueCall) (types : List Nat) :
    Except TokenFailure (List Attribute) := do
  let template ← fill limit first types
  return template.zipIdx.map fun (entry, i) => report entry ((fillAnswer second template).at i)

def codes (limit : Nat) (first second : ValueCall) (types : List Nat) : List UInt64 :=
  (first (sizes types)).code :: match fill limit first types with
    | .ok template => if wanted template then [(second template).code] else []
    | .error _ => []

end FfiModule

def clearing (present : List Attribute) : List Attribute :=
  (DEACTIVATABLE_ATTRIBUTES.filter fun type => hasAttribute present type).map fun type =>
    boolAttribute type false

namespace FfiModule

def Delivered (entry : TemplateEntry) (write : EntryWrite) : Prop :=
  entry.buffer.isSome = true ∧ ∃ length, write.length = some length ∧
    length ≠ UNAVAILABLE_INFORMATION ∧ length ≤ entry.length

/-- What the second call may do to an entry: where no buffer was offered it leaves `-1`, and into a
buffer that was offered it says `-1` or a length that fits. -/
def Settled (entry : TemplateEntry) (write : EntryWrite) : Prop :=
  match entry.buffer, write.length with
  | none, none => True
  | none, some length => length = UNAVAILABLE_INFORMATION
  | some _, none => False
  | some _, some length => length = UNAVAILABLE_INFORMATION ∨ length ≤ entry.length

section reads

variable (limit : Nat) (first second : ValueCall) (types : List Nat)

def DeliveredType (type : Nat) : Prop :=
  ∃ template, fill limit first types = .ok template ∧ ∃ i entry, template[i]? = some entry ∧
    entry.type = type ∧ Delivered entry ((fillAnswer second template).at i)

/-- A read hides no failure: the code of a failed call is thrown, only what the token has given is
reported as present, and only that is cleared. -/
structure ReadsFaithfully : Prop where
  failure : (∃ code ∈ codes limit first second types, code ∉ ReturnValue.tolerated) →
    ∃ e, getAttributes limit first second types = .error e ∧
      ∃ code ∈ codes limit first second types, code ∉ ReturnValue.tolerated ∧ e.code = some code.toNat
  present : ∀ attributes, getAttributes limit first second types = .ok attributes →
    ∀ template, fill limit first types = .ok template → ∀ i told, attributes[i]? = some told →
      told.present = true → ∃ entry, template[i]? = some entry ∧ entry.type = told.type ∧
        Delivered entry ((fillAnswer second template).at i)
  cleared : ∀ attributes, getAttributes limit first second types = .ok attributes →
    ∀ cleared ∈ clearing attributes, DeliveredType limit first second types cleared.type

structure AnswersFully : Prop where
  tolerated : ∀ code ∈ codes limit first second types, code ∈ ReturnValue.tolerated
  settled : ∀ template, fill limit first types = .ok template → ∀ i entry, template[i]? = some entry →
    Settled entry ((fillAnswer second template).at i)

end reads

section entries

variable {limit type : Nat} {length : UInt64} {entry : TemplateEntry} {write : EntryWrite}

theorem offer_ok (offered : offer limit type length = .ok entry) : entry.type = type ∧
    ((entry.buffer = none ∧ entry.length = UNAVAILABLE_INFORMATION) ∨
      (entry.buffer.isSome = true ∧ entry.length ≠ UNAVAILABLE_INFORMATION)) := by
  unfold offer at offered
  dsimp only at offered
  split_ifs at offered with unavailable fits
  · cases offered
    exact ⟨rfl, .inl ⟨rfl, rfl⟩⟩
  · cases offered
    refine ⟨rfl, .inr ⟨rfl, ?_⟩⟩
    intro same
    have value := congrArg UInt64.toNat same
    have whole : (numberOfBigint length.toNat).toUInt64.toNat = numberOfBigint length.toNat := by
      rw [Nat.toUInt64_eq, UInt64.toNat_ofNat']
      omega
    have top : UNAVAILABLE_INFORMATION.toNat = 2 ^ 64 - 1 := by decide
    rw [whole, top] at value
    omega

theorem report_present : (report entry write).present = true ↔
    lengthAfter entry write ≠ UNAVAILABLE_INFORMATION := by
  unfold report
  dsimp only
  split_ifs with unavailable
  · simp [unavailable]
  · simp [unavailable]

theorem report_type : (report entry write).type = entry.type := by
  unfold report
  dsimp only
  split_ifs <;> rfl

theorem settled_iff (offered : offer limit type length = .ok entry) : Settled entry write ↔
    ((report entry write).present = true → Delivered entry write) := by
  rw [report_present]
  unfold Settled Delivered lengthAfter
  rcases (offer_ok offered).2 with ⟨none_offered, unavailable⟩ | ⟨some_offered, available⟩
  · rw [none_offered, unavailable]
    cases write.length with
    | none => simp
    | some written => simp
  · obtain ⟨size, buffer⟩ := isSome_iff_exists.mp some_offered
    rw [buffer]
    cases write.length with
    | none => simp [available]
    | some written =>
      simp only [isSome_some, true_and, getD_some, some.injEq]
      constructor
      · intro fits available
        exact ⟨written, rfl, available, fits.resolve_left available⟩
      · intro given
        by_cases unavailable : written = UNAVAILABLE_INFORMATION
        · exact .inl unavailable
        · obtain ⟨_, same, _, fits⟩ := given unavailable
          rw [same]
          exact .inr fits

end entries

section whole

variable {limit : Nat} {first second : ValueCall} {types : List Nat} {template : List TemplateEntry}
  {attributes : List Attribute}

theorem fill_offered (filled : fill limit first types = .ok template) {i : Nat} {entry : TemplateEntry}
    (there : template[i]? = some entry) : ∃ type length, offer limit type length = .ok entry := by
  obtain ⟨_, _, offered⟩ := ExceptRules.mapM_list_ok filled there
  exact ⟨_, _, offered⟩

theorem getAttributes_ok (filled : fill limit first types = .ok template) :
    getAttributes limit first second types = .ok (template.zipIdx.map fun (entry, i) =>
      report entry ((fillAnswer second template).at i)) := by
  unfold getAttributes
  rw [filled]
  rfl

theorem getAttributes_error : ExceptRules.FailsWith (fun e => e.code = none)
    (getAttributes limit first second types) := by
  unfold getAttributes
  apply ExceptRules.FailsWith.bind
  · apply ExceptRules.FailsWith.mapM_list
    intro pair _ e failed
    dsimp only at failed
    unfold offer at failed
    dsimp only at failed
    split_ifs at failed
    cases failed
    rfl
  · exact fun _ _ => ExceptRules.FailsWith.ok _

theorem reported_at {answer : ValueAnswer} {i : Nat} {told : Attribute} :
    (template.zipIdx.map fun (entry, i) => report entry (answer.at i))[i]? = some told ↔
      ∃ entry, template[i]? = some entry ∧ told = report entry (answer.at i) := by
  rw [getElem?_map, getElem?_zipIdx, Nat.zero_add]
  cases template[i]? with
  | none => simp
  | some entry => simp [eq_comm]

theorem clearing_present {told : Attribute} (mem : told ∈ clearing attributes) :
    ∃ i : Nat, ∃ found, attributes[i]? = some found ∧ found.type = told.type ∧ found.present = true := by
  obtain ⟨type, kept, same⟩ := mem_map.mp mem
  obtain ⟨_, carried⟩ := mem_filter.mp kept
  unfold hasAttribute findAttribute at carried
  rw [isSome_map] at carried
  obtain ⟨found, found_eq⟩ := isSome_iff_exists.mp carried
  obtain ⟨i, there⟩ := getElem?_of_mem (mem_of_find?_eq_some found_eq)
  have named := find?_some found_eq
  obtain ⟨named_type, present⟩ := Bool.and_eq_true_iff.mp named
  rw [← same]
  exact ⟨i, found, there, of_decide_eq_true named_type, present⟩

end whole

/-- A read hides no failure exactly if no call fails, and the second one writes each entry that it was
offered a buffer for and no other. -/
theorem reads_faithfully_iff (limit : Nat) (first second : ValueCall) (types : List Nat) :
    ReadsFaithfully limit first second types ↔ AnswersFully limit first second types := by
  constructor
  · intro faithful
    constructor
    · intro code returned
      by_contra failed
      obtain ⟨e, thrown, _, _, _, coded⟩ := faithful.failure ⟨code, returned, failed⟩
      have uncoded : e.code = none := getAttributes_error e thrown
      rw [uncoded] at coded
      cases coded
    · intro template filled i entry there
      obtain ⟨type, length, offered⟩ := fill_offered filled there
      rw [settled_iff offered]
      intro present
      obtain ⟨_, there', _, delivered⟩ := faithful.present _ (getAttributes_ok filled) template filled i _
        (reported_at.mpr ⟨entry, there, rfl⟩) present
      rw [there] at there'
      cases there'
      exact delivered
  · intro full
    have present : ∀ attributes, getAttributes limit first second types = .ok attributes →
        ∀ template, fill limit first types = .ok template → ∀ i told, attributes[i]? = some told →
          told.present = true → ∃ entry, template[i]? = some entry ∧ entry.type = told.type ∧
            Delivered entry ((fillAnswer second template).at i) := by
      intro attributes read template filled i told there carried
      rw [getAttributes_ok filled] at read
      cases read
      obtain ⟨entry, here, rfl⟩ := reported_at.mp there
      obtain ⟨type, length, offered⟩ := fill_offered filled here
      have settled := full.settled template filled i entry here
      exact ⟨entry, here, report_type.symm, (settled_iff offered).mp settled carried⟩
    refine ⟨?_, present, ?_⟩
    · intro ⟨code, returned, failed⟩
      exact absurd (full.tolerated code returned) failed
    · intro attributes read told mem
      obtain ⟨i, found, there, same, carried⟩ := clearing_present mem
      obtain ⟨template, filled, _⟩ := ExceptRules.bind_ok.mp read
      obtain ⟨entry, here, named, delivered⟩ := present attributes read template filled i found there carried
      exact ⟨template, filled, i, entry, here, named.trans same, delivered⟩

def sessionGone : ValueCall := fun _ => { code := 0x000000b3, writes := [] }

/-- All seven usage attributes are reported as present, and would be cleared. -/
theorem session_gone_reads : (getAttributes 1024 sessionGone sessionGone DEACTIVATABLE_ATTRIBUTES).toOption =
      some (DEACTIVATABLE_ATTRIBUTES.map fun type => { type, value := [], present := true }) ∧
    ¬ReadsFaithfully 1024 sessionGone sessionGone DEACTIVATABLE_ATTRIBUTES := by
  constructor
  · decide +kernel
  · intro faithful
    have returned : (0x000000b3 : UInt64) ∈
        codes 1024 sessionGone sessionGone DEACTIVATABLE_ATTRIBUTES := List.mem_cons_self
    obtain ⟨e, thrown, _, _, _, coded⟩ := faithful.failure ⟨_, returned, by decide⟩
    have uncoded : e.code = none := getAttributes_error e thrown
    rw [uncoded] at coded
    cases coded

end FfiModule

end ForgeDeno
