import ForgeDeno.ExceptRules
import ForgeDeno.KeyUriEscapes
import ForgeDeno.TextPieces
import ForgeDeno.Utf8Replacement

namespace ForgeDeno

open JsString ExceptRules List Option

section splitting

variable {separator : UInt16}

theorem split_joinParts {parts : List JsString} (some_part : parts ≠ [])
    (h : ∀ part ∈ parts, 0x3B ∉ part) : (joinParts parts).split 0x3B = parts := by
  induction parts with
  | nil => exact absurd rfl some_part
  | cons part parts ih =>
    obtain ⟨here, later⟩ := forall_mem_cons.mp h
    cases parts with
    | nil => exact split_of_not_mem here
    | cons other parts =>
      have whole : joinParts (part :: other :: parts) =
          part ++ 0x3B :: joinParts (other :: parts) := rfl
      rw [whole, split_append here, ih (cons_ne_nil _ _) later]

theorem splitFirst_append {s : JsString} (h : separator ∉ s) (rest : JsString) :
    splitFirst separator (s ++ separator :: rest) = (s, some rest) := by
  induction s with
  | nil => exact if_pos rfl
  | cons u s ih =>
    have other : u ≠ separator := fun same => h (same ▸ mem_cons_self)
    rw [cons_append, splitFirst, if_neg other, ih fun mem => h (mem_cons_of_mem u mem)]

theorem splitFirst_of_not_mem {s : JsString} (h : separator ∉ s) : splitFirst separator s = (s, none) := by
  induction s with
  | nil => rfl
  | cons u s ih =>
    have other : u ≠ separator := fun same => h (same ▸ mem_cons_self)
    rw [splitFirst, if_neg other, ih fun mem => h (mem_cons_of_mem u mem)]

theorem mem_joinParts {parts : List JsString} {u : UInt16} (h : u ∈ joinParts parts) :
    u = 0x3B ∨ ∃ part ∈ parts, u ∈ part := by
  induction parts with
  | nil => cases h
  | cons part parts ih =>
    cases parts with
    | nil => exact .inr ⟨part, mem_cons_self, h⟩
    | cons other parts =>
      have whole : joinParts (part :: other :: parts) =
          part ++ 0x3B :: joinParts (other :: parts) := rfl
      rw [whole, mem_append, mem_cons] at h
      rcases h with here | same | later
      · exact .inr ⟨part, mem_cons_self, here⟩
      · exact .inl same
      · rcases ih later with same | ⟨found, mem, here⟩
        · exact .inl same
        · exact .inr ⟨found, mem_cons_of_mem part mem, here⟩

theorem joinParts_eq_nil {parts : List JsString} (h : ∀ part ∈ parts, part ≠ []) :
    joinParts parts = [] ↔ parts = [] := by
  match parts with
  | [] => exact Iff.intro (fun _ => rfl) (fun _ => rfl)
  | [part] =>
    constructor
    · intro empty
      exact absurd empty (h part mem_cons_self)
    · intro same
      cases same
  | part :: other :: parts =>
    constructor
    · intro empty
      exact absurd empty (append_ne_nil_of_left_ne_nil (h part mem_cons_self) _)
    · intro same
      cases same

end splitting

section formatting

theorem inert_visible {u : UInt16} (h : Inert u) : isWhiteSpace u = false := by
  obtain ⟨low, high, _⟩ := h
  have other : ∀ v : UInt16, ¬(0x20 < v.toNat ∧ v.toNat < 0x7F) → u ≠ v := by
    intro v outside same
    rw [same] at low high
    exact outside ⟨low, high⟩
  unfold isWhiteSpace
  simp only [Bool.or_eq_false_iff, Bool.and_eq_false_iff, decide_eq_false_iff_not,
    UInt16.le_iff_toNat_le, UInt16.reduceToNat]
  refine ⟨⟨⟨⟨⟨⟨⟨⟨⟨⟨?_, other 0x20 (by decide)⟩, other 0xA0 (by decide)⟩, other 0x1680 (by decide)⟩, ?_⟩,
    other 0x2028 (by decide)⟩, other 0x2029 (by decide)⟩, other 0x202F (by decide)⟩,
    other 0x205F (by decide)⟩, other 0x3000 (by decide)⟩, other 0xFEFF (by decide)⟩
  · omega
  · omega

def Segment (part : JsString) : Prop :=
  part ≠ [] ∧ ∀ u ∈ part, u ≠ 0x3B ∧ u ≠ 0x3F ∧ isWhiteSpace u = false

instance (part : JsString) : Decidable (Segment part) := inferInstanceAs (Decidable (_ ∧ _))

theorem segment_attribute {head : JsString} (some_head : head ≠ [])
    (clean : ∀ u ∈ head, u ≠ 0x3B ∧ u ≠ 0x3F ∧ isWhiteSpace u = false) (value : Bytes) :
    Segment (head ++ escapeAttribute value) := by
  refine ⟨append_ne_nil_of_left_ne_nil some_head _, ?_⟩
  intro u mem
  rcases mem_append.mp mem with here | there
  · exact clean u here
  · have inert := escaped_inert value u there
    have unit : ∀ {v : UInt16}, u = v → u.toNat = v.toNat := fun same => congrArg UInt16.toNat same
    refine ⟨?_, ?_, inert_visible inert⟩
    · intro same
      exact inert.2.2.1 (unit same)
    · intro same
      exact inert.2.2.2.2 (unit same)

variable (parsed : KeyUri) (value : Bytes)

/-- What `parseAttribute` does with the bytes of an attribute of a name. -/
def assignAttribute (name : JsString) : Except TokenFailure KeyUri :=
  if name = js "token" then .ok { parsed with token := some (utf8Decode value) }
  else if name = js "object" then .ok { parsed with object := some (utf8Decode value) }
  else if name = js "id" then .ok { parsed with id := some value }
  else if name = js "type" then
    (classFromType (utf8Decode value)).map fun found => { parsed with objectClass := some found }
  else .ok parsed

variable {name text : JsString}

theorem parseAttribute_eq (clean : 0x3D ∉ name) (raw : JsString) :
    parseAttribute parsed (name ++ 0x3D :: raw) =
      unescapeAttribute name raw >>= fun value => assignAttribute parsed value name := by
  have some_text : name ++ 0x3D :: raw ≠ [] :=
    append_ne_nil_of_right_ne_nil name (cons_ne_nil _ _)
  unfold parseAttribute
  rw [if_neg some_text, splitFirst_append clean]
  rfl

theorem parse_escaped (clean : 0x3D ∉ name) :
    parseAttribute parsed (name ++ 0x3D :: escapeAttribute value) = assignAttribute parsed value name := by
  rw [parseAttribute_eq parsed clean, unescape_escapeAttribute]
  rfl

theorem parse_token : parseAttribute parsed (js "token=" ++ escapeAttribute value) =
    .ok { parsed with token := some (utf8Decode value) } :=
  parse_escaped parsed value (show 0x3D ∉ js "token" by decide)

theorem parse_object : parseAttribute parsed (js "object=" ++ escapeAttribute value) =
    .ok { parsed with object := some (utf8Decode value) } :=
  parse_escaped parsed value (show 0x3D ∉ js "object" by decide)

theorem parse_id : parseAttribute parsed (js "id=" ++ escapeAttribute value) =
    .ok { parsed with id := some value } :=
  parse_escaped parsed value (show 0x3D ∉ js "id" by decide)

theorem parse_type {objectClass : ObjectClass}
    (known : typeFromClass objectClass = .ok text) : parseAttribute parsed (js "type=" ++ text) =
      .ok { parsed with objectClass := some objectClass } := by
  cases objectClass with
  | inherited name => cases known
  | data | certificate | publicKey | privateKey | secretKey => cases known; rfl

theorem segment_type {objectClass : ObjectClass}
    (known : typeFromClass objectClass = .ok text) : Segment (js "type=" ++ text) := by
  cases objectClass with
  | inherited name => cases known
  | data | certificate | publicKey | privateKey | secretKey => cases known; decide

def storedText (text : Option JsString) : Option JsString :=
  (text.filter fun text => text ≠ []).map fun text => utf8Decode (utf8Encode text)

def stored (uri : KeyUri) : KeyUri where
  token := storedText uri.token
  object := storedText uri.object
  id := uri.id?
  objectClass := uri.objectClass

def tokenParts (uri : KeyUri) : List JsString :=
  ((uri.token.filter fun token => token ≠ []).map fun token =>
    js "token=" ++ escapeAttribute (utf8Encode token)).toList

def objectParts (uri : KeyUri) : List JsString :=
  (uri.label?.map fun object => js "object=" ++ escapeAttribute (utf8Encode object)).toList

def idParts (uri : KeyUri) : List JsString :=
  (uri.id?.map fun id => js "id=" ++ escapeAttribute id).toList

def typeParts (type : Option JsString) : List JsString :=
  (type.map fun type => js "type=" ++ type).toList

variable {uri : KeyUri} {type : Option JsString}

def uriParts (uri : KeyUri) (type : Option JsString) : List JsString :=
  tokenParts uri ++ objectParts uri ++ idParts uri ++ typeParts type

section

variable (known : uri.objectClass.mapM typeFromClass = .ok type)

include known

theorem formatKeyUri_eq :
    formatKeyUri uri = .ok (URI_SCHEME ++ joinParts (uriParts uri type)) := by
  unfold formatKeyUri
  rw [known]
  rfl

theorem uriParts_segments :
    ∀ part ∈ uriParts uri type, Segment part := by
  intro part mem
  unfold uriParts at mem
  rw [mem_append, mem_append, mem_append] at mem
  rcases mem with ((token | object) | id) | last
  · unfold tokenParts at token
    rw [mem_toList, map_eq_some_iff] at token
    obtain ⟨text, _, rfl⟩ := token
    exact segment_attribute (by decide) (by decide) _
  · unfold objectParts at object
    rw [mem_toList, map_eq_some_iff] at object
    obtain ⟨text, _, rfl⟩ := object
    exact segment_attribute (by decide) (by decide) _
  · unfold idParts at id
    rw [mem_toList, map_eq_some_iff] at id
    obtain ⟨text, _, rfl⟩ := id
    exact segment_attribute (by decide) (by decide) _
  · unfold typeParts at last
    rw [mem_toList, map_eq_some_iff] at last
    obtain ⟨text, some_type, rfl⟩ := last
    rcases mapM_ok known with ⟨_, none_type⟩ | ⟨found, shown, _, same, text_known⟩
    · cases none_type.symm.trans some_type
    · cases same.symm.trans some_type
      exact segment_type text_known

theorem fold_uriParts :
    (uriParts uri type).foldlM parseAttribute {} = .ok (stored uri) := by
  have token : (tokenParts uri).foldlM parseAttribute {} =
      .ok { token := storedText uri.token } := by
    unfold tokenParts storedText
    cases uri.token.filter fun token => token ≠ [] with
    | none => rfl
    | some text => exact (bind_pure _).trans (parse_token _ _)
  have object : ∀ parsed : KeyUri, parsed.object = none → (objectParts uri).foldlM parseAttribute parsed =
      .ok { parsed with object := storedText uri.object } := by
    intro parsed empty
    unfold objectParts KeyUri.label? storedText
    cases uri.object.filter fun object => object ≠ [] with
    | none =>
      cases parsed
      cases empty
      rfl
    | some text => exact (bind_pure _).trans (parse_object _ _)
  have id : ∀ parsed : KeyUri, parsed.id = none → (idParts uri).foldlM parseAttribute parsed =
      .ok { parsed with id := uri.id? } := by
    intro parsed empty
    unfold idParts
    cases uri.id? with
    | none =>
      cases parsed
      cases empty
      rfl
    | some value => exact (bind_pure _).trans (parse_id _ _)
  have last : ∀ parsed : KeyUri, parsed.objectClass = none →
      (typeParts type).foldlM parseAttribute parsed = .ok { parsed with objectClass := uri.objectClass } := by
    intro parsed empty
    rcases mapM_ok known with ⟨no_class, rfl⟩ | ⟨found, text, some_class, rfl, shown⟩
    · rw [no_class]
      cases parsed
      cases empty
      rfl
    · rw [some_class]
      exact (bind_pure _).trans (parse_type _ shown)
  unfold uriParts
  rw [foldlM_append, foldlM_append, foldlM_append, token]
  show (objectParts uri).foldlM parseAttribute _ >>= _ >>= _ = _
  rw [object _ rfl]
  show (idParts uri).foldlM parseAttribute _ >>= _ = _
  rw [id _ rfl]
  exact last _ rfl

theorem parse_format (result : KeyUri) :
    parseKeyUri (URI_SCHEME ++ joinParts (uriParts uri type)) = .ok result ↔
      ((stored uri).label? ≠ none ∨ (stored uri).id? ≠ none) ∧ stored uri = result := by
  have segments := uriParts_segments known
  have units : ∀ u ∈ joinParts (uriParts uri type), u ≠ 0x3F ∧ isWhiteSpace u = false := by
    intro u mem
    rcases mem_joinParts mem with rfl | ⟨part, part_mem, here⟩
    · decide
    · exact ((segments part part_mem).2 u here).2
  have trimmed : (URI_SCHEME ++ joinParts (uriParts uri type)).trim =
      URI_SCHEME ++ joinParts (uriParts uri type) := by
    apply trim_of_visible
    intro u mem
    rcases mem_append.mp mem with scheme | body
    · have clean : ∀ u ∈ URI_SCHEME, isWhiteSpace u = false := by decide
      exact clean u scheme
    · exact (units u body).2
  have scheme : isKeyUri (URI_SCHEME ++ joinParts (uriParts uri type)) = true := by
    unfold isKeyUri
    rw [trimmed]
    exact isPrefixOf_iff_prefix.mpr (prefix_append _ _)
  have query : splitFirst 0x3F (joinParts (uriParts uri type)) = (joinParts (uriParts uri type), none) :=
    splitFirst_of_not_mem fun mem => (units _ mem).1 rfl
  have pins : rejectPinAttributes [] = .ok () := rfl
  unfold parseKeyUri
  simp only [trimmed, drop_left, query, getD_none, scheme, not_true_eq_false, if_false, pins]
  have named : (¬((stored uri).label? = none ∧ (stored uri).id? = none)) ↔
      (stored uri).label? ≠ none ∨ (stored uri).id? ≠ none := not_and_or
  have start : ∀ rest : Except TokenFailure KeyUri,
      ((Except.ok () : Except TokenFailure Unit) >>= fun _ => rest) = rest := fun _ => rfl
  rw [start, check_bind_ok, joinParts_eq_nil fun part mem => (segments part mem).1]
  by_cases empty : uriParts uri type = []
  · have nothing : stored uri = {} := by
      have whole := fold_uriParts known
      rw [empty] at whole
      exact (Except.ok.inj whole).symm
    refine iff_of_false (fun h => h.1 empty) ?_
    rw [nothing]
    intro h
    rcases h.1 with label | id
    · exact label rfl
    · exact id rfl
  · have parts : (joinParts (uriParts uri type)).split 0x3B = uriParts uri type :=
      split_joinParts empty fun part mem separator => ((segments part mem).2 _ separator).1 rfl
    rw [parts, fold_uriParts known]
    show ¬_ ∧ (if _ then _ else _) = _ ↔ _
    rw [check_bind_ok, pure_ok, named, and_iff_right empty]

end

def reparse (uri : KeyUri) : Except TokenFailure KeyUri := do parseKeyUri (← formatKeyUri uri)

def ObjectClass.Constant (objectClass : ObjectClass) : Prop := objectClass.value?.isSome

instance (objectClass : ObjectClass) : Decidable objectClass.Constant :=
  inferInstanceAs (Decidable (_ = true))

theorem typeFromClass_constant (objectClass : ObjectClass) :
    (∃ text, typeFromClass objectClass = .ok text) ↔ objectClass.Constant := by
  cases objectClass with
  | inherited name =>
    constructor
    · intro ⟨_, known⟩
      cases known
    · intro known
      cases known
  | data | certificate | publicKey | privateKey | secretKey => exact iff_of_true ⟨_, rfl⟩ rfl

def KeptText (text : JsString) : Prop := text ≠ [] ∧ utf8Decode (utf8Encode text) = text

structure KeyUri.Stable (uri : KeyUri) : Prop where
  token : ∀ token, uri.token = some token → KeptText token
  object : ∀ object, uri.object = some object → KeptText object
  id : ∀ id, uri.id = some id → id ≠ []
  objectClass : ∀ found, uri.objectClass = some found → found.Constant
  named : uri.object ≠ none ∨ uri.id ≠ none

theorem storedText_eq (text : Option JsString) :
    storedText text = text ↔ ∀ found, text = some found → KeptText found := by
  cases text with
  | none => exact iff_of_true rfl nofun
  | some text =>
    unfold storedText KeptText
    by_cases empty : text = []
    · subst empty
      refine iff_of_false nofun fun h => (h [] rfl).1 rfl
    · rw [filter_some, decide_eq_true empty, if_pos rfl, map_some]
      constructor
      · intro same found other
        rw [← some.inj other]
        exact ⟨empty, some.inj same⟩
      · intro kept
        exact congrArg some (kept text rfl).2

theorem id?_eq (uri : KeyUri) : uri.id? = uri.id ↔ ∀ id, uri.id = some id → id ≠ [] := by
  unfold KeyUri.id?
  cases uri.id with
  | none => exact iff_of_true rfl nofun
  | some id =>
    rw [filter_some]
    by_cases empty : id = []
    · subst empty
      refine iff_of_false nofun fun h => h [] rfl rfl
    · rw [decide_eq_true empty, if_pos rfl]
      exact iff_of_true rfl fun found same => some.inj same ▸ empty

theorem types_known (found : Option ObjectClass) : (∃ type, found.mapM typeFromClass = .ok type) ↔
    ∀ objectClass, found = some objectClass → objectClass.Constant := by
  constructor
  · intro ⟨type, known⟩ objectClass same
    rcases mapM_ok known with ⟨no_class, _⟩ | ⟨other, text, some_class, _, shown⟩
    · cases no_class.symm.trans same
    · rw [some_class] at same
      exact (typeFromClass_constant objectClass).mp ⟨text, some.inj same ▸ shown⟩
  · intro constant
    cases found with
    | none => exact ⟨none, rfl⟩
    | some objectClass =>
      obtain ⟨text, shown⟩ := (typeFromClass_constant objectClass).mpr (constant objectClass rfl)
      refine ⟨some text, ?_⟩
      rw [show (some objectClass).mapM typeFromClass = some <$> typeFromClass objectClass from rfl, shown]
      rfl

theorem stored_eq (uri : KeyUri) : stored uri = uri ↔ storedText uri.token = uri.token ∧
    storedText uri.object = uri.object ∧ uri.id? = uri.id := by
  constructor
  · intro same
    exact ⟨congrArg KeyUri.token same, congrArg KeyUri.object same, congrArg KeyUri.id same⟩
  · intro ⟨token, object, id⟩
    unfold stored
    rw [token, object, id]

theorem reparse_iff (uri : KeyUri) : reparse uri = .ok uri ↔ uri.Stable := by
  constructor
  · intro same
    obtain ⟨text, formatted, accepted⟩ := bind_ok.mp same
    obtain ⟨type, known, _⟩ := bind_ok.mp formatted
    rw [formatKeyUri_eq known] at formatted
    rw [← Except.ok.inj formatted, parse_format known] at accepted
    obtain ⟨named, fields⟩ := accepted
    obtain ⟨token, object, id⟩ := (stored_eq uri).mp fields
    refine ⟨(storedText_eq _).mp token, (storedText_eq _).mp object, (id?_eq uri).mp id,
      (types_known _).mp ⟨type, known⟩, ?_⟩
    rw [fields] at named
    refine named.imp (fun label none_here => label ?_) (fun some_id none_here => some_id ?_)
    · unfold KeyUri.label?
      rw [none_here]
      rfl
    · unfold KeyUri.id?
      rw [none_here]
      rfl
  · intro stable
    obtain ⟨type, known⟩ := (types_known _).mpr stable.objectClass
    have fields : stored uri = uri := (stored_eq uri).mpr ⟨(storedText_eq _).mpr stable.token,
      (storedText_eq _).mpr stable.object, (id?_eq uri).mpr stable.id⟩
    refine bind_ok.mpr ⟨_, formatKeyUri_eq known, ?_⟩
    rw [parse_format known, fields]
    refine ⟨?_, rfl⟩
    refine stable.named.imp (fun object none_here => ?_) (fun id none_here => ?_)
    · obtain ⟨text, same⟩ := ne_none_iff_exists'.mp object
      unfold KeyUri.label? at none_here
      rw [same, filter_some, decide_eq_true (stable.object text same).1] at none_here
      cases none_here
    · rw [(id?_eq uri).mpr stable.id] at none_here
      exact id none_here

/-- The references of the round trip: well-formed texts, constant classes, and no attribute that is
there and empty. -/
structure KeyUri.Formed (uri : KeyUri) : Prop where
  token : ∀ token, uri.token = some token → token ≠ [] ∧ token.WellFormed
  object : ∀ object, uri.object = some object → object ≠ [] ∧ object.WellFormed
  id : ∀ id, uri.id = some id → id ≠ []
  objectClass : ∀ found, uri.objectClass = some found → found.Constant
  named : uri.object ≠ none ∨ uri.id ≠ none

theorem kept_iff (formed : text.WellFormed) :
    KeptText text ↔ text ≠ [] ∧ text.head? ≠ some bom := by
  unfold KeptText
  rw [utf8_round_trip formed]

/-- A reference comes back exactly when neither its token nor its object begins with a mark. -/
theorem key_uri_round_trip_iff {uri : KeyUri} (formed : uri.Formed) : reparse uri = .ok uri ↔
    (∀ token, uri.token = some token → token.head? ≠ some bom) ∧
      ∀ object, uri.object = some object → object.head? ≠ some bom := by
  rw [reparse_iff]
  constructor
  · intro stable
    constructor
    · intro token same
      exact ((kept_iff (formed.token token same).2).mp (stable.token token same)).2
    · intro object same
      exact ((kept_iff (formed.object object same).2).mp (stable.object object same)).2
  · intro ⟨token, object⟩
    exact {
      token := fun text same => (kept_iff (formed.token text same).2).mpr
        ⟨(formed.token text same).1, token text same⟩
      object := fun text same => (kept_iff (formed.object text same).2).mpr
        ⟨(formed.object text same).1, object text same⟩
      id := formed.id
      objectClass := formed.objectClass
      named := formed.named }

def spacedUri : KeyUri :=
  { token := some (js "forge; hsm=%é"), object := some (js "key"), id := some [0x00, 0x3B, 0xFF, 0x25]
    objectClass := some .secretKey }

theorem spacedUri_formed : spacedUri.Formed where
  token := by
    intro token same
    cases same
    decide
  object := by
    intro object same
    cases same
    decide
  id := by
    intro id same
    cases same
    decide
  objectClass := by
    intro found same
    cases same
    decide
  named := .inr (by decide)

theorem spaced_uri_returns : reparse spacedUri = .ok spacedUri ↔
    (∀ token, spacedUri.token = some token → token.head? ≠ some bom) ∧
      ∀ object, spacedUri.object = some object → object.head? ≠ some bom :=
  key_uri_round_trip_iff spacedUri_formed

def markedUri : KeyUri := { object := some (bom :: js "key") }

theorem marked_uri_changes : markedUri.Formed ∧ reparse markedUri ≠ .ok markedUri := by
  refine ⟨?_, ?_⟩
  · refine ⟨?_, ?_, ?_, ?_, Or.inl (by decide)⟩
    · intro token same
      cases same
    · intro object same
      cases same
      decide
    · intro id same
      cases same
    · intro found same
      cases same
  · have given : reparse markedUri = .ok { object := some (js "key") } := by rfl
    rw [given]
    intro same
    exact absurd (Except.ok.inj same) (by decide)

end formatting

section attributes

def attributeSegments (reference : JsString) : List JsString :=
  (splitFirst 0x3F (reference.trim.drop URI_SCHEME.length)).1.split 0x3B

def attributeValue? (name segment : JsString) : Option Bytes :=
  match splitFirst 0x3D segment with
  | (_, none) => none
  | (found, some raw) => if found = name then (unescapeAttribute name raw).toOption else none

def lastAttribute? (name reference : JsString) : Option Bytes :=
  ((attributeSegments reference).filterMap (attributeValue? name)).getLast?

/-- The token, object, id and type that a reference ends up with have values that can be written
again. -/
structure Rewritable (reference : JsString) : Prop where
  token : ∀ bytes, lastAttribute? (js "token") reference = some bytes → JsString.Readable bytes
  object : ∀ bytes, lastAttribute? (js "object") reference = some bytes → JsString.Readable bytes
  id : ∀ bytes, lastAttribute? (js "id") reference = some bytes → bytes ≠ []
  type : ∀ bytes, lastAttribute? (js "type") reference = some bytes →
    utf8Decode bytes ∉ OBJECT_PROTOTYPE_NAMES

structure WellTyped (uri : KeyUri) : Prop where
  objectClass : ∀ found, uri.objectClass = some found → found.Constant
  named : uri.label? ≠ none ∨ uri.id? ≠ none
  returns : reparse uri = .ok uri

variable {β : Type} {name : JsString} {field : KeyUri → Option β} {stores : Bytes → β → Prop}

def AttributeStored (before after : Option β) (stores : Bytes → β → Prop) : Option Bytes → Prop
  | none => after = before
  | some bytes => ∃ value, after = some value ∧ stores bytes value

def Assigns (name : JsString) (field : KeyUri → Option β) (stores : Bytes → β → Prop) : Prop :=
  ∀ parsed segment next, parseAttribute parsed segment = .ok next →
    AttributeStored (field parsed) (field next) stores (attributeValue? name segment)

theorem assigned (step : Assigns name field stores) (segments : List JsString) :
    ∀ parsed uri, segments.foldlM parseAttribute parsed = .ok uri →
      AttributeStored (field parsed) (field uri) stores (segments.filterMap (attributeValue? name)).getLast? := by
  induction segments with
  | nil =>
    intro parsed uri h
    cases h
    rfl
  | cons segment segments ih =>
    intro parsed uri h
    obtain ⟨next, first, later⟩ := bind_ok.mp h
    have here := step parsed segment next first
    have there := ih next uri later
    rw [filterMap_cons]
    cases value : attributeValue? name segment with
    | none =>
      rw [value] at here
      rw [show field next = field parsed from here] at there
      exact there
    | some bytes =>
      rw [value] at here
      simp only [getLast?_cons]
      cases last : (segments.filterMap (attributeValue? name)).getLast? with
      | none =>
        rw [last] at there
        obtain ⟨found, same, stored⟩ := here
        exact ⟨found, Eq.trans there same, stored⟩
      | some other =>
        rw [last] at there
        exact there

theorem parse_accepted {parsed next : KeyUri} {segment : JsString}
    (h : parseAttribute parsed segment = .ok next) :
    (next = parsed ∧ ∀ name, attributeValue? name segment = none) ∨
      ∃ found bytes, assignAttribute parsed bytes found = .ok next ∧
        ∀ name, attributeValue? name segment = if found = name then some bytes else none := by
  unfold parseAttribute at h
  split at h
  next empty =>
    refine .inl ⟨(Except.ok.inj h).symm, ?_⟩
    intro name
    rw [empty]
    rfl
  next =>
    split at h
    next => cases h
    next found raw parts =>
      obtain ⟨bytes, value, assigned⟩ := bind_ok.mp h
      refine .inr ⟨found, bytes, assigned, ?_⟩
      intro name
      unfold attributeValue?
      rw [parts]
      simp only
      split
      next same =>
        rw [← same, value]
        rfl
      next => rfl

theorem assigns_of (own : ∀ parsed bytes next,
    assignAttribute parsed bytes name = .ok next → ∃ value, field next = some value ∧ stores bytes value)
    (frame : ∀ parsed bytes found next, found ≠ name →
      assignAttribute parsed bytes found = .ok next → field next = field parsed) : Assigns name field stores := by
  intro parsed segment next h
  rcases parse_accepted h with ⟨same, nothing⟩ | ⟨found, bytes, assigned, values⟩
  · rw [nothing name, same]
    rfl
  · rw [values name]
    by_cases same : found = name
    · rw [if_pos same]
      exact own parsed bytes next (same ▸ assigned)
    · rw [if_neg same]
      exact frame parsed bytes found next same assigned

theorem assign_cases {parsed next : KeyUri} {bytes : Bytes} {found : JsString}
    (h : assignAttribute parsed bytes found = .ok next) :
    (found = js "token" ∧ next = { parsed with token := some (utf8Decode bytes) }) ∨
      (found = js "object" ∧ next = { parsed with object := some (utf8Decode bytes) }) ∨
      (found = js "id" ∧ next = { parsed with id := some bytes }) ∨
      (found = js "type" ∧ ∃ objectClass, classFromType (utf8Decode bytes) = .ok objectClass ∧
        next = { parsed with objectClass := some objectClass }) ∨
      (found ≠ js "token" ∧ found ≠ js "object" ∧ found ≠ js "id" ∧ found ≠ js "type" ∧
        next = parsed) := by
  unfold assignAttribute at h
  split at h
  next token => exact .inl ⟨token, (Except.ok.inj h).symm⟩
  next not_token =>
    split at h
    next object => exact .inr (.inl ⟨object, (Except.ok.inj h).symm⟩)
    next not_object =>
      split at h
      next id => exact .inr (.inr (.inl ⟨id, (Except.ok.inj h).symm⟩))
      next not_id =>
        split at h
        next type =>
          obtain ⟨objectClass, known, same⟩ := map_ok h
          exact .inr (.inr (.inr (.inl ⟨type, objectClass, known, same.symm⟩)))
        next not_type =>
          exact .inr (.inr (.inr (.inr
            ⟨not_token, not_object, not_id, not_type, (Except.ok.inj h).symm⟩)))

theorem assigns_token : Assigns (js "token") KeyUri.token fun bytes text => text = utf8Decode bytes := by
  apply assigns_of
  · intro parsed bytes next h
    cases h
    exact ⟨_, rfl, rfl⟩
  · intro parsed bytes found next other h
    rcases assign_cases h with ⟨same, _⟩ | ⟨_, rfl⟩ | ⟨_, rfl⟩ | ⟨_, _, _, rfl⟩ | ⟨_, _, _, _, rfl⟩
    · exact absurd same other
    all_goals rfl

theorem assigns_object :
    Assigns (js "object") KeyUri.object fun bytes text => text = utf8Decode bytes := by
  apply assigns_of
  · intro parsed bytes next h
    cases h
    exact ⟨_, rfl, rfl⟩
  · intro parsed bytes found next other h
    rcases assign_cases h with ⟨_, rfl⟩ | ⟨same, _⟩ | ⟨_, rfl⟩ | ⟨_, _, _, rfl⟩ | ⟨_, _, _, _, rfl⟩
    · rfl
    · exact absurd same other
    all_goals rfl

theorem assigns_id : Assigns (js "id") KeyUri.id fun bytes id => id = bytes := by
  apply assigns_of
  · intro parsed bytes next h
    cases h
    exact ⟨_, rfl, rfl⟩
  · intro parsed bytes found next other h
    rcases assign_cases h with ⟨_, rfl⟩ | ⟨_, rfl⟩ | ⟨same, _⟩ | ⟨_, _, _, rfl⟩ | ⟨_, _, _, _, rfl⟩
    · rfl
    · rfl
    · exact absurd same other
    all_goals rfl

theorem assigns_type : Assigns (js "type") KeyUri.objectClass fun bytes objectClass =>
    classFromType (utf8Decode bytes) = .ok objectClass := by
  apply assigns_of
  · intro parsed bytes next h
    obtain ⟨objectClass, known, same⟩ := map_ok h
    rw [← same]
    exact ⟨objectClass, rfl, known⟩
  · intro parsed bytes found next other h
    rcases assign_cases h with ⟨_, rfl⟩ | ⟨_, rfl⟩ | ⟨_, rfl⟩ | ⟨same, _⟩ | ⟨_, _, _, _, rfl⟩
    · rfl
    · rfl
    · rfl
    · exact absurd same other
    · rfl

theorem parseKeyUri_ok {reference : JsString} {uri : KeyUri} (h : parseKeyUri reference = .ok uri) :
    (attributeSegments reference).foldlM parseAttribute {} = .ok uri ∧ (uri.label? ≠ none ∨ uri.id? ≠ none) := by
  unfold parseKeyUri at h
  obtain ⟨_, h1⟩ := check_bind_ok.mp h
  obtain ⟨_, _, h2⟩ := bind_ok.mp h1
  obtain ⟨_, h3⟩ := check_bind_ok.mp h2
  obtain ⟨parsed, fold, h4⟩ := bind_ok.mp h3
  obtain ⟨named, h5⟩ := check_bind_ok.mp h4
  have same := pure_ok.mp h5
  rw [same] at fold named
  exact ⟨fold, not_and_or.mp named⟩

theorem constant_iff {text : JsString} {objectClass : ObjectClass} (h : classFromType text = .ok objectClass) :
    objectClass.Constant ↔ text ∉ OBJECT_PROTOTYPE_NAMES := by
  unfold classFromType at h
  split at h
  next entry found =>
    cases h
    have mem := mem_of_find?_eq_some found
    have key := find?_some found
    simp only [decide_eq_true_eq] at key
    have table : ∀ entry ∈ TYPE_TO_CLASS, entry.2.Constant ∧ entry.1 ∉ OBJECT_PROTOTYPE_NAMES := by
      decide
    have both := table _ mem
    exact iff_of_true both.1 (key ▸ both.2)
  next =>
    split at h
    next inherited =>
      cases h
      exact iff_of_false nofun (fun other => other inherited)
    next => cases h

theorem fields_of {α : Type} {found : Option α} {last : Option Bytes} {stores : Bytes → α → Prop}
    {P : α → Prop} {Q : Bytes → Prop} (same : ∀ bytes value, stores bytes value → (P value ↔ Q bytes))
    (h : AttributeStored none found stores last) :
    (∀ value, found = some value → P value) ↔ ∀ bytes, last = some bytes → Q bytes := by
  cases last with
  | none =>
    rw [show found = none from h]
    exact iff_of_true nofun nofun
  | some bytes =>
    obtain ⟨value, some_value, stored⟩ := h
    constructor
    · intro holds other eq
      cases eq
      exact (same _ _ stored).mp (holds value some_value)
    · intro holds other eq
      cases some_value.symm.trans eq
      exact (same _ _ stored).mpr (holds bytes rfl)

theorem kept_utf8Decode {bytes : Bytes} {text : JsString} (h : text = utf8Decode bytes) :
    KeptText text ↔ JsString.Readable bytes := by
  rw [h, kept_iff (utf8Decode_wellFormed bytes), readable_iff]

theorem named_ne {uri : KeyUri} (named : uri.label? ≠ none ∨ uri.id? ≠ none) :
    uri.object ≠ none ∨ uri.id ≠ none := by
  refine named.imp (fun label none_here => label ?_) (fun id none_here => id ?_)
  · unfold KeyUri.label?
    rw [none_here]
    rfl
  · unfold KeyUri.id?
    rw [none_here]
    rfl

/-- What a reference gives is well typed exactly when its last attributes can be written again. -/
theorem parseKeyUri_well_typed_iff {reference : JsString} {uri : KeyUri}
    (accepted : parseKeyUri reference = .ok uri) : WellTyped uri ↔ Rewritable reference := by
  obtain ⟨fold, named⟩ := parseKeyUri_ok accepted
  -- the fold over the attributes starts from an empty reference
  have text : ∀ (bytes : Bytes) (text : JsString), text = utf8Decode bytes →
      (KeptText text ↔ JsString.Readable bytes) := fun _ _ => kept_utf8Decode
  have known : ∀ (bytes : Bytes) (found : ObjectClass), classFromType (utf8Decode bytes) = .ok found →
      (found.Constant ↔ utf8Decode bytes ∉ OBJECT_PROTOTYPE_NAMES) := fun _ _ => constant_iff
  have token := fields_of text (assigned assigns_token _ _ _ fold)
  have object := fields_of text (assigned assigns_object _ _ _ fold)
  have unchanged : ∀ bytes id : Bytes, id = bytes → (id ≠ [] ↔ bytes ≠ []) := by
    intro bytes id same
    rw [same]
  have id := fields_of unchanged (assigned assigns_id _ _ _ fold)
  have type := fields_of known (assigned assigns_type _ _ _ fold)
  constructor
  · intro typed
    have stable := (reparse_iff uri).mp typed.returns
    exact ⟨token.mp stable.token, object.mp stable.object, id.mp stable.id, type.mp stable.objectClass⟩
  · intro rewritable
    have constant := type.mpr rewritable.type
    refine ⟨constant, named, ?_⟩
    exact (reparse_iff uri).mpr ⟨token.mpr rewritable.token, object.mpr rewritable.object,
      id.mpr rewritable.id, constant, named_ne named⟩

theorem mixed_reference_typed : WellTyped { object := some (js "key"), objectClass := some .publicKey } ↔
    Rewritable (js "  pkcs11:type=private;object=k%65y;model=a;type=public?module-name=x ") :=
  parseKeyUri_well_typed_iff (by rfl)

/-- `type=constructor` is looked up in a plain object. -/
theorem inherited_class_accepted : parseKeyUri (js "pkcs11:object=key;type=constructor") =
      .ok { object := some (js "key"), objectClass := some (.inherited (js "constructor")) } ∧
    ¬WellTyped { object := some (js "key"), objectClass := some (.inherited (js "constructor")) } := by
  refine ⟨by rfl, ?_⟩
  intro typed
  exact absurd (typed.objectClass _ rfl) (by decide)

end attributes

end ForgeDeno
