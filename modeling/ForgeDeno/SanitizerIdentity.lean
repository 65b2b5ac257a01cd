import ForgeDeno.SanitizerLeaks

namespace ForgeDeno

open JsonText JsonValue List

/-- A value that is handed to a sanitizer. `members` are the own enumerable properties. -/
inductive LoggedValue where
  | undefined
  | null
  | bool (value : Bool)
  | number (value : JsNumber)
  | string (value : JsString)
  /-- a bigint, a symbol or a function, with its `typeof` -/
  | other (typeName : JsString)
  | array (items : List LoggedValue)
  | record (members : List (JsString × LoggedValue))
  | headers (entries : List (JsString × JsString))
  /-- an object of another class, such as a date or an error -/
  | object (className : JsString) (members : List (JsString × LoggedValue))

def protoKey : JsString := js "__proto__"

/-- An assignment to this name makes an own property; a runtime may keep the accessor of
`Object.prototype.__proto__`. -/
def assigns (protoAccessor : Bool) (key : JsString) : Bool := !protoAccessor || key ≠ protoKey

section redacting

variable (protoAccessor : Bool) (isSensitive : JsString → Bool)

/-- `#redact` of a parsed document, with the levels left. -/
def redactJson : Nat → JsonValue → JsonValue
  | 0, value => value
  | left + 1, value =>
    match value with
    | .array items => .array (items.map (redactJson left))
    | .string s =>
      match document? s with
      | some document => .string (((LogValue.ofJson (redactJson left document)).stringify).getD s)
      | none => .string s
    | .object members =>
      .object ((members.filter fun member => assigns protoAccessor member.1).map fun member =>
        (member.1, if isSensitive member.1 then .string REDACTED else redactJson left member.2))
    | other => other

/-- `#redact`, with the levels left instead of the depth; members are assigned in property order. -/
def redactValue : Nat → LoggedValue → LoggedValue
  | 0, value => value
  | left + 1, value =>
    match value with
    | .headers entries =>
      .record ((entries.filter fun entry => assigns protoAccessor entry.1).map fun entry =>
        (entry.1, .string (if isSensitive entry.1 then REDACTED else entry.2)))
    | .array items => .array (items.map (redactValue left))
    | .string s =>
      match document? s with
      | some document =>
        .string (((LogValue.ofJson (redactJson protoAccessor isSensitive left document)).stringify).getD s)
      | none => .string s
    | .record members =>
      .record ((members.filter fun member => assigns protoAccessor member.1).map fun member =>
        (member.1, if isSensitive member.1 then .string REDACTED else redactValue left member.2))
    | .object _ members =>
      .record ((members.filter fun member => assigns protoAccessor member.1).map fun member =>
        (member.1, if isSensitive member.1 then .string REDACTED else redactValue left member.2))
    | other => other

def Sanitizer.sanitized (s : Sanitizer) (value : LoggedValue) : LoggedValue :=
  redactValue protoAccessor s.isSensitive MAX_DEPTH value

end redacting

section logging

variable {isSensitive : JsString → Bool}

theorem filter_assigns {V : Type} (members : List (JsString × V)) :
    (members.filter fun member => assigns false member.1) = members := filter_eq_self.mpr fun _ _ => rfl

theorem redact_ofJson (left : Nat) (v : JsonValue) :
    redact isSensitive left (.ofJson v) = .ofJson (redactJson false isSensitive left v) := by
  induction left generalizing v with
  | zero => rfl
  | succ left ih =>
    cases v with
    | null | bool b | number n => rfl
    | string s =>
      show redact isSensitive (left + 1) (.string s) = _
      unfold redact redactJson
      dsimp only
      cases document? s with
      | none => rfl
      | some document =>
        dsimp only
        rw [ih]
        rfl
    | array items =>
      show LogValue.array ((LogValue.itemsOfJson items).map (redact isSensitive left)) =
        .array (LogValue.itemsOfJson (items.map (redactJson false isSensitive left)))
      rw [itemsOfJson_map, itemsOfJson_map, map_map, map_map]
      congr 1
      exact map_congr_left fun item _ => ih item
    | object members =>
      unfold redact redactJson LogValue.ofJson
      dsimp only
      rw [filter_assigns, membersOfJson_map, membersOfJson_map, map_map, map_map]
      congr 1
      apply map_congr_left
      intro member _
      show (member.1, if isSensitive member.1 then LogValue.string REDACTED else
        redact isSensitive left (.ofJson member.2)) =
          (member.1, LogValue.ofJson (if isSensitive member.1 then .string REDACTED else
            redactJson false isSensitive left member.2))
      rw [ih]
      split
      · rfl
      · rfl

mutual

def LoggedValue.ofLog : LogValue → LoggedValue
  | .null => .null
  | .bool b => .bool b
  | .number n => .number n
  | .string s => .string s
  | .array items => .array (LoggedValue.itemsOfLog items)
  | .record members => .record (LoggedValue.membersOfLog members)
  | .headers entries => .headers entries

def LoggedValue.itemsOfLog : List LogValue → List LoggedValue
  | [] => []
  | item :: items => LoggedValue.ofLog item :: LoggedValue.itemsOfLog items

def LoggedValue.membersOfLog : List (JsString × LogValue) → List (JsString × LoggedValue)
  | [] => []
  | member :: members => LoggedValue.memberOfLog member :: LoggedValue.membersOfLog members

def LoggedValue.memberOfLog : JsString × LogValue → JsString × LoggedValue
  | (key, item) => (key, LoggedValue.ofLog item)

end

theorem itemsOfLog_map (items : List LogValue) : LoggedValue.itemsOfLog items = items.map LoggedValue.ofLog := by
  induction items with
  | nil => rfl
  | cons item items ih => exact congrArg _ ih

theorem membersOfLog_map (members : List (JsString × LogValue)) :
    LoggedValue.membersOfLog members = members.map fun member => (member.1, .ofLog member.2) := by
  induction members with
  | nil => rfl
  | cons member members ih =>
    obtain ⟨key, item⟩ := member
    exact congrArg (List.cons _) ih

theorem redactValue_ofLog (left : Nat) (v : LogValue) :
    redactValue false isSensitive left (.ofLog v) = .ofLog (redact isSensitive left v) := by
  induction left generalizing v with
  | zero => rfl
  | succ left ih =>
    cases v with
    | null | bool b | number n => rfl
    | string s =>
      unfold redact redactValue LoggedValue.ofLog
      dsimp only
      cases document? s with
      | none => rfl
      | some document =>
        dsimp only
        rw [redact_ofJson]
    | array items =>
      show LoggedValue.array ((LoggedValue.itemsOfLog items).map (redactValue false isSensitive left)) =
        .array (LoggedValue.itemsOfLog (items.map (redact isSensitive left)))
      rw [itemsOfLog_map, itemsOfLog_map, map_map, map_map]
      congr 1
      exact map_congr_left fun item _ => ih item
    | record members =>
      unfold redact redactValue LoggedValue.ofLog
      dsimp only
      rw [filter_assigns, membersOfLog_map, membersOfLog_map, map_map, map_map]
      congr 1
      apply map_congr_left
      intro member _
      show (member.1, if isSensitive member.1 then LoggedValue.string REDACTED else
        redactValue false isSensitive left (.ofLog member.2)) =
          (member.1, LoggedValue.ofLog (if isSensitive member.1 then .string REDACTED else
            redact isSensitive left member.2))
      rw [ih]
      split
      · rfl
      · rfl
    | headers entries =>
      unfold redact redactValue LoggedValue.ofLog redactHeaders
      dsimp only
      rw [filter_assigns, membersOfLog_map, map_map]
      rfl

end logging

section fixing

variable (protoAccessor : Bool)

/-- In the document every string that the sanitizer comes to and that holds a document is the text that
`JSON.stringify` gives of it, and every name can be assigned. -/
def FixedJson : Nat → JsonValue → Prop
  | 0, _ => True
  | left + 1, value =>
    match value with
    | .array items => ∀ item ∈ items, FixedJson left item
    | .string s => ∀ document, document? s = some document →
      (LogValue.ofJson document).stringify = some s ∧ FixedJson left document
    | .object members => ∀ member ∈ members, assigns protoAccessor member.1 = true ∧ FixedJson left member.2
    | _ => True

/-- The sanitizer comes to no `Headers` and no object of another class, every string it comes to that
holds a document is the text that `JSON.stringify` gives of it, and every name can be assigned. -/
def Fixed : Nat → LoggedValue → Prop
  | 0, _ => True
  | left + 1, value =>
    match value with
    | .array items => ∀ item ∈ items, Fixed left item
    | .string s => ∀ document, document? s = some document →
      (LogValue.ofJson document).stringify = some s ∧ FixedJson protoAccessor left document
    | .record members => ∀ member ∈ members, assigns protoAccessor member.1 = true ∧ Fixed left member.2
    | .headers _ => False
    | .object _ _ => False
    | _ => True

end fixing

section lists

variable {α : Type}

theorem map_eq_self_iff {f : α → α} {l : List α} : l.map f = l ↔ ∀ a ∈ l, f a = a := by
  conv_lhs => rhs; rw [← map_id l]
  exact map_inj_left

theorem members_eq_iff {keep : JsString → Bool} {f : α → α} {members : List (JsString × α)} :
    ((members.filter fun member => keep member.1).map fun member => (member.1, f member.2)) = members ↔
      ∀ member ∈ members, keep member.1 = true ∧ f member.2 = member.2 := by
  constructor
  · intro same
    have all : ∀ member ∈ members, keep member.1 = true := by
      have lengths := congrArg length same
      rw [length_map] at lengths
      exact length_filter_eq_length_iff.mp lengths
    rw [filter_eq_self.mpr all, map_eq_self_iff] at same
    exact fun member mem => ⟨all member mem, congrArg Prod.snd (same member mem)⟩
  · intro all
    rw [filter_eq_self.mpr fun member mem => (all member mem).1, map_eq_self_iff]
    intro member mem
    rw [(all member mem).2]

end lists

section documents

variable {protoAccessor : Bool} {isSensitive : JsString → Bool}

def readBack (v : JsonValue) : JsonValue := (LogValue.ofJson v).toJson.plusZero

theorem readBack_array (items : List JsonValue) : readBack (.array items) = .array (items.map readBack) := by
  show JsonValue.array (itemsPlusZero (LogValue.itemsToJson (LogValue.itemsOfJson items))) = _
  rw [itemsOfJson_map, itemsToJson_map, itemsPlusZero_map, map_map, map_map]
  rfl

theorem readBack_object (members : List (JsString × JsonValue)) :
    readBack (.object members) = .object (members.map fun member => (member.1, readBack member.2)) := by
  show JsonValue.object (membersPlusZero (LogValue.membersToJson (LogValue.membersOfJson members))) = _
  rw [membersOfJson_map, membersToJson_map, membersPlusZero_map, map_map, map_map]
  rfl

def noneSensitive (_ : JsString) : Bool := false

theorem redactJson_object (left : Nat) (members : List (JsString × JsonValue)) :
    redactJson protoAccessor noneSensitive (left + 1) (.object members) =
      .object ((members.filter fun member => assigns protoAccessor member.1).map fun member =>
        (member.1, redactJson protoAccessor noneSensitive left member.2)) := rfl

theorem redactJson_array (left : Nat) (items : List JsonValue) :
    redactJson protoAccessor noneSensitive (left + 1) (.array items) =
      .array (items.map (redactJson protoAccessor noneSensitive left)) := rfl

theorem redactJson_of_readBack (left : Nat) {v : JsonValue}
    (same : readBack (redactJson protoAccessor noneSensitive left v) = v) :
    redactJson protoAccessor noneSensitive left v = v := by
  induction left generalizing v with
  | zero => rfl
  | succ left ih =>
    cases v with
    | null | bool b | number n => rfl
    | string s =>
      unfold redactJson at same ⊢
      dsimp only at same ⊢
      split
      next found =>
        rw [found] at same
        exact same
      next => rfl
    | array items =>
      rw [redactJson_array, readBack_array, map_map] at same
      have each := map_eq_self_iff.mp (JsonValue.array.inj same)
      rw [redactJson_array, map_eq_self_iff.mpr fun item mem => ih (each item mem)]
    | object members =>
      rw [redactJson_object, readBack_object, map_map] at same
      have each := (@members_eq_iff _ (assigns protoAccessor)
        (fun item => readBack (redactJson protoAccessor noneSensitive left item)) members).mp
        (JsonValue.object.inj same)
      rw [redactJson_object, members_eq_iff.mpr fun member mem => ⟨(each member mem).1, ih (each member mem).2⟩]

theorem ordered_redactJson (left : Nat) {v : JsonValue} (h : v.Ordered) :
    (redactJson protoAccessor isSensitive left v).Ordered := by
  induction left generalizing v with
  | zero => exact h
  | succ left ih =>
    cases h with
    | null => exact .null
    | bool b => exact .bool b
    | number n => exact .number n
    | string s =>
      unfold redactJson
      dsimp only
      split
      · exact .string _
      · exact .string _
    | array items =>
      apply Ordered.array
      intro item mem
      obtain ⟨source, inside, rfl⟩ := mem_map.mp mem
      exact ih (items source inside)
    | object order members =>
      apply Ordered.object
      · rw [map_map]
        exact order.sublist (filter_sublist.map Prod.fst)
      · intro member mem
        obtain ⟨source, inside, rfl⟩ := mem_map.mp mem
        dsimp only
        split
        · exact .string _
        · exact ih (members source (mem_filter.mp inside).1)

theorem redactJson_container (left : Nat) {v : JsonValue} (h : isContainer (.ofJson v) = true) :
    isContainer (.ofJson (redactJson protoAccessor isSensitive left v)) = true := by
  cases left with
  | zero => exact h
  | succ left =>
    cases v with
    | array items | object members => rfl
    | _ => cases h

/-- A text that holds a document is the text of the redacted document exactly when it is the text of the
document, which is not changed. -/
theorem redacted_text_iff (left : Nat) {s : JsString} {document : JsonValue}
    (found : document? s = some document) :
    ((LogValue.ofJson (redactJson protoAccessor noneSensitive left document)).stringify).getD s = s ↔
      (LogValue.ofJson document).stringify = some s ∧
        redactJson protoAccessor noneSensitive left document = document := by
  obtain ⟨container, ordered⟩ := document_container found
  have plain := LogValue.plain_ofJson (@ordered_redactJson protoAccessor noneSensitive left _ ordered)
  obtain ⟨text, written, read⟩ := document_stringify plain (redactJson_container left container)
  rw [written, Option.getD_some]
  constructor
  · intro same
    rw [same, found] at read
    have unchanged := redactJson_of_readBack left (Option.some.inj read).symm
    rw [unchanged] at written
    exact ⟨same ▸ written, unchanged⟩
  · rintro ⟨canonical, unchanged⟩
    rw [unchanged, canonical] at written
    exact (Option.some.inj written).symm

theorem redactJson_eq_iff (left : Nat) (v : JsonValue) :
    redactJson protoAccessor noneSensitive left v = v ↔ FixedJson protoAccessor left v := by
  induction left generalizing v with
  | zero => exact iff_of_true rfl trivial
  | succ left ih =>
    cases v with
    | null | bool b | number n => exact iff_of_true rfl trivial
    | string s =>
      unfold redactJson FixedJson
      dsimp only
      cases found : document? s with
      | none => simp
      | some document =>
        dsimp only
        rw [JsonValue.string.injEq, redacted_text_iff left found, ih]
        constructor
        · intro fixed other same
          cases same
          exact fixed
        · exact fun all => all document rfl
    | array items =>
      rw [redactJson_array, JsonValue.array.injEq, map_eq_self_iff]
      exact forall₂_congr fun item _ => ih item
    | object members =>
      rw [redactJson_object, JsonValue.object.injEq, members_eq_iff]
      exact forall₂_congr fun member _ => and_congr_right fun _ => ih member.2

end documents

section values

variable {protoAccessor : Bool}

theorem redactValue_record (left : Nat) (members : List (JsString × LoggedValue)) :
    redactValue protoAccessor noneSensitive (left + 1) (.record members) =
      .record ((members.filter fun member => assigns protoAccessor member.1).map fun member =>
        (member.1, redactValue protoAccessor noneSensitive left member.2)) := rfl

theorem redactValue_array (left : Nat) (items : List LoggedValue) :
    redactValue protoAccessor noneSensitive (left + 1) (.array items) =
      .array (items.map (redactValue protoAccessor noneSensitive left)) := rfl

theorem redactValue_eq_iff (left : Nat) (v : LoggedValue) :
    redactValue protoAccessor noneSensitive left v = v ↔ Fixed protoAccessor left v := by
  induction left generalizing v with
  | zero => exact iff_of_true rfl trivial
  | succ left ih =>
    cases v with
    | undefined | null | bool b | number n | other typeName => exact iff_of_true rfl trivial
    | string s =>
      unfold redactValue Fixed
      dsimp only
      cases found : document? s with
      | none => simp
      | some document =>
        dsimp only
        rw [LoggedValue.string.injEq, redacted_text_iff left found, redactJson_eq_iff]
        constructor
        · intro fixed other same
          cases same
          exact fixed
        · exact fun all => all document rfl
    | array items =>
      rw [redactValue_array, LoggedValue.array.injEq, map_eq_self_iff]
      exact forall₂_congr fun item _ => ih item
    | record members =>
      rw [redactValue_record, LoggedValue.record.injEq, members_eq_iff]
      exact forall₂_congr fun member _ => and_congr_right fun _ => ih member.2
    | headers entries | object className members => exact iff_of_false nofun id

theorem new_nil_isSensitive (toLowerCase : JsString → JsString) :
    (Sanitizer.new toLowerCase []).isSensitive = noneSensitive := rfl

/-- A sanitizer without keys returns a value as it is exactly when it comes to no `Headers` and no object
of another class in it, every string that holds a document is the text that `JSON.stringify` gives of it,
and every name can be assigned. -/
theorem keyless_identity_iff (toLowerCase : JsString → JsString) (protoAccessor : Bool) (value : LoggedValue) :
    (Sanitizer.new toLowerCase []).sanitized protoAccessor value = value ↔
      Fixed protoAccessor MAX_DEPTH value := by
  unfold Sanitizer.sanitized
  rw [new_nil_isSensitive]
  exact redactValue_eq_iff MAX_DEPTH value

end values

/-- A date becomes an empty record, and a list in a text loses its space. -/
theorem keyless_sanitizer_changes :
    (Sanitizer.new id []).sanitized false (.object (js "Date") []) ≠ .object (js "Date") [] ∧
      (Sanitizer.new id []).sanitized false (.string (js "[ ]")) = .string (js "[]") := by
  constructor
  · intro same
    cases same
  · rfl

end ForgeDeno
