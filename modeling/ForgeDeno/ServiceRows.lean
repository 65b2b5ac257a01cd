import ForgeDeno.EntryRules

namespace ForgeDeno

open EntryValue Option

variable {V : Type} [EntryValue V]

def emptyField (key : JsString) (value : V) : Bool :=
  if key = js "headers" then nullish value || (entries value).isEmpty
  else if key = js "request" ∨ key = js "response" then nullish value
  else !EntryValue.truthy value

/-- The row has the fields that are written for the process and are not empty, and no other field. -/
def RowAgrees (s row : Details V) : Prop :=
  ∀ key value, lookupMember row key = some value ↔
    lookupMember (marshalProcess s) key = some value ∧ emptyField key value = false

def HeadersEmpty (s : Details V) : Prop :=
  ∀ value, lookupMember s (js "headers") = some value → emptyField (js "headers") value = true

def agreeing (key : JsString) : Option FieldRule → FieldRule → Bool
  | some .truthy, .truthy => key ∉ [js "headers", js "request", js "response"]
  | some .truthy, .filled => key ∉ [js "headers", js "request", js "response"]
  | some .positiveLatency, .latency => key ∉ [js "headers", js "request", js "response"]
  | some .present, .present => key ∈ [js "request", js "response"]
  | none, .present => key = js "headers"
  | _, _ => false

theorem fields_agree :
    ∀ rule ∈ processFields, agreeing rule.1 (lookupMember serviceFields rule.1) rule.2 = true := by
  decide

theorem serviceFields_subset : ∀ rule ∈ serviceFields, rule.1 ∈ processFields.map Prod.fst := by
  decide

theorem emptyField_plain {key : JsString} (plain : key ∉ [js "headers", js "request", js "response"])
    (value : V) : emptyField key value = !EntryValue.truthy value := by
  simp only [List.mem_cons, List.not_mem_nil, or_false, not_or] at plain
  unfold emptyField
  rw [if_neg plain.1, if_neg (not_or.mpr plain.2)]

theorem emptyField_payload {key : JsString} (payload : key ∈ [js "request", js "response"]) (value : V) :
    emptyField key value = nullish value := by
  have other : key ≠ js "headers" := by
    rintro rfl
    revert payload
    decide
  simp only [List.mem_cons, List.not_mem_nil, or_false] at payload
  unfold emptyField
  rw [if_neg other, if_pos payload]

theorem filled_truthy (field : Option V) (value : V) :
    field.filter (fun value => EntryValue.truthy value) = some value ↔
      orElse field (string []) = value ∧ (!EntryValue.truthy value) = false := by
  have blank : EntryValue.truthy (string [] : V) = false := by
    rw [truthy_string]
    rfl
  rw [Bool.not_eq_false', filter_eq_some_iff]
  cases field with
  | none =>
    refine iff_of_false (fun h => by cases h.1) fun h => ?_
    have same : string [] = value := h.1
    rw [← same, blank] at h
    cases h.2
  | some v =>
    constructor
    · rintro ⟨same, holds⟩
      cases same
      refine ⟨?_, holds⟩
      unfold orElse
      rw [filter_some_pos (by rw [not_nullish _ holds]; rfl)]
      rfl
    · rintro ⟨same, holds⟩
      refine ⟨?_, holds⟩
      unfold orElse at same
      by_cases missing : nullish v = true
      · rw [filter_some_neg (by rw [missing]; rfl)] at same
        have blank' : string [] = value := same
        rw [← blank', blank] at holds
        cases holds
      · rw [filter_some_pos (by simpa using missing)] at same
        exact congrArg some same

theorem emit_agree {key : JsString} {row : Option FieldRule} {rule : FieldRule}
    (agree : agreeing key row rule = true) (other : key ≠ js "headers") (field : Option V) (value : V) :
    (row.bind fun row => row.emit field) = some value ↔
      rule.emit field = some value ∧ emptyField key value = false := by
  unfold agreeing at agree
  split at agree
  next =>
    rw [emptyField_plain (of_decide_eq_true agree), Bool.not_eq_false']
    show field.filter _ = some value ↔ field.filter _ = some value ∧ _
    rw [filter_eq_some_iff]
    tauto
  next =>
    rw [emptyField_plain (of_decide_eq_true agree)]
    show field.filter _ = some value ↔ some (orElse field (string [])) = some value ∧ _
    rw [some.injEq]
    exact filled_truthy field value
  next =>
    rw [emptyField_plain (of_decide_eq_true agree), Bool.not_eq_false']
    show (if (0 : JsNumber).lt (latencyOf field) then some (number (latencyOf field)) else none) = some value ↔
      some (number (latencyOf field)) = some value ∧ _
    have kept : (0 : JsNumber).lt (latencyOf field) = EntryValue.truthy (number (latencyOf field) : V) := by
      rw [truthy_number]
      exact zero_lt_latency _
    rw [kept]
    constructor
    · intro written
      split at written
      next holds =>
        refine ⟨written, ?_⟩
        rw [← some.inj written, holds]
      next => cases written
    · rintro ⟨same, holds⟩
      rw [← some.inj same] at holds ⊢
      exact if_pos holds
  next =>
    rw [emptyField_payload (of_decide_eq_true agree)]
    show field.filter _ = some value ↔ field.filter _ = some value ∧ _
    rw [filter_eq_some_iff]
    simp
  next => exact absurd (of_decide_eq_true agree) other
  next => cases agree

variable {protoAccessor : Bool}

theorem lookup_buildService (s : Details V) (key : JsString) : lookupMember (buildService protoAccessor s) key =
      (lookupMember serviceFields key).bind fun rule => rule.emit (lookupMember s key) := by
  have unique : (serviceFields.map Prod.fst).Nodup := by decide
  have names : ∀ name ∈ serviceFields.map Prod.fst, name ≠ protoKey := by decide
  have made : Assignable protoAccessor (writeFields serviceFields s) := by
    intro member mem
    have ordinary := names _ (mem_writeFields mem)
    simp [assigns, ordinary]
  unfold buildService
  rw [lookup_sortKeys (writeFields_ordered _ _) made, lookup_writeFields unique]

theorem lookup_marshalProcess (s : Details V) (key : JsString) : lookupMember (marshalProcess s) key =
      (lookupMember processFields key).bind fun rule => rule.emit (lookupMember s key) :=
  lookup_writeFields (by decide) s key

theorem row_agrees_iff (s : Details V) : RowAgrees s (buildService protoAccessor s) ↔ HeadersEmpty s := by
  have header_rule : lookupMember processFields (js "headers") = some .present := by decide
  have header_row : lookupMember serviceFields (js "headers") = none := by decide
  have row_none : lookupMember (buildService protoAccessor s) (js "headers") = none := by
    rw [lookup_buildService, header_row]
    rfl
  have written : lookupMember (marshalProcess s) (js "headers") =
      (lookupMember s (js "headers")).filter fun value => !nullish value := by
    rw [lookup_marshalProcess, header_rule]
    rfl
  constructor
  · intro agrees value held
    by_contra filled
    have some_value : emptyField (js "headers") value = false := by simpa using filled
    have present : (!nullish value) = true := by
      unfold emptyField at some_value
      rw [if_pos rfl, Bool.or_eq_false_iff] at some_value
      rw [some_value.1]
      rfl
    have emitted : lookupMember (marshalProcess s) (js "headers") = some value := by
      rw [written, held, filter_eq_some_iff]
      exact ⟨rfl, present⟩
    have missing := (agrees (js "headers") value).mpr ⟨emitted, some_value⟩
    cases row_none.symm.trans missing
  · intro empty key value
    by_cases header : key = js "headers"
    · rw [header, row_none, written, filter_eq_some_iff]
      refine iff_of_false nofun fun h => ?_
      have full := h.2
      rw [empty value h.1.1] at full
      cases full
    · rw [lookup_buildService, lookup_marshalProcess]
      cases found : lookupMember processFields key with
      | some rule =>
        have agree := fields_agree (key, rule) (lookupMember_mem found)
        exact emit_agree agree header _ value
      | none =>
        have missing : lookupMember serviceFields key = none := by
          cases other : lookupMember serviceFields key with
          | none => rfl
          | some rule =>
            obtain ⟨member, mem, same⟩ :=
              List.mem_map.mp (serviceFields_subset (key, rule) (lookupMember_mem other))
            have unique : (processFields.map Prod.fst).Nodup := by decide
            have held := (lookupMember_iff unique).mpr mem
            rw [same, found] at held
            cases held
        rw [missing]
        simp

/-- The rows of `buildServices` have the fields of the marshalled processes exactly when no process has
headers, and `buildDetails` and `marshalDetails` give the same members. -/
theorem template_helpers_agree_iff {V : Type} [EntryValue V] (protoAccessor : Bool) : (∀ items : List (Details V),
      (∀ (i : Nat) (s row : Details V), items[i]? = some s →
        (buildServices protoAccessor items)[i]? = some row → RowAgrees s row) ↔ ∀ s ∈ items, HeadersEmpty s) ∧
    ∀ (d : Details V) (key : JsString),
      lookupMember (buildDetails protoAccessor d) key = lookupMember (marshalDetails protoAccessor d) key := by
  refine ⟨fun items => ?_, fun d key => ?_⟩
  · constructor
    · intro agrees s mem
      obtain ⟨i, found⟩ := List.mem_iff_getElem?.mp mem
      have row : (buildServices protoAccessor items)[i]? = some (buildService protoAccessor s) := by
        unfold buildServices
        rw [List.getElem?_map, found]
        rfl
      exact (row_agrees_iff s).mp (agrees i s _ found row)
    · intro empty i s row found built
      unfold buildServices at built
      rw [List.getElem?_map, found] at built
      rw [← Option.some.inj built]
      exact (row_agrees_iff s).mpr (empty s (List.mem_of_getElem? found))
  · have names : ∀ name ∈ detailFields.map Prod.fst, name ≠ protoKey := by decide
    have made : Assignable protoAccessor (writeFields detailFields d) := by
      intro member mem
      have ordinary := names _ (mem_writeFields mem)
      simp [assigns, ordinary]
    exact lookup_sortKeys (assignAll_ordered (writeFields_ordered _ _) _) (assignAll_assignable made _) key

/-- A process with headers: its row has none. -/
theorem headers_row_differs :
    ¬∀ (items : List (Details JsonValue)) (i : Nat) (s row : Details JsonValue), items[i]? = some s →
      (buildServices false items)[i]? = some row → RowAgrees s row := by
  intro agrees
  let s : Details JsonValue := [(js "headers", .object [(js "accept", .string (js "text/plain"))])]
  have row := agrees [s] 0 s (buildService false s) rfl rfl (js "headers")
    (.object [(js "accept", .string (js "text/plain"))])
  have missing : (lookupMember (buildService false s) (js "headers")).isNone = true := by decide +kernel
  have written : lookupMember (marshalProcess s) (js "headers") =
      some (.object [(js "accept", .string (js "text/plain"))]) := by rfl
  rw [row.mpr ⟨written, rfl⟩] at missing
  cases missing

end ForgeDeno
