import ForgeDeno.SanitizerIdentity

namespace ForgeDeno

open JsonText JsonValue List

def Sanitizer.logFormat (protoAccessor : Bool) (s : Sanitizer) (line : JsString) : JsString :=
  match document? line with
  | some document =>
    ((LogValue.ofJson (redactJson protoAccessor s.isSensitive MAX_DEPTH document)).stringify).getD line
  | none => line

section texts

mutual

theorem text_ofJson : ∀ v : JsonValue, (LogValue.ofJson v).toJson.text = v.text
  | .null => rfl
  | .bool _ => rfl
  | .number n => by
    show (if n.isFinite then JsonValue.number n else .null).text =
      if n.isFinite then numberText n else js "null"
    by_cases finite : n.isFinite = true
    · rw [if_pos finite, if_pos finite]
      exact if_pos finite
    · rw [if_neg finite, if_neg finite]
      rfl
  | .string _ => rfl
  | .array items => by
    show 0x5B :: commaSeparated (itemTexts (LogValue.itemsToJson (LogValue.itemsOfJson items))) ++ [0x5D] = _
    rw [itemTexts_ofJson items]
    rfl
  | .object members => by
    show 0x7B :: commaSeparated (memberTexts (LogValue.membersToJson (LogValue.membersOfJson members))) ++
      [0x7D] = _
    rw [memberTexts_ofJson members]
    rfl

theorem itemTexts_ofJson : ∀ items : List JsonValue,
    itemTexts (LogValue.itemsToJson (LogValue.itemsOfJson items)) = itemTexts items
  | [] => rfl
  | item :: items => by
    rw [LogValue.itemsOfJson, LogValue.itemsToJson, itemTexts, itemTexts, text_ofJson item,
      itemTexts_ofJson items]

theorem memberTexts_ofJson : ∀ members : List (JsString × JsonValue),
    memberTexts (LogValue.membersToJson (LogValue.membersOfJson members)) = memberTexts members
  | [] => rfl
  | (key, item) :: members => by
    rw [LogValue.membersOfJson, LogValue.memberOfJson, LogValue.membersToJson, LogValue.memberToJson,
      memberTexts, memberTexts, memberText, memberText, text_ofJson item, memberTexts_ofJson members]

end

theorem stringify_readBack (v : JsonValue) :
    (LogValue.ofJson (readBack v)).stringify = (LogValue.ofJson v).stringify := by
  have written : ∀ w : JsonValue, (LogValue.ofJson w).stringify = some w.text := by
    intro w
    have whole : (LogValue.ofJson w).stringify = some (LogValue.ofJson w).toJson.text := stringify_toJs _
    rw [whole, text_ofJson]
  have same : (readBack v).text = v.text := by
    unfold readBack
    rw [text_plusZero, text_ofJson]
  rw [written, written, same]

end texts

section redacting

variable {protoAccessor : Bool} {isSensitive : JsString → Bool}

theorem readBack_number (n : JsNumber) :
    readBack (.number n) = .number n.plusZero ∨ readBack (.number n) = .null := by
  show JsonValue.plusZero (if n.isFinite then .number n else .null) = _ ∨ _
  by_cases finite : n.isFinite = true
  · left
    rw [if_pos finite]
    rfl
  · right
    show JsonValue.plusZero (if n.isFinite then .number n else .null) = _
    rw [if_neg finite]
    rfl

theorem redactJson_readBack (left : Nat) (v : JsonValue) :
    redactJson protoAccessor isSensitive left (readBack v) =
      readBack (redactJson protoAccessor isSensitive left v) := by
  induction left generalizing v with
  | zero => rfl
  | succ left ih =>
    cases v with
    | null => rfl
    | bool b => rfl
    | number n =>
      show _ = readBack (.number n)
      rcases readBack_number n with same | same <;> rw [same] <;> rfl
    | string s =>
      have same : readBack (.string s) = .string s := rfl
      rw [same]
      unfold redactJson
      dsimp only
      cases document? s with
      | none => rfl
      | some document => rfl
    | array items =>
      have source : redactJson protoAccessor isSensitive (left + 1) (.array items) =
          .array (items.map (redactJson protoAccessor isSensitive left)) := rfl
      have changed : redactJson protoAccessor isSensitive (left + 1) (.array (items.map readBack)) =
          .array ((items.map readBack).map (redactJson protoAccessor isSensitive left)) := rfl
      rw [source, readBack_array, readBack_array, changed, map_map, map_map]
      congr 1
      exact map_congr_left fun item _ => ih item
    | object members =>
      rw [readBack_object]
      unfold redactJson
      dsimp only
      rw [readBack_object, filter_map, map_map, map_map]
      congr 1
      apply map_congr_left
      intro member _
      show (member.1, if isSensitive member.1 then JsonValue.string REDACTED else
        redactJson protoAccessor isSensitive left (readBack member.2)) =
          (member.1, readBack (if isSensitive member.1 then .string REDACTED else
            redactJson protoAccessor isSensitive left member.2))
      rw [ih]
      split
      · rfl
      · rfl

theorem redacted_text {s : JsString} {document : JsonValue} (found : document? s = some document) (left : Nat) :
    ∃ text, (LogValue.ofJson (redactJson protoAccessor isSensitive left document)).stringify = some text ∧
      document? text = some (readBack (redactJson protoAccessor isSensitive left document)) := by
  obtain ⟨container, ordered⟩ := document_container found
  have plain := LogValue.plain_ofJson (@ordered_redactJson protoAccessor isSensitive left _ ordered)
  exact document_stringify plain (redactJson_container left container)

theorem redacted_text_again {document : JsonValue} {text : JsString} {left : Nat}
    (again : redactJson protoAccessor isSensitive left (redactJson protoAccessor isSensitive left document) =
      redactJson protoAccessor isSensitive left document)
    (written : (LogValue.ofJson (redactJson protoAccessor isSensitive left document)).stringify = some text) :
    (LogValue.ofJson (redactJson protoAccessor isSensitive left
      (readBack (redactJson protoAccessor isSensitive left document)))).stringify = some text := by
  rw [redactJson_readBack, again, stringify_readBack, written]

theorem redactJson_twice (left : Nat) (v : JsonValue) :
    redactJson protoAccessor isSensitive left (redactJson protoAccessor isSensitive left v) =
      redactJson protoAccessor isSensitive left v := by
  induction left generalizing v with
  | zero => rfl
  | succ left ih =>
    cases v with
    | null => rfl
    | bool b => rfl
    | number n => rfl
    | string s =>
      cases found : document? s with
      | none =>
        have kept : redactJson protoAccessor isSensitive (left + 1) (.string s) = .string s := by
          simp only [redactJson, found]
        rw [kept, kept]
      | some document =>
        obtain ⟨text, written, read⟩ := @redacted_text protoAccessor isSensitive s document found left
        have once : redactJson protoAccessor isSensitive (left + 1) (.string s) = .string text := by
          simp only [redactJson, found, written, Option.getD_some]
        have twice : redactJson protoAccessor isSensitive (left + 1) (.string text) = .string text := by
          simp only [redactJson, read, redacted_text_again (ih document) written, Option.getD_some]
        rw [once, twice]
    | array items =>
      have step : ∀ items : List JsonValue, redactJson protoAccessor isSensitive (left + 1) (.array items) =
          .array (items.map (redactJson protoAccessor isSensitive left)) := fun _ => rfl
      rw [step, step, map_map]
      congr 1
      exact map_congr_left fun item _ => ih item
    | object members =>
      let change : JsString × JsonValue → JsString × JsonValue := fun member =>
        (member.1, if isSensitive member.1 then .string REDACTED else
          redactJson protoAccessor isSensitive left member.2)
      let kept := members.filter fun member => assigns protoAccessor member.1
      have again : (kept.map change).filter (fun member => assigns protoAccessor member.1) = kept.map change := by
        apply filter_eq_self.mpr
        intro member mem
        obtain ⟨source, inside, rfl⟩ := mem_map.mp mem
        exact (mem_filter.mp inside).2
      show JsonValue.object (((kept.map change).filter fun member => assigns protoAccessor member.1).map change) =
        .object (kept.map change)
      rw [again, map_map]
      congr 1
      apply map_congr_left
      intro member _
      show (member.1, if isSensitive member.1 then JsonValue.string REDACTED else redactJson protoAccessor
        isSensitive left (if isSensitive member.1 then .string REDACTED else
          redactJson protoAccessor isSensitive left member.2)) = change member
      by_cases sensitive : isSensitive member.1 = true
      · simp only [change, if_pos sensitive]
      · simp only [change, if_neg sensitive, ih]

theorem redactValue_ofJson (left : Nat) (v : JsonValue) :
    redactValue protoAccessor isSensitive left (.ofLog (.ofJson v)) =
      .ofLog (.ofJson (redactJson protoAccessor isSensitive left v)) := by
  induction left generalizing v with
  | zero => rfl
  | succ left ih =>
    cases v with
    | null => rfl
    | bool b => rfl
    | number n => rfl
    | string s =>
      unfold redactJson LogValue.ofJson LoggedValue.ofLog redactValue
      dsimp only
      cases document? s with
      | none => rfl
      | some document => rfl
    | array items =>
      show LoggedValue.array ((LoggedValue.itemsOfLog (LogValue.itemsOfJson items)).map
          (redactValue protoAccessor isSensitive left)) =
        .array (LoggedValue.itemsOfLog (LogValue.itemsOfJson
          (items.map (redactJson protoAccessor isSensitive left))))
      simp only [itemsOfJson_map, itemsOfLog_map, map_map]
      congr 1
      exact map_congr_left fun item _ => ih item
    | object members =>
      unfold redactJson LogValue.ofJson LoggedValue.ofLog redactValue
      dsimp only
      simp only [membersOfJson_map, membersOfLog_map, filter_map, map_map]
      congr 1
      apply map_congr_left
      intro member _
      show (member.1, if isSensitive member.1 then LoggedValue.string REDACTED else
        redactValue protoAccessor isSensitive left (.ofLog (.ofJson member.2))) =
          (member.1, LoggedValue.ofLog (.ofJson (if isSensitive member.1 then .string REDACTED else
            redactJson protoAccessor isSensitive left member.2)))
      rw [ih]
      split
      · rfl
      · rfl

/-- A sanitized JSON value and a sanitized line are not changed by the sanitizer, whatever its keys are. -/
theorem sanitizer_idempotent (toLowerCase : JsString → JsString) (sensitiveKeys : List JsString)
    (protoAccessor : Bool) :
    (∀ v : JsonValue,
      let sanitizer := Sanitizer.new toLowerCase sensitiveKeys
      let sanitized := sanitizer.sanitized protoAccessor (.ofLog (.ofJson v))
      sanitizer.sanitized protoAccessor sanitized = sanitized) ∧
    ∀ line,
      let sanitizer := Sanitizer.new toLowerCase sensitiveKeys
      let sanitized := sanitizer.logFormat protoAccessor line
      sanitizer.logFormat protoAccessor sanitized = sanitized := by
  refine ⟨fun v => ?_, fun line => ?_⟩
  · dsimp only
    unfold Sanitizer.sanitized
    rw [redactValue_ofJson, redactValue_ofJson, redactJson_twice]
  · dsimp only
    unfold Sanitizer.logFormat
    cases found : document? line with
    | none =>
      dsimp only
      rw [found]
    | some document =>
      obtain ⟨text, written, read⟩ := @redacted_text protoAccessor
        (Sanitizer.new toLowerCase sensitiveKeys).isSensitive line document found MAX_DEPTH
      have again := redacted_text_again (redactJson_twice MAX_DEPTH document) written
      dsimp only
      rw [written, Option.getD_some, read]
      dsimp only
      rw [again, Option.getD_some]

end redacting

end ForgeDeno
