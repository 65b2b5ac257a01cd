import ForgeDeno.LogSanitizer
import ForgeDeno.TextPieces

namespace ForgeDeno

open JsonText JsonValue List

section lists

theorem itemsOfJson_map (items : List JsonValue) : LogValue.itemsOfJson items = items.map LogValue.ofJson := by
  induction items with
  | nil => rfl
  | cons item items ih => exact congrArg _ ih

theorem membersOfJson_map (members : List (JsString × JsonValue)) :
    LogValue.membersOfJson members = members.map fun member => (member.1, .ofJson member.2) := by
  induction members with
  | nil => rfl
  | cons member members ih =>
    obtain ⟨key, item⟩ := member
    exact congrArg (List.cons _) ih

theorem itemsToJson_map (items : List LogValue) : LogValue.itemsToJson items = items.map LogValue.toJson := by
  induction items with
  | nil => rfl
  | cons item items ih => exact congrArg _ ih

theorem membersToJson_map (members : List (JsString × LogValue)) :
    LogValue.membersToJson members = members.map fun member => (member.1, member.2.toJson) := by
  induction members with
  | nil => rfl
  | cons member members ih =>
    obtain ⟨key, item⟩ := member
    exact congrArg (List.cons _) ih

end lists

namespace LogValue

/-- A value without `Headers` whose records have their members in property order. -/
inductive Plain : LogValue → Prop
  | null : Plain .null
  | bool (b : Bool) : Plain (.bool b)
  | number (n : JsNumber) : Plain (.number n)
  | string (s : JsString) : Plain (.string s)
  | array {items : List LogValue} : (∀ item ∈ items, item.Plain) → Plain (.array items)
  | record {members : List (JsString × LogValue)} :
    ((members.map Prod.fst).Pairwise fun a b => precedes a b = true) →
      (∀ member ∈ members, member.2.Plain) → Plain (.record members)

theorem plain_ofJson {v : JsonValue} (h : v.Ordered) : Plain (.ofJson v) := by
  induction h with
  | null => exact .null
  | bool b => exact .bool b
  | number n => exact .number n
  | string s => exact .string s
  | array _ ih =>
    apply Plain.array
    rw [itemsOfJson_map]
    intro item mem
    obtain ⟨source, inside, rfl⟩ := mem_map.mp mem
    exact ih source inside
  | object order _ ih =>
    apply Plain.record
    · rw [membersOfJson_map, map_map]
      exact order
    · rw [membersOfJson_map]
      intro member mem
      obtain ⟨source, inside, rfl⟩ := mem_map.mp mem
      exact ih source inside

theorem Plain.wellFormed {v : LogValue} (h : v.Plain) : v.toJson.WellFormed := by
  induction h with
  | null => trivial
  | bool => trivial
  | number n =>
    unfold toJson
    split
    next finite => exact finite
    next => trivial
  | string => trivial
  | array _ ih =>
    show ItemsWellFormed (itemsToJson _)
    rw [itemsToJson_map, itemsWellFormed_iff]
    intro item mem
    obtain ⟨source, inside, rfl⟩ := mem_map.mp mem
    exact ih source inside
  | record order _ ih =>
    refine ⟨?_, ?_⟩
    · rw [membersToJson_map, map_map]
      exact order
    · rw [membersToJson_map, membersWellFormed_iff]
      intro member mem
      obtain ⟨source, inside, rfl⟩ := mem_map.mp mem
      exact ih source inside

theorem Plain.redact (isSensitive : JsString → Bool) (left : Nat) {v : LogValue} (h : v.Plain) :
    (redact isSensitive left v).Plain := by
  induction left generalizing v with
  | zero => exact h
  | succ left ih =>
    cases h with
    | null => exact .null
    | bool b => exact .bool b
    | number n => exact .number n
    | string s =>
      unfold ForgeDeno.redact
      dsimp only
      split <;> exact .string _
    | array items =>
      apply Plain.array
      intro item mem
      obtain ⟨source, inside, rfl⟩ := mem_map.mp mem
      exact ih (items source inside)
    | record order members =>
      apply Plain.record
      · rw [map_map]
        exact order
      · intro member mem
        obtain ⟨source, inside, rfl⟩ := mem_map.mp mem
        dsimp only
        split
        · exact .string _
        · exact ih (members source inside)

def settled (v : LogValue) : LogValue := .ofJson v.toJson.plusZero

end LogValue

section exposes

variable {isSensitive : JsString → Bool}

end exposes

def isContainer : LogValue → Bool
  | .array _ | .record _ => true
  | _ => false

theorem parseValue_container {fuel : Nat} {u : UInt16} {s rest : JsString} {v : JsonValue}
    (opens : u = 0x7B ∨ u = 0x5B) (h : parseValue (fuel + 1) (u :: s) = some (v, rest)) :
    isContainer (.ofJson v) = true := by
  have space : isSpace u = false := by rcases opens with rfl | rfl <;> decide
  unfold parseValue at h
  rw [skipSpace_cons space] at h
  have other : ∀ {w : UInt16} {tail : JsString}, u :: s = w :: tail → w ≠ 0x7B → w ≠ 0x5B → False := by
    intro w tail same brace bracket
    rw [← (List.cons.inj same).1] at brace bracket
    exact opens.elim brace bracket
  split at h
  · split at h
    · cases h
      rfl
    · obtain ⟨_, _, made⟩ := Option.bind_eq_some_iff.mp h
      cases made
      rfl
  · split at h
    · cases h
      rfl
    · obtain ⟨_, _, made⟩ := Option.bind_eq_some_iff.mp h
      cases made
      rfl
  next same => exact (other same (by decide) (by decide)).elim
  next same => exact (other same (by decide) (by decide)).elim
  next same => exact (other same (by decide) (by decide)).elim
  next same => exact (other same (by decide) (by decide)).elim
  next brace bracket _ _ _ _ =>
    rcases opens with rfl | rfl
    · exact (brace s rfl).elim
    · exact (bracket s rfl).elim

theorem document_container {s : JsString} {document : JsonValue} (h : document? s = some document) :
    isContainer (.ofJson document) = true ∧ document.Ordered := by
  have opened : ∃ u rest, (u = 0x7B ∨ u = 0x5B) ∧ parse (u :: rest) = some document := by
    unfold document? at h
    split at h
    · exact ⟨_, _, .inl rfl, h⟩
    · exact ⟨_, _, .inr rfl, h⟩
    · cases h
  obtain ⟨u, rest, opens, parsed⟩ := opened
  refine ⟨?_, parse_ordered parsed⟩
  unfold parse at parsed
  obtain ⟨⟨value, rest'⟩, first, made⟩ := Option.bind_eq_some_iff.mp parsed
  dsimp only at made
  split at made
  · cases made
    exact parseValue_container opens first
  · cases made

theorem document_stringify {v : LogValue} (plain : v.Plain) (container : isContainer v = true) :
    ∃ text, v.stringify = some text ∧ document? text = some v.toJson.plusZero := by
  refine ⟨v.toJson.text, stringify_toJs _, ?_⟩
  have parsed := parse_text plain.wellFormed
  cases v with
  | array items =>
    have shape : (LogValue.array items).toJson.text = 0x5B :: commaSeparated
        (itemTexts (LogValue.itemsToJson items)) ++ [0x5D] := rfl
    unfold document?
    rw [shape] at parsed ⊢
    rw [trim_enclosed (by decide) (by decide)]
    exact parsed
  | record members =>
    have shape : (LogValue.record members).toJson.text = 0x7B :: commaSeparated
        (memberTexts (LogValue.membersToJson members)) ++ [0x7D] := rfl
    unfold document?
    rw [shape] at parsed ⊢
    rw [trim_enclosed (by decide) (by decide)]
    exact parsed
  | _ => cases container

namespace Sanitizer

end Sanitizer

end ForgeDeno
