import ForgeDeno.JsNumber
import ForgeDeno.JsString

inductive JsonValue where
  | null
  | bool (value : Bool)
  | number (value : JsNumber)
  | string (value : JsString)
  | array (items : List JsonValue)
  | object (members : List (JsString × JsonValue))

/-- An ECMAScript value as a consumer of plain data sees it. `members` are the own enumerable
string-keyed properties in property order. -/
inductive JsValue where
  | undefined
  | null
  | bool (value : Bool)
  | number (value : JsNumber)
  | string (value : JsString)
  | array (items : List JsValue)
  /-- a missing element of a sparse array -/
  | hole
  /-- an object whose prototype is `Object.prototype` or `null` -/
  | record (members : List (JsString × JsValue))
  /-- an object with another prototype -/
  | exotic (members : List (JsString × JsValue))
  /-- an `ArrayBuffer` or a view of one -/
  | binary
  /-- a reference to an enclosing object, so many levels up -/
  | ancestor (levels : Nat)
  /-- a function, a symbol or a bigint, with its `typeof` -/
  | unsupported (typeName : JsString)

mutual

def JsonValue.toJs : JsonValue → JsValue
  | .null => .null
  | .bool b => .bool b
  | .number n => .number n
  | .string s => .string s
  | .array items => .array (JsonValue.itemsToJs items)
  | .object members => .record (JsonValue.membersToJs members)

def JsonValue.itemsToJs : List JsonValue → List JsValue
  | [] => []
  | item :: items => item.toJs :: JsonValue.itemsToJs items

def JsonValue.membersToJs : List (JsString × JsonValue) → List (JsString × JsValue)
  | [] => []
  | member :: members => JsonValue.memberToJs member :: JsonValue.membersToJs members

def JsonValue.memberToJs : JsString × JsonValue → JsString × JsValue
  | (key, item) => (key, item.toJs)

end

def JsValue.truthy : JsValue → Bool
  | .undefined | .null | .hole => false
  | .bool b => b
  | .number n => !n.eq 0 && n.eq n
  | .string s => s ≠ []
  | _ => true

def lookupMember {α : Type} (members : List (JsString × α)) (key : JsString) : Option α :=
  (members.find? fun member => member.1 == key).map (·.2)

theorem lookupMember_mem {α : Type} {members : List (JsString × α)} {key : JsString} {item : α}
    (found : lookupMember members key = some item) : (key, item) ∈ members := by
  unfold lookupMember at found
  obtain ⟨member, first, rfl⟩ := Option.map_eq_some_iff.mp found
  have same : member.1 = key := by simpa using List.find?_some first
  have mem := List.mem_of_find?_eq_some first
  rw [← same]
  exact mem

def arrayIndex? (key : JsString) : Option Nat :=
  if key.all fun u => 0x30 ≤ u && u ≤ 0x39 then
    match key with
    | [] => none
    | [u] => some (u.toNat - 0x30)
    | u :: _ =>
      let value := key.foldl (fun n v => 10 * n + (v.toNat - 0x30)) 0
      if u = 0x30 ∨ 2 ^ 32 - 1 ≤ value then none else some value
  else none

/-- `object[key] = item` on own data properties: a present key keeps its place, array indices
come first in ascending order, other keys go last. -/
def setMember {α : Type} (members : List (JsString × α)) (key : JsString) (item : α) : List (JsString × α) :=
  if (lookupMember members key).isSome then
    members.map fun member => if member.1 == key then (key, item) else member
  else
    match arrayIndex? key with
    | none => members ++ [(key, item)]
    | some index =>
      let before := members.takeWhile fun member =>
        match arrayIndex? member.1 with
        | some other => decide (other < index)
        | none => false
      before ++ (key, item) :: members.drop before.length
