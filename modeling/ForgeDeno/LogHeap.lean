import ForgeDeno.LogEntries

namespace ForgeDeno

/-- A value that is logged. An object is written out, or it is one of a heap, where it may be shared and may
be nested in itself. -/
inductive LogTree (O : Type) where
  | undefined
  | null
  | bool (value : Bool)
  | number (value : JsNumber)
  | string (value : JsString)
  | bigint (value : Int)
  /-- a symbol, by its `String` -/
  | symbol (text : JsString)
  /-- a function, by its `String` and what a call of it gives; `none` where it throws -/
  | function (text : JsString) (call : Option (LogTree O))
  | array (items : List (LogTree O))
  /-- an object whose prototype is `Object.prototype` -/
  | record (members : List (JsString × LogTree O))
  | headers (entries : List (JsString × JsString))
  /-- an object with another prototype, with the members that it inherits -/
  | object (inherited members : List (JsString × LogTree O))
  | ref (object : O)

structure LogHeap (O : Type) where
  content : O → LogTree O
  resolved : ∀ o p, content o ≠ .ref p
  levels : Nat

variable {O : Type}

namespace LogTree

def isPrimitive : LogTree O → Bool
  | .undefined | .null | .bool _ | .number _ | .string _ | .bigint _ | .symbol _ => true
  | _ => false

def property? (key : JsString) : LogTree O → Option (LogTree O)
  | .record members => lookupMember members key
  | .object inherited members => (lookupMember members key).or (lookupMember inherited key)
  | _ => none

def integerText (n : Int) : JsString :=
  if n < 0 then 0x2D :: JsonText.naturalText n.natAbs else JsonText.naturalText n.natAbs

/-- `String` of a primitive value inside a template literal, where a symbol throws. -/
def primitiveText : LogTree O → Option JsString
  | .undefined => some (js "undefined")
  | .null => some (js "null")
  | .bool b => some (if b then js "true" else js "false")
  | .number n => some (JsonText.numberText n)
  | .string s => some s
  | .bigint n => some (integerText n)
  | _ => none

end LogTree

namespace LogHeap

variable (heap : LogHeap O)

def view : LogTree O → LogTree O
  | .ref o => heap.content o
  | v => v

def truthy (v : LogTree O) : Bool :=
  match heap.view v with
  | .undefined | .null => false
  | .bool b => b
  | .number n => !n.eq 0 && n.eq n
  | .string s => decide (s ≠ [])
  | .bigint n => decide (n ≠ 0)
  | _ => true

def nullish (v : LogTree O) : Bool :=
  match heap.view v with
  | .undefined | .null => true
  | _ => false

theorem not_nullish (v : LogTree O) (truthy : heap.truthy v = true) : heap.nullish v = false := by
  unfold LogHeap.truthy at truthy
  unfold nullish
  cases same : heap.view v with
  | undefined =>
    rw [same] at truthy
    cases truthy
  | null =>
    rw [same] at truthy
    cases truthy
  | _ => rfl

def entries (v : LogTree O) : Details (LogTree O) :=
  match heap.view v with
  | .string s => indexed (s.map fun u => .string [u])
  | .array items => indexed items
  | .record members | .object _ members => members
  | _ => []

def method? (v : LogTree O) (key : JsString) : Option (Option (LogTree O)) :=
  match ((heap.view v).property? key).map heap.view with
  | some (.function _ call) => some call
  | _ => none

/-- What `JSON.stringify` writes for a value: what its `toJSON` gives, if it has one. -/
def written (v : LogTree O) : Option (LogTree O) :=
  match heap.method? v (js "toJSON") with
  | some call => call.map heap.view
  | none => some (heap.view v)

/-- `JSON.stringify`, with `none` inside for `undefined`; it throws where a bigint, an object in itself, or
one that the stack does not hold is to be written. -/
def stringify : Nat → LogTree O → Option (Option JsString)
  | 0, _ => none
  | levels + 1, v =>
    match heap.written v with
    | some .null => some (some (js "null"))
    | some (.bool b) => some (some (if b then js "true" else js "false"))
    | some (.number n) => some (some (if n.isFinite then JsonText.numberText n else js "null"))
    | some (.string s) => some (some (JsonText.quote s))
    | some (.array items) => do
      let texts ← items.mapM (stringify levels)
      some (some (0x5B :: JsonText.commaSeparated (texts.map (·.getD (js "null"))) ++ [0x5D]))
    | some (.record members) | some (.object _ members) => do
      let texts ← members.mapM fun member =>
        (stringify levels member.2).map fun text => text.map (JsonText.quote member.1 ++ 0x3A :: ·)
      some (some (0x7B :: JsonText.commaSeparated (texts.filterMap id) ++ [0x7D]))
    | some (.headers _) => some (some (js "\x7b\x7d"))
    | some .undefined | some (.symbol _) | some (.function _ _) => some none
    | some (.bigint _) | some (.ref _) | none => none

/-- The text of an object by its methods `toString` and `valueOf`, without one of its own for all objects. -/
def methodText (v : LogTree O) : Option JsString :=
  let valueText : Option JsString :=
    match heap.method? v (js "valueOf") with
    | some (some result) => if result.isPrimitive then result.primitiveText else none
    | _ => none
  match (heap.view v).property? (js "toString"), heap.method? v (js "toString") with
  | none, _ => some (js "[object Object]")
  | some _, some (some result) => if result.isPrimitive then result.primitiveText else valueText
  | some _, some none => none
  | some _, none => valueText

/-- A value inside a template literal; an array that is being joined already has no text. -/
def template [DecidableEq O] : Nat → List O → LogTree O → Option JsString
  | 0, _, _ => none
  | levels + 1, path, v =>
    let (inside, joining) : List O × Bool :=
      match v with
      | .ref o => (o :: path, decide (o ∈ path))
      | _ => (path, false)
    match heap.view v with
    | .function text _ => some text
    | .array items =>
      if joining then some []
      else (items.mapM fun item =>
        if heap.nullish item then some [] else template levels inside item).map fun texts => (js ",").intercalate texts
    | .record members => heap.methodText (.record members)
    | .object inherited members => heap.methodText (.object inherited members)
    | .headers _ => some (js "[object Headers]")
    | other => other.primitiveText

end LogHeap

mutual

def LogTree.ofJson : JsonValue → LogTree O
  | .null => .null
  | .bool b => .bool b
  | .number n => .number n
  | .string s => .string s
  | .array items => .array (LogTree.itemsOfJson items)
  | .object members => .record (LogTree.membersOfJson members)

def LogTree.itemsOfJson : List JsonValue → List (LogTree O)
  | [] => []
  | item :: items => LogTree.ofJson item :: LogTree.itemsOfJson items

def LogTree.membersOfJson : List (JsString × JsonValue) → List (JsString × LogTree O)
  | [] => []
  | member :: members => LogTree.memberOfJson member :: LogTree.membersOfJson members

def LogTree.memberOfJson : JsString × JsonValue → JsString × LogTree O
  | (key, item) => (key, LogTree.ofJson item)

end

def HeapValue (_heap : LogHeap O) : Type := LogTree O

variable {heap : LogHeap O}

instance : EntryValue (HeapValue heap) where
  string := .string
  number := .number
  record := .record
  array := .array
  truthy := heap.truthy
  nullish := heap.nullish
  isObject v :=
    match heap.view v with
    | .array _ | .record _ | .headers _ | .object _ _ => true
    | _ => false
  number? v :=
    match heap.view v with
    | .number n => some n
    | _ => none
  items? v :=
    match heap.view v with
    | .array items => some items
    | _ => none
  entries := heap.entries
  truthy_string _ := rfl
  truthy_number _ := rfl
  not_nullish := heap.not_nullish

instance [DecidableEq O] : EntryText (HeapValue heap) where
  ofJson := LogTree.ofJson
  string? v :=
    match heap.view v with
    | .string s => some s
    | _ => none
  stringify v := heap.stringify heap.levels v
  toText v :=
    match heap.view v with
    | .symbol text => some text
    | _ => heap.template heap.levels [] v
  template v := heap.template heap.levels [] v

end ForgeDeno
