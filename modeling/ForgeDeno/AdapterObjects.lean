import ForgeDeno.AdapterRegistry
import ForgeDeno.CanonicalJson

/-! Native adapters as objects: the properties they hold themselves, those of their prototypes, and
their methods, which are called with the object as `this`. Their properties are data properties. -/

namespace ForgeDeno

inductive AdapterField where
  | undefined
  | string (value : JsString)
  | strings (items : List JsString)
  | boolean (value : Bool)
  | function (id : Nat)
  | other (id : Nat)
deriving DecidableEq

structure OwnProperty where
  value : AdapterField
  enumerable : Bool

/-- An object as a method finds it in `this`, with the private fields of its class or without. -/
structure AdapterObject where
  own : List (JsString × OwnProperty)
  inherited : List (JsString × AdapterField)
  privateFields : Bool
  frozen : Bool
  ordered : (own.map Prod.fst).Pairwise fun a b => precedes a b = true

namespace AdapterObject

def get (object : AdapterObject) (key : JsString) : Option AdapterField :=
  match lookupMember object.own key with
  | some property => some property.value
  | none => lookupMember object.inherited key

def spread (object : AdapterObject) : List (JsString × OwnProperty) :=
  object.own.filter fun property => property.2.enumerable

theorem spread_ordered (object : AdapterObject) :
    (object.spread.map Prod.fst).Pairwise fun a b => precedes a b = true :=
  object.ordered.sublist (List.filter_sublist.map Prod.fst)

/-- `Object.freeze({ ...adapter, parityQualified: true })` -/
def qualifiedCopy (adapter : AdapterObject) : AdapterObject where
  own := setMember adapter.spread (js "parityQualified") ⟨.boolean true, true⟩
  inherited := []
  privateFields := false
  frozen := true
  ordered := setMember_ordered adapter.spread_ordered _

def Copies (object : AdapterObject) (key : JsString) (value : AdapterField) : Prop :=
  lookupMember object.own key = some ⟨value, true⟩

theorem get_of_copies {object : AdapterObject} {key : JsString} {value : AdapterField}
    (copied : object.Copies key value) : object.get key = some value := by
  rw [get, copied]

theorem get_qualifiedCopy {adapter : AdapterObject} {key : JsString}
    (other : key ≠ js "parityQualified") (value : AdapterField) :
    adapter.qualifiedCopy.get key = some value ↔ adapter.Copies key value := by
  have unique := nodup_of_ordered adapter.ordered
  have spread_unique := nodup_of_ordered adapter.spread_ordered
  have read : lookupMember adapter.qualifiedCopy.own key = lookupMember adapter.spread key := by
    show lookupMember (setMember adapter.spread _ _) key = _
    rw [lookupMember_setMember, if_neg other]
  have kept : ∀ property, lookupMember adapter.spread key = some property ↔
      lookupMember adapter.own key = some property ∧ property.enumerable = true := by
    intro property
    rw [lookupMember_iff spread_unique, lookupMember_iff unique, spread, List.mem_filter]
  rw [get, read, Copies]
  constructor
  · intro found
    split at found
    next property present =>
      cases found
      obtain ⟨here, shown⟩ := (kept property).mp present
      rw [here, ← shown]
    next => cases found
  · intro copied
    rw [(kept ⟨value, true⟩).mpr ⟨copied, rfl⟩]

theorem get_parityQualified (adapter : AdapterObject) :
    adapter.qualifiedCopy.get (js "parityQualified") = some (.boolean true) := by
  have read : lookupMember adapter.qualifiedCopy.own (js "parityQualified")
      = some ⟨.boolean true, true⟩ := by
    show lookupMember (setMember adapter.spread _ _) _ = _
    rw [lookupMember_setMember, if_pos rfl]
  rw [get, read]

/-- The own enumerable properties without the flag that qualification sets. -/
def ownData (object : AdapterObject) : List (JsString × OwnProperty) :=
  object.spread.filter fun property => property.1 ≠ js "parityQualified"

/-- The second object has the own enumerable properties of the first, whatever its prototype, its private
fields, its other properties and the flag are; it is frozen if the first one is. -/
structure SameData (object other : AdapterObject) : Prop where
  data : other.ownData = object.ownData
  frozen : object.frozen = true → other.frozen = true

/-- The effect uses the object only through its own enumerable properties, and not to change it. -/
def UsesOwnData {β : Type} (effect : AdapterObject → β) (object : AdapterObject) : Prop :=
  ∀ other, object.SameData other → effect other = effect object

theorem mem_ownData {object : AdapterObject} {key : JsString} (other : key ≠ js "parityQualified")
    (value : AdapterField) : (key, ⟨value, true⟩) ∈ object.ownData ↔ object.Copies key value := by
  unfold ownData spread Copies
  rw [lookupMember_iff (nodup_of_ordered object.ordered), List.mem_filter, List.mem_filter]
  simp [other]

theorem SameData.get {object other : AdapterObject} (same : object.SameData other) {key : JsString}
    (apart : key ≠ js "parityQualified") {value : AdapterField} (copied : object.Copies key value) :
    other.get key = some value := by
  rw [← mem_ownData apart, ← same.data, mem_ownData apart] at copied
  exact get_of_copies copied

theorem sameData_qualifiedCopy (adapter : AdapterObject) : adapter.SameData adapter.qualifiedCopy where
  data := by
    have enumerable : adapter.qualifiedCopy.spread = adapter.qualifiedCopy.own := by
      refine List.filter_eq_self.mpr fun property mem => ?_
      rcases mem_setMember mem with old | rfl
      · exact (List.mem_filter.mp old).2
      · rfl
    unfold ownData
    rw [enumerable]
    exact setMember_others _ _
  frozen _ := rfl

/-- The fields that the registry reads; the pattern of names tests a missing one as `undefined`. -/
def view (object : AdapterObject) : NativeWasmAdapter where
  name := match object.get (js "name") with
    | some (.string name) => name
    | _ => js "undefined"
  operations := match object.get (js "operations") with
    | some (.strings operations) => some operations
    | _ => none
  parityQualified := match object.get (js "parityQualified") with
    | some (.boolean b) => .bool b
    | _ => .undefined
  hasInvoke := match object.get (js "invoke") with
    | some (.function _) => true
    | _ => false

end AdapterObject

structure NativeAdapterContext where
  aborted : Bool
  attempt : Nat
  deadlineUnixMs : Option JsNumber

structure AdapterFunctions (σ : Type) where
  invoke : Nat → AdapterObject → AbiRequestV1 → NativeAdapterContext → σ → Except Thrown JsonDatum × σ
  close : Nat → AdapterObject → σ → Except Thrown Unit × σ

namespace AdapterFunctions

variable {σ : Type} (functions : AdapterFunctions σ)

def invokeOn (adapter : AdapterObject) (request : AbiRequestV1) (context : NativeAdapterContext)
    (s : σ) : Except Thrown JsonDatum × σ :=
  match adapter.get (js "invoke") with
  | some (.function id) => functions.invoke id adapter request context s
  | _ => (.error (.typeError (js "adapter.invoke is not a function")), s)

def closeOn (adapter : AdapterObject) (s : σ) : Except Thrown Unit × σ :=
  match adapter.get (js "close") with
  | none => (.ok (), s)
  | some .undefined => (.ok (), s)
  | some (.function id) => functions.close id adapter s
  | some _ => (.error (.typeError (js "adapter.close is not a function")), s)

end AdapterFunctions

structure NativeAdapter where
  object : AdapterObject
  name : JsString
  operations : List JsString
  named : object.get (js "name") = some (.string name)
  listed : object.get (js "operations") = some (.strings operations)
  closable : ∀ field, object.get (js "close") = some field →
    field = .undefined ∨ ∃ id, field = .function id

end ForgeDeno
