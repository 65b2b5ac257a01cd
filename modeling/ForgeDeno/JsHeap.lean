import ForgeDeno.JsonOrder

/-! Values with the identity of their objects, which hold data properties: getters, proxies and the objects
of other classes that have lost the prototype of their class are outside the model. -/

inductive Held where
  | undefined
  | null
  | bool (value : Bool)
  | number (value : JsNumber)
  | string (value : JsString)
  /-- a function, a symbol or a bigint, with its `typeof` -/
  | unsupported (typeName : JsString)
  | object (ref : Nat)

structure Properties where
  members : List (JsString × Held)
  ordered : (members.map Prod.fst).Pairwise fun a b => precedes a b = true

namespace Properties

def empty : Properties := ⟨[], .nil⟩

def set (properties : Properties) (key : JsString) (item : Held) : Properties :=
  ⟨setMember properties.members key item, setMember_ordered properties.ordered item⟩

end Properties

inductive JsObject where
  /-- an array; a missing element is `none` -/
  | array (items : List (Option Held))
  | record (properties : Properties)
  /-- an object whose prototype is neither `Object.prototype` nor `null` -/
  | exotic (properties : Properties)
  /-- an `ArrayBuffer` or a view of one -/
  | binary

def JsObject.contents : JsObject → List Held
  | .array items => items.filterMap id
  | .record properties => properties.members.map Prod.snd
  | .exotic properties => properties.members.map Prod.snd
  | .binary => []

/-- The objects of a program; those below `size` are allocated. -/
structure JsHeap where
  size : Nat
  object : Nat → JsObject

/-- The value refers to no object from `size` on. -/
def Held.below (size : Nat) : Held → Bool
  | .object ref => ref < size
  | _ => true

def JsObject.gapless : JsObject → Bool
  | .array items => items.all Option.isSome
  | _ => true

namespace JsHeap

def alloc (heap : JsHeap) (object : JsObject) : Held × JsHeap :=
  (.object heap.size, ⟨heap.size + 1, Function.update heap.object heap.size object⟩)

inductive Reaches (heap : JsHeap) : Held → Nat → Prop
  | here (ref : Nat) : Reaches heap (.object ref) ref
  | inside {ref : Nat} {item : Held} {inner : Nat} : item ∈ (heap.object ref).contents →
      Reaches heap item inner → Reaches heap (.object ref) inner

def Holds (heap : JsHeap) (value : Held) : Prop := ∀ ref, heap.Reaches value ref → ref < heap.size

def Full (heap : JsHeap) (value : Held) : Prop :=
  ∀ ref, heap.Reaches value ref → ∀ items, heap.object ref = .array items → none ∉ items

/-- Later objects may have been added, the earlier ones are as they were. -/
structure Extends (heap later : JsHeap) : Prop where
  size : heap.size ≤ later.size
  kept : ∀ ref < heap.size, later.object ref = heap.object ref

def view (heap : JsHeap) : Nat → List Nat → Held → JsValue
  | 0, _, _ => .undefined
  | _ + 1, _, .undefined => .undefined
  | _ + 1, _, .null => .null
  | _ + 1, _, .bool b => .bool b
  | _ + 1, _, .number n => .number n
  | _ + 1, _, .string s => .string s
  | _ + 1, _, .unsupported typeName => .unsupported typeName
  | levels + 1, seen, .object ref =>
    if ref ∈ seen then .ancestor (seen.idxOf ref)
    else match heap.object ref with
      | .array items => .array (items.map fun item => item.elim .hole (heap.view levels (ref :: seen)))
      | .record properties =>
        .record (properties.members.map fun member =>
          (member.1, heap.view levels (ref :: seen) member.2))
      | .exotic properties =>
        .exotic (properties.members.map fun member =>
          (member.1, heap.view levels (ref :: seen) member.2))
      | .binary => .binary

theorem Reaches.within {heap : JsHeap} {P : Nat → Prop}
    (closed : ∀ ref, P ref → ∀ inner, .object inner ∈ (heap.object ref).contents → P inner)
    {value : Held} {ref : Nat} (reaches : heap.Reaches value ref) :
    (∀ inner, value = .object inner → P inner) → P ref := by
  induction reaches with
  | here ref => exact fun start => start ref rfl
  | @inside outer item _ mem _ ih =>
    intro start
    apply ih
    rintro inner rfl
    exact closed outer (start outer rfl) inner mem

theorem holds_of_closed {heap : JsHeap} {value : Held}
    (closed : ∀ ref < heap.size, ∀ item ∈ (heap.object ref).contents, item.below heap.size = true)
    (start : value.below heap.size = true) : heap.Holds value := by
  intro ref reaches
  apply reaches.within (P := (· < heap.size))
  · intro outer old inner mem
    exact of_decide_eq_true (closed outer old _ mem)
  · rintro inner rfl
    exact of_decide_eq_true start

theorem full_of_gapless {heap : JsHeap} {value : Held} (holds : heap.Holds value)
    (gapless : ∀ ref < heap.size, (heap.object ref).gapless = true) : heap.Full value := by
  intro ref reaches items array missing
  have present := gapless ref (holds ref reaches)
  rw [array] at present
  exact Bool.false_ne_true (List.all_eq_true.mp present none missing)

section frame

variable {heap later : JsHeap}

theorem Extends.refl (heap : JsHeap) : heap.Extends heap := ⟨Nat.le_refl _, fun _ _ => rfl⟩

theorem Extends.trans {last : JsHeap} (first : heap.Extends later) (second : later.Extends last) :
    heap.Extends last := by
  constructor
  · exact Nat.le_trans first.size second.size
  · intro ref old
    rw [second.kept ref (Nat.lt_of_lt_of_le old first.size), first.kept ref old]

theorem extends_alloc (heap : JsHeap) (object : JsObject) : heap.Extends (heap.alloc object).2 := by
  constructor
  · exact Nat.le_succ _
  · intro ref old
    exact Function.update_of_ne (Nat.ne_of_lt old) _ _

theorem alloc_object (heap : JsHeap) (object : JsObject) :
    (heap.alloc object).2.object heap.size = object := Function.update_self _ _ _

theorem Holds.item {ref : Nat} {item : Held} (holds : heap.Holds (.object ref))
    (mem : item ∈ (heap.object ref).contents) : heap.Holds item :=
  fun inner reaches => holds inner (.inside mem reaches)

theorem Full.item {ref : Nat} {item : Held} (full : heap.Full (.object ref))
    (mem : item ∈ (heap.object ref).contents) : heap.Full item :=
  fun inner reaches => full inner (.inside mem reaches)

theorem Extends.reaches_iff (grown : heap.Extends later) {value : Held} {ref : Nat}
    (holds : heap.Holds value) : later.Reaches value ref ↔ heap.Reaches value ref := by
  constructor
  · intro reaches
    induction reaches with
    | here => exact .here _
    | inside mem _ ih =>
      rw [grown.kept _ (holds _ (.here _))] at mem
      exact .inside mem (ih (holds.item mem))
  · intro reaches
    induction reaches with
    | here => exact .here _
    | inside mem _ ih =>
      apply Reaches.inside _ (ih (holds.item mem))
      rw [grown.kept _ (holds _ (.here _))]
      exact mem

theorem Extends.holds (grown : heap.Extends later) {value : Held} (holds : heap.Holds value) :
    later.Holds value :=
  fun ref reaches => Nat.lt_of_lt_of_le (holds ref ((grown.reaches_iff holds).mp reaches)) grown.size

theorem Extends.full_iff (grown : heap.Extends later) {value : Held} (holds : heap.Holds value) :
    later.Full value ↔ heap.Full value := by
  constructor
  · intro full ref reaches items array
    apply full ref ((grown.reaches_iff holds).mpr reaches)
    rw [grown.kept ref (holds ref reaches)]
    exact array
  · intro full ref reaches items array
    have before := (grown.reaches_iff holds).mp reaches
    rw [grown.kept ref (holds ref before)] at array
    exact full ref before items array

theorem full_primitive {value : Held} (plain : ∀ ref, value ≠ .object ref) : heap.Full value := by
  intro ref reaches
  cases reaches with
  | here => exact absurd rfl (plain _)
  | inside => exact absurd rfl (plain _)

theorem mem_array {items : List (Option Held)} {item : Held} {ref : Nat}
    (array : heap.object ref = .array items) (mem : some item ∈ items) : item ∈ (heap.object ref).contents := by
  rw [array]
  exact List.mem_filterMap.mpr ⟨some item, mem, rfl⟩

theorem mem_record {properties : Properties} {member : JsString × Held} {ref : Nat}
    (record : heap.object ref = .record properties) (mem : member ∈ properties.members) :
    member.2 ∈ (heap.object ref).contents := by
  rw [record]
  exact List.mem_map_of_mem mem

theorem full_array {items : List (Option Held)} {ref : Nat} (array : heap.object ref = .array items) :
    heap.Full (.object ref) ↔ ∀ item ∈ items, ∃ held, item = some held ∧ heap.Full held := by
  constructor
  · intro full item mem
    cases item with
    | none => exact absurd mem (full ref (.here ref) items array)
    | some held => exact ⟨held, rfl, full.item (mem_array array mem)⟩
  · intro whole inner reaches others array'
    cases reaches with
    | here =>
      cases array.symm.trans array'
      intro gap
      obtain ⟨_, absurd', _⟩ := whole none gap
      cases absurd'
    | inside mem reaches =>
      rw [array] at mem
      obtain ⟨item, inside, same⟩ := List.mem_filterMap.mp mem
      obtain ⟨held, present, full⟩ := whole item inside
      cases present.symm.trans same
      exact full inner reaches others array'

theorem full_record {properties : Properties} {ref : Nat} (record : heap.object ref = .record properties) :
    heap.Full (.object ref) ↔ ∀ member ∈ properties.members, heap.Full member.2 := by
  constructor
  · exact fun full member mem => full.item (mem_record record mem)
  · intro whole inner reaches items array
    cases reaches with
    | here =>
      cases record.symm.trans array
    | inside mem reaches =>
      rw [record] at mem
      obtain ⟨member, inside, same⟩ := List.mem_map.mp mem
      rw [← same] at reaches
      exact whole member inside inner reaches items array

end frame

end JsHeap

structure ObjectGraph where
  heap : JsHeap
  value : Held
  holds : heap.Holds value
