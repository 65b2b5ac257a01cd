import ForgeDeno.AbiRoundTrip
import ForgeDeno.JsHeap

namespace ForgeDeno

open JsonValue ExceptRules List JsHeap

namespace ObjectGraph

/-- `value.map(...)`: a missing element stays missing. -/
def copyItems (copy : JsString → Held → JsHeap → Except Thrown (Held × JsHeap)) (path : JsString) :
    Nat → List (Option Held) → JsHeap → Except Thrown (List (Option Held) × JsHeap)
  | _, [], heap => .ok ([], heap)
  | index, none :: items, heap => do
    let (copies, heap) ← copyItems copy path (index + 1) items heap
    .ok (none :: copies, heap)
  | index, some item :: items, heap => do
    let (item, heap) ← copy (path ++ js "[" ++ JsonText.naturalText index ++ js "]") item heap
    let (copies, heap) ← copyItems copy path (index + 1) items heap
    .ok (some item :: copies, heap)

def copyEntries (copy : JsString → Held → JsHeap → Except Thrown (Held × JsHeap))
    (path : JsString) : List (JsString × Held) → Properties → JsHeap → Except Thrown (Properties × JsHeap)
  | [], result, heap => .ok (result, heap)
  | (key, item) :: entries, result, heap =>
    if key ∈ reservedKeys then
      .error (wasmCodecError (path ++ js " contains a reserved object key"))
    else do
      let (item, heap) ← copy (path ++ js "." ++ key) item heap
      copyEntries copy path entries (result.set key item) heap

/-- `levels` counts the depths from this one to `MAX_JSON_DEPTH`; `seen` are the enclosing objects. -/
def copyAbiValue : Nat → List Nat → JsString → Held → JsHeap → Except Thrown (Held × JsHeap)
  | 0, _, _, _, _ => .error (wasmCodecError (js "ABI data exceeds maximum nesting depth 32"))
  | levels + 1, seen, path, value, heap =>
    match value with
    | .null | .string _ | .bool _ => .ok (value, heap)
    | .number n =>
      if n.isFinite then .ok (value, heap)
      else .error (wasmCodecError (path ++ js " is not a finite number"))
    | .undefined => .error (wasmCodecError (path ++ js " contains unsupported undefined data"))
    | .unsupported typeName =>
      .error (wasmCodecError (path ++ js " contains unsupported " ++ typeName ++ js " data"))
    | .object ref =>
      -- no enclosing object is a buffer, so the two checks may stand in either order
      if ref ∈ seen then .error (wasmCodecError (path ++ js " contains a reference cycle"))
      else match heap.object ref with
        | .binary => .error (wasmCodecError (path ++
            js " contains binary data; encode its contract field as Base64"))
        | .exotic _ => .error (wasmCodecError (path ++ js " must contain only plain records"))
        | .array items => do
          let (copies, heap) ← copyItems (copyAbiValue levels (ref :: seen)) path 0 items heap
          .ok (heap.alloc (.array copies))
        | .record properties => do
          let (result, heap) ← copyEntries (copyAbiValue levels (ref :: seen)) path
            properties.members .empty heap
          .ok (heap.alloc (.record result))

def encodeAbiValue (heap : JsHeap) (value : Held) : Except Thrown (Held × JsHeap) :=
  copyAbiValue (MAX_JSON_DEPTH + 1) [] (js "$") value heap

section copies

variable {heap after : JsHeap} {levels : Nat}

/-- What a copy leaves: new objects only, which show the copied value to every later reader, and JSON
unless the original misses an array element. -/
structure Copied (heap : JsHeap) (value : Held) (levels : Nat) (copy : Held) (after : JsHeap)
    (shape : JsValue) : Prop where
  grown : heap.Extends after
  fresh : ∀ later, after.Extends later → ∀ ref, later.Reaches copy ref → heap.size ≤ ref ∧ ref < after.size
  shown : ∀ later, after.Extends later → ∀ seen, (∀ ref ∈ seen, ref < heap.size ∨ after.size ≤ ref) →
    later.view levels seen copy = shape
  datum : heap.Full value → ∃ v : JsonValue, v.WellFormed ∧ shape = v.toJs
  sparse : ¬heap.Full value → ∀ other, deepEqual shape other = false

structure ItemsCopied (heap : JsHeap) (items : List (Option Held)) (levels : Nat)
    (copies : List (Option Held)) (after : JsHeap) (shapes : List JsValue) : Prop where
  grown : heap.Extends after
  fresh : ∀ later, after.Extends later → ∀ copy, some copy ∈ copies → ∀ ref,
    later.Reaches copy ref → heap.size ≤ ref ∧ ref < after.size
  shown : ∀ later, after.Extends later → ∀ seen, (∀ ref ∈ seen, ref < heap.size ∨ after.size ≤ ref) →
    copies.map (fun copy => copy.elim .hole (later.view levels seen)) = shapes
  datum : (∀ item ∈ items, ∃ held, item = some held ∧ heap.Full held) →
    ∃ vs : List JsonValue, ItemsWellFormed vs ∧ shapes = itemsToJs vs
  sparse : ¬(∀ item ∈ items, ∃ held, item = some held ∧ heap.Full held) →
    ∀ others, itemsDeepEqual shapes others = false

structure EntriesCopied (heap : JsHeap) (entries : List (JsString × Held)) (levels : Nat)
    (copies : List (JsString × Held)) (after : JsHeap) (shapes : List (JsString × JsValue)) : Prop where
  grown : heap.Extends after
  keys : copies.map Prod.fst = entries.map Prod.fst
  fresh : ∀ later, after.Extends later → ∀ copy ∈ copies, ∀ ref,
    later.Reaches copy.2 ref → heap.size ≤ ref ∧ ref < after.size
  shown : ∀ later, after.Extends later → ∀ seen, (∀ ref ∈ seen, ref < heap.size ∨ after.size ≤ ref) →
    copies.map (fun copy => (copy.1, later.view levels seen copy.2)) = shapes
  datum : (∀ entry ∈ entries, heap.Full entry.2) →
    ∃ vs : List (JsString × JsonValue), MembersWellFormed vs ∧ shapes = membersToJs vs
  sparse : ¬(∀ entry ∈ entries, heap.Full entry.2) → ∀ others, membersDeepEqual shapes others = false

theorem copied_primitive {value : Held} {v : JsonValue} (plain : ∀ ref, value ≠ .object ref)
    (wf : v.WellFormed) (shows_ : ∀ later : JsHeap, ∀ seen, later.view levels seen value = v.toJs) :
    Copied heap value levels value heap v.toJs := by
  refine ⟨.refl heap, ?_, fun later _ seen _ => shows_ later seen, fun _ => ⟨v, wf, rfl⟩, ?_⟩
  · intro later _ ref reaches
    cases reaches with
    | here => exact absurd rfl (plain _)
    | inside => exact absurd rfl (plain _)
  · exact fun missing => absurd (full_primitive plain) missing

theorem ItemsCopied.nil : ItemsCopied heap [] levels [] heap [] := by
  refine ⟨.refl heap, ?_, fun _ _ _ _ => rfl, fun _ => ⟨[], trivial, rfl⟩, ?_⟩
  · exact fun _ _ copy mem => absurd mem not_mem_nil
  · exact fun missing => absurd (fun item mem => absurd mem not_mem_nil) missing

theorem ItemsCopied.gap {items copies : List (Option Held)} {shapes : List JsValue}
    (rest : ItemsCopied heap items levels copies after shapes) :
    ItemsCopied heap (none :: items) levels (none :: copies) after (.hole :: shapes) := by
  refine ⟨rest.grown, ?_, ?_, ?_, ?_⟩
  · intro later grown copy mem
    rcases mem_cons.mp mem with same | mem
    · cases same
    · exact rest.fresh later grown copy mem
  · intro later grown seen apart
    rw [map_cons, rest.shown later grown seen apart]
    rfl
  · intro whole
    obtain ⟨_, absurd', _⟩ := whole none mem_cons_self
    cases absurd'
  · intro _ others
    cases others with
    | nil => rfl
    | cons other others => rfl

theorem ItemsCopied.cons {held copy : Held} {items copies : List (Option Held)} {mid : JsHeap}
    {shape : JsValue} {shapes : List JsValue} (holds : ∀ item, some item ∈ items → heap.Holds item)
    (first : Copied heap held levels copy mid shape) (rest : ItemsCopied mid items levels copies after shapes) :
    ItemsCopied heap (some held :: items) levels (some copy :: copies) after (shape :: shapes) := by
  have later_full : (∀ item ∈ items, ∃ held, item = some held ∧ mid.Full held) ↔
      ∀ item ∈ items, ∃ held, item = some held ∧ heap.Full held := by
    constructor
    · intro whole item mem
      obtain ⟨held, rfl, full⟩ := whole item mem
      exact ⟨held, rfl, (first.grown.full_iff (holds held mem)).mp full⟩
    · intro whole item mem
      obtain ⟨held, rfl, full⟩ := whole item mem
      exact ⟨held, rfl, (first.grown.full_iff (holds held mem)).mpr full⟩
  refine ⟨first.grown.trans rest.grown, ?_, ?_, ?_, ?_⟩
  · intro later grown other mem ref reaches
    have size := rest.grown.size
    have start := first.grown.size
    rcases mem_cons.mp mem with same | mem
    · cases same
      have := first.fresh later (rest.grown.trans grown) ref reaches
      omega
    · have := rest.fresh later grown other mem ref reaches
      omega
  · intro later grown seen apart
    have size := rest.grown.size
    have start := first.grown.size
    rw [map_cons, rest.shown later grown seen]
    · congr 1
      apply first.shown later (rest.grown.trans grown) seen
      intro ref mem
      have := apart ref mem
      omega
    · intro ref mem
      have := apart ref mem
      omega
  · intro whole
    obtain ⟨_, same, full⟩ := whole (some held) mem_cons_self
    cases same
    obtain ⟨v, wf, rfl⟩ := first.datum full
    obtain ⟨vs, wfs, rfl⟩ := rest.datum (later_full.mpr fun item mem =>
      whole item (mem_cons_of_mem _ mem))
    exact ⟨v :: vs, ⟨wf, wfs⟩, rfl⟩
  · intro missing others
    cases others with
    | nil => rfl
    | cons other others =>
      show (deepEqual shape other && itemsDeepEqual shapes others) = false
      by_cases full : heap.Full held
      · rw [rest.sparse, Bool.and_false]
        intro whole
        apply missing
        intro item mem
        rcases mem_cons.mp mem with rfl | mem
        · exact ⟨held, rfl, full⟩
        · exact later_full.mp whole item mem
      · rw [first.sparse full, Bool.false_and]

theorem EntriesCopied.nil : EntriesCopied heap [] levels [] heap [] := by
  refine ⟨.refl heap, rfl, ?_, fun _ _ _ _ => rfl, fun _ => ⟨[], trivial, rfl⟩, ?_⟩
  · exact fun _ _ copy mem => absurd mem not_mem_nil
  · exact fun missing => absurd (fun entry mem => absurd mem not_mem_nil) missing

theorem EntriesCopied.cons {key : JsString} {held copy : Held}
    {entries copies : List (JsString × Held)} {mid : JsHeap} {shape : JsValue}
    {shapes : List (JsString × JsValue)} (holds : ∀ entry ∈ entries, heap.Holds entry.2)
    (first : Copied heap held levels copy mid shape)
    (rest : EntriesCopied mid entries levels copies after shapes) :
    EntriesCopied heap ((key, held) :: entries) levels ((key, copy) :: copies) after
      ((key, shape) :: shapes) := by
  have later_full : (∀ entry ∈ entries, mid.Full entry.2) ↔ ∀ entry ∈ entries, heap.Full entry.2 :=
    forall₂_congr fun entry mem => first.grown.full_iff (holds entry mem)
  refine ⟨first.grown.trans rest.grown, ?_, ?_, ?_, ?_, ?_⟩
  · rw [map_cons, map_cons, rest.keys]
  · intro later grown other mem ref reaches
    have size := rest.grown.size
    have start := first.grown.size
    rcases mem_cons.mp mem with rfl | mem
    · have := first.fresh later (rest.grown.trans grown) ref reaches
      omega
    · have := rest.fresh later grown other mem ref reaches
      omega
  · intro later grown seen apart
    have size := rest.grown.size
    have start := first.grown.size
    rw [map_cons, rest.shown later grown seen, first.shown later (rest.grown.trans grown) seen]
    · intro ref mem
      have := apart ref mem
      omega
    · intro ref mem
      have := apart ref mem
      omega
  · intro whole
    obtain ⟨v, wf, rfl⟩ := first.datum (whole _ mem_cons_self)
    obtain ⟨vs, wfs, rfl⟩ := rest.datum (later_full.mpr fun entry mem =>
      whole entry (mem_cons_of_mem _ mem))
    exact ⟨(key, v) :: vs, ⟨wf, wfs⟩, rfl⟩
  · intro missing others
    cases others with
    | nil => rfl
    | cons other others =>
      show (key == other.1 && deepEqual shape other.2 && membersDeepEqual shapes others) = false
      by_cases full : heap.Full held
      · rw [rest.sparse, Bool.and_false]
        intro whole
        apply missing
        intro entry mem
        rcases mem_cons.mp mem with rfl | mem
        · exact full
        · exact later_full.mp whole entry mem
      · rw [first.sparse full, Bool.and_false, Bool.false_and]

theorem view_ne_hole (heap : JsHeap) (seen : List Nat) (value : Held) : heap.view levels seen value ≠ .hole := by
  cases levels with
  | zero => exact nofun
  | succ levels =>
    cases value with
    | object ref =>
      unfold view
      intro h
      split at h
      · cases h
      · split at h <;> cases h
    | _ => exact nofun

theorem copyItems_present {item : JsValue} (present : item ≠ .hole) (path : JsString)
    (depth index : Nat) (items : List JsValue) :
    ForgeDeno.copyItems path depth index (item :: items) =
      ForgeDeno.copyAbiValue (path ++ js "[" ++ JsonText.naturalText index ++ js "]") depth item >>=
        fun copy => ForgeDeno.copyItems path depth (index + 1) items >>= fun copies =>
          .ok (copy :: copies) := by
  cases item with
  | hole => exact absurd rfl present
  | _ => rfl

end copies

def Follows (base : JsHeap) (levels depth : Nat) (seen : List Nat)
    (copy : JsString → Held → JsHeap → Except Thrown (Held × JsHeap)) : Prop :=
  ∀ path held heap, base.Extends heap → base.Holds held →
    Agree (fun made shape => Copied heap held levels made.1 made.2 shape) (copy path held heap)
      (ForgeDeno.copyAbiValue path depth (base.view levels seen held))

theorem copyItems_agrees {base : JsHeap} {levels depth : Nat} {seen : List Nat}
    {copy : JsString → Held → JsHeap → Except Thrown (Held × JsHeap)} (path : JsString)
    (follows : Follows base levels depth seen copy) (items : List (Option Held))
    (holds : ∀ item, some item ∈ items → base.Holds item) : ∀ (index : Nat) (heap : JsHeap), base.Extends heap →
      Agree (fun made shapes => ItemsCopied heap items levels made.1 made.2 shapes)
        (copyItems copy path index items heap) (ForgeDeno.copyItems path depth index
          (items.map fun item => item.elim .hole (base.view levels seen))) := by
  induction items with
  | nil => exact fun _ _ _ => .ok .nil
  | cons item items ih =>
    intro index heap grown
    have others := ih fun item mem => holds item (mem_cons_of_mem _ mem)
    cases item with
    | none => exact (others (index + 1) heap grown).bind fun made shapes copied => .ok copied.gap
    | some held =>
      have first := follows (path ++ js "[" ++ JsonText.naturalText index ++ js "]") held heap grown
        (holds held mem_cons_self)
      show Agree _ _ (ForgeDeno.copyItems path depth index (base.view levels seen held :: _))
      rw [copyItems_present (view_ne_hole base seen held)]
      apply first.bind
      intro made shape copied
      apply (others (index + 1) made.2 (grown.trans copied.grown)).bind
      intro rest shapes copies
      refine .ok (.cons (fun item mem => ?_) copied copies)
      exact grown.holds (holds item (mem_cons_of_mem _ mem))

theorem copyEntries_agrees {base : JsHeap} {levels depth : Nat} {seen : List Nat}
    {copy : JsString → Held → JsHeap → Except Thrown (Held × JsHeap)} (path : JsString)
    (follows : Follows base levels depth seen copy) (entries : List (JsString × Held))
    (holds : ∀ entry ∈ entries, base.Holds entry.2) : ∀ (result : Properties) (heap : JsHeap), base.Extends heap →
      ((result.members ++ entries).map Prod.fst).Pairwise (fun a b => precedes a b = true) →
        Agree (fun made shapes => ∃ copies, made.1.members = result.members ++ copies ∧
            EntriesCopied heap entries levels copies made.2 shapes) (copyEntries copy path entries result heap)
          (copyMembers path depth (entries.map fun entry => (entry.1, base.view levels seen entry.2))) := by
  induction entries with
  | nil => exact fun result _ _ _ => .ok ⟨[], (append_nil _).symm, .nil⟩
  | cons entry entries ih =>
    intro result heap grown ordered
    obtain ⟨key, held⟩ := entry
    have step : copyMembers path depth (((key, held) :: entries).map fun entry =>
        (entry.1, base.view levels seen entry.2)) =
        copyMember path depth (key, base.view levels seen held) >>= fun member =>
          copyMembers path depth (entries.map fun entry =>
            (entry.1, base.view levels seen entry.2)) >>= fun members => .ok (member :: members) := rfl
    rw [step]
    unfold copyEntries copyMember
    by_cases reserved : key ∈ reservedKeys
    · rw [if_pos reserved, if_pos reserved]
      exact .error _
    · rw [if_neg reserved, if_neg reserved]
      have first := follows (path ++ js "." ++ key) held heap grown (holds _ mem_cons_self)
      rw [bind_assoc]
      apply first.bind
      intro made shape copied
      have last : (result.set key made.1).members = result.members ++ [(key, made.1)] := by
        apply setMember_last
        intro member mem
        rw [map_append, pairwise_append] at ordered
        exact ordered.2.2 member.1 (mem_map_of_mem mem) key mem_cons_self
      have onward : (((result.set key made.1).members ++ entries).map Prod.fst).Pairwise
          fun a b => precedes a b = true := by
        rw [last, append_assoc, map_append]
        rw [map_append] at ordered
        exact ordered
      have others := ih (fun entry mem => holds entry (mem_cons_of_mem _ mem))
        (result.set key made.1) made.2 (grown.trans copied.grown) onward
      show Agree _ (copyEntries copy path entries (result.set key made.1) made.2)
        (copyMembers path depth _ >>= fun members => .ok ((key, shape) :: members))
      apply others.after
      rintro rest shapes ⟨copies, members, copies_made⟩
      refine ⟨(key, made.1) :: copies, ?_, .cons (fun entry mem => ?_) copied copies_made⟩
      · rw [members, last, append_assoc, singleton_append]
      · exact grown.holds (holds entry (mem_cons_of_mem _ mem))

theorem membersToJs_keys (members : List (JsString × JsonValue)) :
    (membersToJs members).map Prod.fst = members.map Prod.fst := by
  induction members with
  | nil => rfl
  | cons member members ih =>
    obtain ⟨key, item⟩ := member
    exact congrArg (key :: ·) ih

section objects

variable {heap mid : JsHeap} {levels ref : Nat}

theorem view_alloc {object : JsObject} {later : JsHeap} {seen : List Nat}
    (grown : (mid.alloc object).2.Extends later)
    (apart : ∀ ref ∈ seen, ref < heap.size ∨ (mid.alloc object).2.size ≤ ref) (start : heap.Extends mid) :
    mid.size ∉ seen ∧ later.object mid.size = object ∧ mid.Extends later ∧
      ∀ ref ∈ mid.size :: seen, ref < heap.size ∨ mid.size ≤ ref := by
  have size : (mid.alloc object).2.size = mid.size + 1 := rfl
  have begun := start.size
  refine ⟨?_, ?_, (mid.extends_alloc object).trans grown, ?_⟩
  · intro mem
    have := apart _ mem
    omega
  · rw [grown.kept mid.size (Nat.lt_succ_self _)]
    exact mid.alloc_object object
  · intro ref mem
    rcases mem_cons.mp mem with rfl | mem
    · exact .inr (Nat.le_refl _)
    · have := apart ref mem
      omega

theorem ItemsCopied.alloc {items copies : List (Option Held)} {shapes : List JsValue}
    (array : heap.object ref = .array items) (rest : ItemsCopied heap items levels copies mid shapes) :
    Copied heap (.object ref) (levels + 1) (mid.alloc (.array copies)).1 (mid.alloc (.array copies)).2
      (.array shapes) := by
  have start := rest.grown.size
  refine ⟨rest.grown.trans (mid.extends_alloc _), ?_, ?_, ?_, ?_⟩
  · intro later grown inner reaches
    have size : (mid.alloc (.array copies)).2.size = mid.size + 1 := rfl
    obtain ⟨_, object, onward, _⟩ := view_alloc grown
      (fun ref (mem : ref ∈ ([] : List Nat)) => absurd mem not_mem_nil) rest.grown
    cases reaches with
    | here => exact ⟨start, Nat.lt_succ_self _⟩
    | @inside _ item _ mem reaches =>
      rw [object] at mem
      obtain ⟨copy, inside, same⟩ := mem_filterMap.mp mem
      rw [id_eq] at same
      rw [same] at inside
      have := rest.fresh later onward item inside inner reaches
      omega
  · intro later grown seen apart
    obtain ⟨new, object, onward, beyond⟩ := view_alloc grown apart rest.grown
    show (if mid.size ∈ seen then _ else _) = _
    rw [if_neg new, object]
    exact congrArg JsValue.array (rest.shown later onward _ beyond)
  · intro full
    obtain ⟨vs, wf, rfl⟩ := rest.datum ((full_array array).mp full)
    exact ⟨.array vs, wf, rfl⟩
  · intro missing other
    have gap := rest.sparse (mt (full_array array).mpr missing)
    cases other with
    | array others => exact gap others
    | _ => rfl

theorem EntriesCopied.alloc {properties result : Properties} {shapes : List (JsString × JsValue)}
    (record : heap.object ref = .record properties)
    (rest : EntriesCopied heap properties.members levels result.members mid shapes) :
    Copied heap (.object ref) (levels + 1) (mid.alloc (.record result)).1
      (mid.alloc (.record result)).2 (.record shapes) := by
  have start := rest.grown.size
  refine ⟨rest.grown.trans (mid.extends_alloc _), ?_, ?_, ?_, ?_⟩
  · intro later grown inner reaches
    have size : (mid.alloc (.record result)).2.size = mid.size + 1 := rfl
    obtain ⟨_, object, onward, _⟩ := view_alloc grown
      (fun ref (mem : ref ∈ ([] : List Nat)) => absurd mem not_mem_nil) rest.grown
    cases reaches with
    | here => exact ⟨start, Nat.lt_succ_self _⟩
    | inside mem reaches =>
      rw [object] at mem
      obtain ⟨copy, inside, rfl⟩ := mem_map.mp mem
      have := rest.fresh later onward copy inside inner reaches
      omega
  · intro later grown seen apart
    obtain ⟨new, object, onward, beyond⟩ := view_alloc grown apart rest.grown
    show (if mid.size ∈ seen then _ else _) = _
    rw [if_neg new, object]
    exact congrArg JsValue.record (rest.shown later onward _ beyond)
  · intro full
    obtain ⟨vs, wf, rfl⟩ := rest.datum ((full_record record).mp full)
    refine ⟨.object vs, ⟨?_, wf⟩, rfl⟩
    have keys := congrArg (map Prod.fst) (rest.shown mid (.refl mid) [] (by simp))
    rw [map_map, membersToJs_keys] at keys
    exact keys ▸ result.ordered
  · intro missing other
    have gap := rest.sparse (mt (full_record record).mpr missing)
    cases other with
    | record others => exact gap others
    | _ => rfl

end objects

theorem copyAbiValue_deep (path : JsString) {depth : Nat} (deep : MAX_JSON_DEPTH < depth)
    (value : JsValue) : ForgeDeno.copyAbiValue path depth value =
      .error (wasmCodecError (js "ABI data exceeds maximum nesting depth 32")) := by
  cases value <;> exact if_pos deep

theorem copyAbiValue_agrees (base : JsHeap) (levels : Nat) : ∀ seen, levels ≤ MAX_JSON_DEPTH + 1 →
      Follows base levels (MAX_JSON_DEPTH + 1 - levels) seen (copyAbiValue levels seen) := by
  induction levels with
  | zero =>
    intro seen _ path held heap _ _
    rw [copyAbiValue_deep path (show MAX_JSON_DEPTH < MAX_JSON_DEPTH + 1 - 0 by omega)]
    exact .error _
  | succ levels ih =>
    intro seen bound path held heap grown holds
    have depth : MAX_JSON_DEPTH + 1 - (levels + 1) + 1 = MAX_JSON_DEPTH + 1 - levels := by omega
    have shallow : ¬MAX_JSON_DEPTH < MAX_JSON_DEPTH + 1 - (levels + 1) := by omega
    have inside : ∀ copy : Except Thrown JsValue,
        atDepth (MAX_JSON_DEPTH + 1 - (levels + 1)) copy = copy := fun copy => if_neg shallow
    cases held with
    | undefined | unsupported _ =>
      show Agree _ (.error _) (atDepth _ (.error _))
      rw [inside]
      exact .error _
    | null =>
      show Agree _ (.ok _) (atDepth _ (.ok _))
      rw [inside]
      exact .ok (copied_primitive (v := .null) nofun trivial fun _ _ => rfl)
    | bool b =>
      show Agree _ (.ok _) (atDepth _ (.ok _))
      rw [inside]
      exact .ok (copied_primitive (v := .bool b) nofun trivial fun _ _ => rfl)
    | string s =>
      show Agree _ (.ok _) (atDepth _ (.ok _))
      rw [inside]
      exact .ok (copied_primitive (v := .string s) nofun trivial fun _ _ => rfl)
    | number n =>
      show Agree _ (if n.isFinite then _ else _) (atDepth _ (if n.isFinite then _ else _))
      rw [inside]
      by_cases finite : n.isFinite = true
      · rw [if_pos finite, if_pos finite]
        exact .ok (copied_primitive (v := .number n) nofun finite fun _ _ => rfl)
      · rw [if_neg finite, if_neg finite]
        exact .error _
    | object ref =>
      have kept := grown.kept ref (holds ref (.here ref))
      have follows := ih (ref :: seen) (by omega)
      unfold copyAbiValue view
      dsimp only
      rw [kept]
      by_cases cycle : ref ∈ seen
      · rw [if_pos cycle, if_pos cycle]
        show Agree _ _ (atDepth _ (.error _))
        rw [inside]
        exact .error _
      · rw [if_neg cycle, if_neg cycle]
        cases object : base.object ref with
        | binary | exotic properties =>
          show Agree _ (.error _) (atDepth _ (.error _))
          rw [inside]
          exact .error _
        | array items =>
          have array : heap.object ref = .array items := kept.trans object
          have copies := copyItems_agrees path follows items
            (fun item mem => holds.item (mem_array object mem)) 0 heap grown
          show Agree _ (copyItems _ _ _ _ _ >>= fun made => .ok (made.2.alloc (.array made.1)))
            (atDepth _ ((ForgeDeno.copyItems path _ 0 _).map JsValue.array))
          rw [inside, depth]
          exact copies.bind fun made shapes copied => .ok (copied.alloc array)
        | record properties =>
          have record : heap.object ref = .record properties := kept.trans object
          have copies := copyEntries_agrees path follows properties.members
            (fun member mem => holds.item (mem_record object mem)) .empty heap grown
            properties.ordered
          show Agree _ (copyEntries _ _ _ _ _ >>= fun made => .ok (made.2.alloc (.record made.1)))
            (atDepth _ ((copyMembers path _ _).map JsValue.record))
          rw [inside, depth]
          apply copies.bind
          rintro made shapes ⟨copies, members, copied⟩
          rw [show copies = made.1.members from members.symm] at copied
          exact .ok (copied.alloc record)

def shown (heap : JsHeap) (value : Held) : JsValue := heap.view (MAX_JSON_DEPTH + 1) [] value

theorem encodeAbiValue_agrees (graph : ObjectGraph) :
    Agree (fun made shape => Copied graph.heap graph.value (MAX_JSON_DEPTH + 1) made.1 made.2 shape)
      (encodeAbiValue graph.heap graph.value) (ForgeDeno.encodeAbiValue (shown graph.heap graph.value)) :=
  copyAbiValue_agrees graph.heap (MAX_JSON_DEPTH + 1) [] (Nat.le_refl _) (js "$") graph.value
    graph.heap (.refl _) graph.holds

section encoded

variable {graph : ObjectGraph} {copy : Held} {after : JsHeap}

theorem encoded_copied (encoded : encodeAbiValue graph.heap graph.value = .ok (copy, after)) :
    Copied graph.heap graph.value (MAX_JSON_DEPTH + 1) copy after (shown after copy) := by
  have agrees := encodeAbiValue_agrees graph
  rw [encoded] at agrees
  obtain ⟨shape, _, copied⟩ := agrees.of_ok
  have same : shown after copy = shape :=
    copied.shown after (.refl after) [] nofun
  rw [same]
  exact copied

theorem encoded_apart (encoded : encodeAbiValue graph.heap graph.value = .ok (copy, after)) :
    ∀ ref, after.Reaches copy ref → ¬after.Reaches graph.value ref := by
  have copied := encoded_copied encoded
  intro ref ours theirs
  have new := (copied.fresh after (.refl after) ref ours).1
  have old := graph.holds ref ((copied.grown.reaches_iff graph.holds).mp theirs)
  omega

/-- An accepted value is copied without sharing, and its copy reads back from its JSON text exactly
when no array in the value misses an element. -/
theorem encodeAbiValue_json_iff (graph : ObjectGraph) {copy : Held} {after : JsHeap}
    (encoded : encodeAbiValue graph.heap graph.value = .ok (copy, after)) :
    ((∀ ref, after.Reaches copy ref → ¬after.Reaches graph.value ref) ∧
      ∃ text parsed, JsonText.stringify (shown after copy) = some text ∧
        JsonText.parse text = some parsed ∧ deepEqual (shown after copy) parsed.toJs = true) ↔
      graph.heap.Full graph.value := by
  have copied := encoded_copied encoded
  constructor
  · rintro ⟨_, text, parsed, _, _, same⟩
    by_contra missing
    rw [copied.sparse missing] at same
    cases same
  · intro full
    obtain ⟨v, wf, shape⟩ := copied.datum full
    refine ⟨encoded_apart encoded, v.text, v.plusZero, ?_, JsonText.parse_text wf, ?_⟩
    · rw [shape]
      exact JsonText.stringify_toJs v
    · rw [shape]
      exact deepEqual_plusZero v wf

end encoded

def sharedArray : ObjectGraph where
  heap := ⟨2, fun ref => if ref = 0 then .array [some (.string (js "AQ=="))]
    else .record ⟨[(js "data", .object 0), (js "echo", .object 0)], by decide⟩⟩
  value := .object 1
  holds := JsHeap.holds_of_closed (by decide) rfl

theorem shared_array_reads_back : ∃ copy after,
    encodeAbiValue sharedArray.heap sharedArray.value = .ok (copy, after) ∧
      (∀ ref, after.Reaches copy ref → ¬after.Reaches sharedArray.value ref) ∧
      ∃ text parsed, JsonText.stringify (shown after copy) = some text ∧
        JsonText.parse text = some parsed ∧ deepEqual (shown after copy) parsed.toJs = true := by
  have full : sharedArray.heap.Full sharedArray.value :=
    JsHeap.full_of_gapless sharedArray.holds (by decide)
  exact ⟨_, _, rfl, (encodeAbiValue_json_iff sharedArray rfl).mpr full⟩

def gappedArray : ObjectGraph where
  heap := ⟨1, fun _ => .array [none, some (.bool true)]⟩
  value := .object 0
  holds := JsHeap.holds_of_closed (by decide) rfl

/-- A gap is accepted and becomes a null on the wire. -/
theorem gap_becomes_null : ¬∀ (graph : ObjectGraph) (copy : Held) (after : JsHeap),
      encodeAbiValue graph.heap graph.value = .ok (copy, after) →
        (∀ ref, after.Reaches copy ref → ¬after.Reaches graph.value ref) ∧
          ∃ text parsed, JsonText.stringify (shown after copy) = some text ∧ JsonText.parse text = some parsed ∧
              deepEqual (shown after copy) parsed.toJs = true := by
  intro claim
  obtain ⟨_, text, parsed, _, _, same⟩ := claim gappedArray _ _ rfl
  have differs : ∀ other, deepEqual (.array [.hole, .bool true]) other = false := by
    intro other
    cases other with
    | array others =>
      cases others with
      | nil => rfl
      | cons item items => rfl
    | _ => rfl
  exact Bool.false_ne_true ((differs parsed.toJs).symm.trans same)

end ObjectGraph

end ForgeDeno
