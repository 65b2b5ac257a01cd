import ForgeDeno.SettingLenses

open ForgeDeno

namespace JsHeap

mutual

def build : ConfigValue → JsHeap → Held × JsHeap
  | .null => fun heap => (.null, heap)
  | .bool value => fun heap => (.bool value, heap)
  | .number value => fun heap => (.number value, heap)
  | .string value => fun heap => (.string value, heap)
  | .list items => fun heap =>
    let (items, heap) := buildItems items heap
    heap.alloc (.array items)
  | .record members => fun heap =>
    let (properties, heap) := buildMembers members .empty heap
    heap.alloc (.record properties)

def buildItems : List ConfigValue → JsHeap → List (Option Held) × JsHeap
  | [] => fun heap => ([], heap)
  | item :: items => fun heap =>
    let (first, heap) := build item heap
    let (rest, heap) := buildItems items heap
    (some first :: rest, heap)

def buildMembers : Settings → Properties → JsHeap → Properties × JsHeap
  | [] => fun properties heap => (properties, heap)
  | member :: members => fun properties heap =>
    let (properties, heap) := buildMember member properties heap
    buildMembers members properties heap

def buildMember : JsString × ConfigValue → Properties → JsHeap → Properties × JsHeap
  | (name, value) => fun properties heap =>
    let (held, heap) := build value heap
    (properties.set name held, heap)

end

def readExisting (heap : JsHeap) (node : Held) (path : List JsString) : Held := heap.readPath node path

def asList (heap : JsHeap) : Held → List (Option Held)
  | .object ref =>
    match heap.object ref with
    | .array items => items.map fun item => some (item.getD .undefined)
    | _ => [some (.object ref)]
  | value => [some value]

def setIniValue (heap : JsHeap) (root : Nat) (path : List JsString) (value : Held) : JsHeap :=
  match heap.readExisting (.object root) path with
  | .undefined => heap.writePath root path value
  | existing =>
    let (list, heap) := heap.alloc (.array (heap.asList existing ++ heap.asList value))
    heap.writePath root path list

section parser

variable (casing : Casing) (declared : JsString → Option ConfigValue) (root : Nat)

def storeLine (heap : JsHeap) (line : IniSetting) : JsHeap :=
  let (value, heap) := build (line.value casing declared) heap
  heap.setIniValue root line.path value

/-- The loop over the lines, from a section on; `root` is the tree that it fills. -/
def parseIniLines : List JsString → Nat → List JsString → JsHeap → Except (Nat × JsString) Unit × JsHeap
  | [], _, _, heap => (.ok (), heap)
  | line :: lines, index, path, heap =>
    match readLine casing line with
    | .nothing => parseIniLines lines (index + 1) path heap
    | .header path => parseIniLines lines (index + 1) path heap
    | .setting leaf raw =>
      parseIniLines lines (index + 1) path (storeLine casing declared root heap ⟨path ++ leaf, raw⟩)
    | .malformed message => (.error (index + 1, message), heap)

/-- `parseIni`, with the objects that there are before and after it. -/
def parseIni (content : JsString) (source : Option JsString) (heap : JsHeap) : Except IniError Held × JsHeap :=
  let (settings, grown) := heap.alloc (.record .empty)
  match parseIniLines casing declared heap.size (splitLines content) 0 [] grown with
  | (.ok _, heap) => (.ok settings, heap)
  | (.error (line, message), heap) => (.error { source, line, message }, heap)

end parser

section growing

variable {heap later : JsHeap}

theorem Sound.alloc (sound : heap.Sound) {object : JsObject}
    (below : ∀ item ∈ object.contents, item.below heap.size = true) : (heap.alloc object).2.Sound := by
  have grown := heap.extends_alloc object
  refine ⟨?_, ?_, Nat.lt_of_lt_of_le sound.present grown.size⟩
  · intro ref present item mem
    by_cases old : ref < heap.size
    · rw [grown.kept ref old] at mem
      exact below_mono (sound.closed ref old item mem) grown.size
    · have last : ref = heap.size := Nat.le_antisymm (Nat.le_of_lt_succ present) (Nat.le_of_not_lt old)
      rw [last, heap.alloc_object object] at mem
      exact below_mono (below item mem) grown.size
  · rw [grown.kept 0 sound.present, sound.prototype]

theorem below_alloc (heap : JsHeap) (object : JsObject) :
    (heap.alloc object).1.below (heap.alloc object).2.size = true :=
  decide_eq_true (Nat.lt_succ_self heap.size)

def above (size : Nat) : Held → Bool
  | .object ref => size ≤ ref
  | _ => true

theorem above_mono {node : Held} {size later : Nat} (h : above later node = true) (more : size ≤ later) :
    above size node = true := by
  cases node with
  | object ref => exact decide_eq_true (Nat.le_trans more (of_decide_eq_true h))
  | _ => rfl

structure Adds (heap later : JsHeap) : Prop where
  grown : heap.Extends later
  sound : later.Sound
  new : ∀ ref, heap.size ≤ ref → ref < later.size → ∀ item ∈ (later.object ref).contents,
    above heap.size item = true

structure Made (heap later : JsHeap) (value : Held) : Prop extends Adds heap later where
  below : value.below later.size = true
  above : above heap.size value = true

theorem Adds.refl (sound : heap.Sound) : heap.Adds heap :=
  ⟨.refl heap, sound, fun _ from_size below => absurd from_size (Nat.not_le_of_lt below)⟩

theorem Adds.trans {last : JsHeap} (first : heap.Adds later) (second : later.Adds last) : heap.Adds last := by
  refine ⟨first.grown.trans second.grown, second.sound, ?_⟩
  intro ref from_size below item mem
  by_cases old : ref < later.size
  · rw [second.grown.kept ref old] at mem
    exact first.new ref from_size old item mem
  · exact above_mono (second.new ref (Nat.le_of_not_lt old) below item mem) first.grown.size

theorem Adds.alloc (adds : heap.Adds later) {object : JsObject}
    (fits : ∀ item ∈ object.contents, item.below later.size = true ∧ JsHeap.above heap.size item = true) :
    heap.Made (later.alloc object).2 (later.alloc object).1 := by
  have grown := later.extends_alloc object
  refine ⟨⟨adds.grown.trans grown, adds.sound.alloc fun item mem => (fits item mem).1, ?_⟩,
    later.below_alloc object, decide_eq_true adds.grown.size⟩
  intro ref from_size below item mem
  by_cases old : ref < later.size
  · rw [grown.kept ref old] at mem
    exact adds.new ref from_size old item mem
  · have last : ref = later.size := Nat.le_antisymm (Nat.le_of_lt_succ below) (Nat.le_of_not_lt old)
    rw [last, later.alloc_object object] at mem
    exact (fits item mem).2

mutual

theorem build_made : ∀ (value : ConfigValue) (heap : JsHeap), heap.Sound →
    heap.Made (build value heap).2 (build value heap).1
  | .null => fun _ sound => ⟨.refl sound, rfl, rfl⟩
  | .bool _ => fun _ sound => ⟨.refl sound, rfl, rfl⟩
  | .number _ => fun _ sound => ⟨.refl sound, rfl, rfl⟩
  | .string _ => fun _ sound => ⟨.refl sound, rfl, rfl⟩
  | .list items => fun heap sound => by
    obtain ⟨adds, fits⟩ := buildItems_made items heap sound
    unfold build
    apply adds.alloc
    intro item mem
    obtain ⟨held, inside, same⟩ := List.mem_filterMap.mp mem
    obtain ⟨value, present, both⟩ := fits held inside
    cases present.symm.trans same
    exact both
  | .record members => fun heap sound => by
    obtain ⟨adds, fits⟩ := buildMembers_made members .empty heap heap (.refl sound)
      fun _ mem => absurd mem List.not_mem_nil
    unfold build
    apply adds.alloc
    intro item mem
    obtain ⟨member, inside, same⟩ := List.mem_map.mp mem
    exact same ▸ fits member inside

theorem buildItems_made : ∀ (items : List ConfigValue) (heap : JsHeap), heap.Sound →
    heap.Adds (buildItems items heap).2 ∧ ∀ item ∈ (buildItems items heap).1, ∃ held, item = some held ∧
        held.below (buildItems items heap).2.size = true ∧ above heap.size held = true
  | [] => fun _ sound => ⟨.refl sound, fun _ mem => absurd mem List.not_mem_nil⟩
  | item :: items => fun heap sound => by
    have first := build_made item heap sound
    obtain ⟨adds, fits⟩ := buildItems_made items _ first.sound
    unfold buildItems
    refine ⟨first.toAdds.trans adds, ?_⟩
    intro held mem
    rcases List.mem_cons.mp mem with same | later
    · exact ⟨_, same, below_mono first.below adds.grown.size, first.above⟩
    · obtain ⟨value, present, below, new⟩ := fits held later
      exact ⟨value, present, below, above_mono new first.grown.size⟩

theorem buildMembers_made : ∀ (members : Settings) (properties : Properties) (base heap : JsHeap),
    base.Adds heap → (∀ member ∈ properties.members, Held.below heap.size member.2 = true ∧
        above base.size member.2 = true) → base.Adds (buildMembers members properties heap).2 ∧
        ∀ member ∈ (buildMembers members properties heap).1.members,
          Held.below (buildMembers members properties heap).2.size member.2 = true ∧
            above base.size member.2 = true
  | [] => fun _ _ _ adds fits => ⟨adds, fits⟩
  | member :: members => fun properties base heap adds fits => by
    obtain ⟨adds', fits'⟩ := buildMember_made member properties base heap adds fits
    unfold buildMembers
    exact buildMembers_made members _ base _ adds' fits'

theorem buildMember_made : ∀ (member : JsString × ConfigValue) (properties : Properties)
    (base heap : JsHeap), base.Adds heap → (∀ member ∈ properties.members, Held.below heap.size member.2 = true ∧
        above base.size member.2 = true) → base.Adds (buildMember member properties heap).2 ∧
        ∀ other ∈ (buildMember member properties heap).1.members,
          Held.below (buildMember member properties heap).2.size other.2 = true ∧ above base.size other.2 = true
  | (name, value) => fun properties base heap adds fits => by
    have made := build_made value heap adds.sound
    unfold buildMember
    refine ⟨adds.trans made.toAdds, ?_⟩
    intro other mem
    rcases mem_setMember mem with old | new
    · exact ⟨below_mono (fits other old).1 made.grown.size, (fits other old).2⟩
    · rw [new]
      exact ⟨made.below, above_mono made.above adds.grown.size⟩

end

theorem Made.reaches {value : Held} (made : heap.Made later value) {ref : Nat}
    (reaches : later.Reaches value ref) : heap.size ≤ ref ∧ ref < later.size := by
  apply reaches.within (P := fun ref => heap.size ≤ ref ∧ ref < later.size)
  · intro outer both inner mem
    exact ⟨of_decide_eq_true (made.new outer both.1 both.2 _ mem),
      of_decide_eq_true (made.sound.closed outer both.2 _ mem)⟩
  · intro inner same
    have below := made.below
    have above := made.above
    rw [same] at below above
    exact ⟨of_decide_eq_true above, of_decide_eq_true below⟩

theorem build_defined (value : ConfigValue) (heap : JsHeap) : (build value heap).1 ≠ .undefined := by
  cases value <;> exact fun same => Held.noConfusion same

theorem build_leaf {value : ConfigValue} (leaf : value.isRecord = false) (heap : JsHeap) :
    (build value heap).2.settings? (build value heap).1 = none := by
  cases value with
  | record members => cases leaf
  | list items =>
    unfold build settings?
    dsimp only [alloc]
    rw [Function.update_self]
  | _ => rfl

theorem settings?_array {ref : Nat} {items : List (Option Held)} (h : heap.object ref = .array items) :
    heap.settings? (.object ref) = none := by
  unfold settings?
  dsimp only
  rw [h]

theorem Extends.settings?_eq (grown : heap.Extends later) {node : Held}
    (below : node.below heap.size = true) : later.settings? node = heap.settings? node := by
  cases node with
  | object ref =>
    unfold settings?
    dsimp only
    rw [grown.kept ref (of_decide_eq_true below)]
  | _ => rfl

theorem Extends.readPath_eq (grown : heap.Extends later) (sound : heap.Sound) {node : Held}
    (below : node.below heap.size = true) (path : List JsString) :
    later.readPath node path = heap.readPath node path := by
  induction path generalizing node with
  | nil => rfl
  | cons part path ih =>
    have same := grown.settings?_eq below
    cases found : heap.settings? node with
    | none => rw [readPath_leaf found, readPath_leaf (same.trans found)]
    | some ref =>
      rw [readPath_cons found, readPath_cons (same.trans found)]
      rw [settings?_some found] at below
      have old := of_decide_eq_true below
      have read : later.get ref part = heap.get ref part := by
        unfold get
        rw [grown.kept ref old, grown.kept 0 sound.present]
      rw [read, ih (below_get sound old part)]

end growing

section lines

variable {casing : Casing} {declared : JsString → Option ConfigValue} {root : Nat}

theorem parseIniLines_eq (lines : List JsString) (index : Nat) (path : List JsString) (heap : JsHeap) :
    parseIniLines casing declared root lines index path heap =
      (match (readLines casing lines index path).2 with
        | some failure => .error failure
        | none => .ok (),
        (readLines casing lines index path).1.foldl (storeLine casing declared root) heap) := by
  induction lines generalizing index path heap with
  | nil => rfl
  | cons line lines ih =>
    unfold parseIniLines readLines
    cases readLine casing line with
    | nothing => exact ih (index + 1) path heap
    | header header => exact ih (index + 1) header heap
    | setting leaf raw => exact ih (index + 1) path _
    | malformed message => rfl

theorem parseIni_objects (content : JsString) (source : Option JsString) (heap : JsHeap) :
    (parseIni casing declared content source heap).2 = (iniSettings casing content).foldl
      (storeLine casing declared heap.size) (heap.alloc (.record .empty)).2 := by
  unfold parseIni iniSettings
  dsimp only
  rw [parseIniLines_eq]
  cases (readLines casing (splitLines content) 0 []).2 <;> rfl

theorem parseIni_accepted {content : JsString} (complete : (readLines casing (splitLines content) 0 []).2 = none)
    (source : Option JsString) (heap : JsHeap) :
    (parseIni casing declared content source heap).1 = .ok (.object heap.size) := by
  unfold parseIni
  dsimp only
  rw [parseIniLines_eq, complete]
  rfl

theorem parseIni_tree {content : JsString} {source : Option JsString} {heap : JsHeap} {tree : Held}
    (accepted : (parseIni casing declared content source heap).1 = .ok tree) : tree = .object heap.size := by
  unfold parseIni at accepted
  dsimp only at accepted
  split at accepted
  · exact (Except.ok.inj accepted).symm
  · cases accepted

end lines

end JsHeap
