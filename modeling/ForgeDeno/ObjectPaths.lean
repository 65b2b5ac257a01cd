import ForgeDeno.AbiCodec
import ForgeDeno.JsHeap
import ForgeDeno.PathWrites

open ForgeDeno List Option JsObject

namespace JsObject

def own : JsObject → JsString → Option Held
  | .record properties, name => lookupMember properties.members name
  | .exotic properties, name => lookupMember properties.members name
  | _, _ => none

/-- `object[name] = item`; named properties of arrays and of binary data are not modelled. -/
def put : JsObject → JsString → Held → JsObject
  | .record properties, name, item => .record (properties.set name item)
  | .exotic properties, name, item => .exotic (properties.set name item)
  | object, _, _ => object

def keepsNames : JsObject → Bool
  | .record _ | .exotic _ => true
  | _ => false

theorem own_put {object : JsObject} (keeps : object.keepsNames = true) (name : JsString) (item : Held) :
    (object.put name item).own name = some item := by
  cases object with
  | record properties | exotic properties => exact (lookupMember_setMember item).trans (if_pos rfl)
  | _ => cases keeps

theorem own_put_other (object : JsObject) {name other : JsString} (different : other ≠ name) (item : Held) :
    (object.put name item).own other = object.own other := by
  cases object with
  | record properties | exotic properties => exact (lookupMember_setMember item).trans (if_neg different)
  | _ => rfl

theorem keepsNames_put (object : JsObject) (name : JsString) (item : Held) :
    (object.put name item).keepsNames = object.keepsNames := by
  cases object <;> rfl

theorem contents_put {object : JsObject} {name : JsString} {item inner : Held}
    (h : inner ∈ (object.put name item).contents) : inner ∈ object.contents ∨ inner = item := by
  have named : ∀ properties : Properties, inner ∈ (properties.set name item).members.map Prod.snd →
      inner ∈ properties.members.map Prod.snd ∨ inner = item := by
    intro properties mem
    obtain ⟨member, inside, same⟩ := mem_map.mp mem
    rcases mem_setMember inside with old | new
    · exact .inl (same ▸ mem_map_of_mem old)
    · rw [new] at same
      exact .inr same.symm
  cases object with
  | record properties | exotic properties => exact named properties h
  | _ => exact .inl h

theorem own_mem {object : JsObject} {name : JsString} {item : Held} (h : object.own name = some item) :
    item ∈ object.contents := by
  cases object with
  | record properties | exotic properties => exact mem_map_of_mem (lookupMember_mem h)
  | _ => cases h

end JsObject

namespace JsHeap

/-- The names of `Object.prototype`. -/
def objectNames : List JsString := inheritedNames

def objectMethod : Held := .unsupported (js "function")

def objectPrototype : Properties :=
  objectNames.foldr (fun name properties => properties.set name objectMethod) .empty

def inherited (name : JsString) : Held := if name ∈ objectNames then objectMethod else .undefined

def get (heap : JsHeap) (ref : Nat) (name : JsString) : Held :=
  (((heap.object ref).own name).or ((heap.object 0).own name)).getD .undefined

def put (heap : JsHeap) (ref : Nat) (name : JsString) (item : Held) : JsHeap :=
  ⟨heap.size, Function.update heap.object ref ((heap.object ref).put name item)⟩

/-- `isSettings`: the object that the loader descends into. -/
def settings? (heap : JsHeap) : Held → Option Nat
  | .object ref =>
    match heap.object ref with
    | .array _ => none
    | _ => some ref
  | _ => none

def readPath (heap : JsHeap) : Held → List JsString → Held
  | node, [] => node
  | node, part :: path =>
    match heap.settings? node with
    | some ref => heap.readPath (heap.get ref part) path
    | none => .undefined

def writePath (heap : JsHeap) (ref : Nat) : List JsString → Held → JsHeap
  | [], _ => heap
  | [part], value => heap.put ref part value
  | part :: next :: path, value =>
    match heap.settings? (heap.get ref part) with
    | some child => heap.writePath child (next :: path) value
    | none =>
      let (created, grown) := heap.alloc (.record .empty)
      (grown.put ref part created).writePath heap.size (next :: path) value

/-- The objects of a program, whose values refer to objects that are there, with `Object.prototype` as
the runtime makes it. -/
structure Sound (heap : JsHeap) : Prop where
  closed : ∀ ref < heap.size, ∀ item ∈ (heap.object ref).contents, item.below heap.size = true
  prototype : heap.object 0 = .record objectPrototype
  present : 0 < heap.size

theorem own_objectPrototype (name : JsString) : lookupMember objectPrototype.members name =
    if name ∈ objectNames then some objectMethod else none := by
  unfold objectPrototype
  induction objectNames with
  | nil => rfl
  | cons first names ih =>
    have step : lookupMember (setMember (names.foldr (fun name properties =>
        Properties.set properties name objectMethod) .empty).members first objectMethod) name =
          if name = first then some objectMethod else _ := lookupMember_setMember objectMethod
    refine step.trans ?_
    rw [ih]
    by_cases same : name = first <;> simp [same]

theorem objectPrototype_items {item : Held} (mem : item ∈ (JsObject.record objectPrototype).contents) :
    item = objectMethod := by
  unfold objectPrototype at mem
  generalize objectNames = names at mem
  induction names with
  | nil => cases mem
  | cons first names ih =>
    rcases @JsObject.contents_put (.record _) _ _ _ mem with old | new
    · exact ih old
    · exact new

section reading

variable {heap : JsHeap}

theorem get_eq (prototype : heap.object 0 = .record objectPrototype) (ref : Nat) (name : JsString) :
    heap.get ref name = ((heap.object ref).own name).getD (inherited name) := by
  have base : (heap.object 0).own name = if name ∈ objectNames then some objectMethod else none := by
    rw [prototype]
    exact own_objectPrototype name
  unfold get
  rw [base]
  cases (heap.object ref).own name with
  | some item => rfl
  | none =>
    rw [none_or, getD_none]
    unfold inherited
    split <;> rfl

theorem settings?_inherited (name : JsString) : heap.settings? (inherited name) = none := by
  unfold inherited
  split <;> rfl

theorem settings?_record {ref : Nat} {properties : Properties} (h : heap.object ref = .record properties) :
    heap.settings? (.object ref) = some ref := by
  unfold settings?
  dsimp only
  rw [h]

variable {node : Held}

theorem settings?_some {ref : Nat} (h : heap.settings? node = some ref) : node = .object ref := by
  cases node with
  | object other =>
    unfold settings? at h
    dsimp only at h
    split at h
    · cases h
    · exact congrArg Held.object (some.inj h)
  | _ => cases h

theorem readPath_cons {ref : Nat} (h : heap.settings? node = some ref) (part : JsString)
    (path : List JsString) : heap.readPath node (part :: path) = heap.readPath (heap.get ref part) path := by
  rw [readPath, h]

theorem readPath_leaf (h : heap.settings? node = none) (part : JsString)
    (path : List JsString) : heap.readPath node (part :: path) = .undefined := by
  rw [readPath, h]

theorem readPath_inherited (name : JsString) (path : List JsString) :
    heap.readPath (inherited name) path = if path = [] then inherited name else .undefined := by
  cases path with
  | nil => rfl
  | cons part path => exact readPath_leaf (settings?_inherited name) part path

theorem readPath_undefined (path : List JsString) : heap.readPath .undefined path = .undefined := by
  cases path with
  | nil | cons part path => rfl

theorem readPath_append (node : Held) (path rest : List JsString) :
    heap.readPath node (path ++ rest) = heap.readPath (heap.readPath node path) rest := by
  induction path generalizing node with
  | nil => rfl
  | cons part path ih =>
    rw [cons_append]
    cases found : heap.settings? node with
    | some ref => rw [readPath_cons found, readPath_cons found, ih]
    | none => rw [readPath_leaf found, readPath_leaf found, readPath_undefined]

theorem settings?_leaf (h : heap.settings? node = none) (path : List JsString) :
    heap.settings? (heap.readPath node path) = none := by
  cases path with
  | nil => exact h
  | cons part path =>
    rw [readPath_leaf h]
    rfl

theorem settings?_start {path rest : List JsString}
    (h : (heap.settings? (heap.readPath node (path ++ rest))).isSome) :
    (heap.settings? (heap.readPath node path)).isSome := by
  cases found : heap.settings? (heap.readPath node path) with
  | some ref => rfl
  | none =>
    rw [readPath_append, settings?_leaf found] at h
    cases h

theorem below_get (sound : heap.Sound) {ref : Nat} (old : ref < heap.size) (name : JsString) :
    (heap.get ref name).below heap.size = true := by
  rw [get_eq sound.prototype]
  cases found : (heap.object ref).own name with
  | some item => exact sound.closed ref old item (own_mem found)
  | none =>
    rw [getD_none]
    unfold inherited
    split <;> rfl

theorem below_readPath (sound : heap.Sound) (below : node.below heap.size = true)
    (path : List JsString) : (heap.readPath node path).below heap.size = true := by
  induction path generalizing node with
  | nil => exact below
  | cons part path ih =>
    cases found : heap.settings? node with
    | some ref =>
      rw [readPath_cons found]
      rw [settings?_some found] at below
      exact ih (below_get sound (of_decide_eq_true below) part)
    | none =>
      rw [readPath_leaf found]
      rfl

theorem reaches_readPath (sound : heap.Sound) {path : List JsString} {ref : Nat}
    (leads : heap.settings? (heap.readPath node path) = some ref) : heap.Reaches node ref := by
  induction path generalizing node with
  | nil =>
    rw [@settings?_some _ node _ leads]
    exact .here ref
  | cons part path ih =>
    cases found : heap.settings? node with
    | some outer =>
      rw [readPath_cons found, get_eq sound.prototype] at leads
      rw [settings?_some found]
      cases member : (heap.object outer).own part with
      | some item =>
        rw [member] at leads
        exact .inside (own_mem member) (ih leads)
      | none =>
        rw [member, getD_none, readPath_inherited] at leads
        split at leads
        · rw [settings?_inherited] at leads
          cases leads
        · cases leads
    | none =>
      rw [readPath_leaf found] at leads
      cases leads

end reading

def place (heap : JsHeap) (ref : Nat) : List JsString → Nat × List JsString
  | part :: next :: path =>
    match heap.settings? (heap.get ref part) with
    | some child => heap.place child (next :: path)
    | none => (ref, part :: next :: path)
  | path => (ref, path)

/-- Records that hold one another under the names of a path, one after the other from `ref` on, and
the last of them the value. -/
def Chain (heap : JsHeap) (value : Held) (ref : Nat) : List JsString → Prop
  | [] => False
  | [part] => heap.object ref = .record (Properties.empty.set part value)
  | part :: next :: path =>
    heap.object ref = .record (Properties.empty.set part (.object (ref + 1))) ∧
      heap.Chain value (ref + 1) (next :: path)

structure Writes (heap later : JsHeap) (ref : Nat) (name : JsString) (item : Held) : Prop where
  size : heap.size ≤ later.size
  others : ∀ other < heap.size, other ≠ ref → later.object other = heap.object other
  here : later.object ref = (heap.object ref).put name item

section places

variable {heap later : JsHeap}

theorem place_spec {ref : Nat} (object : heap.settings? (.object ref) = some ref) {path : List JsString}
    (some_path : path ≠ []) : ∃ before name rest, path = before ++ name :: rest ∧
      heap.place ref path = ((heap.place ref path).1, name :: rest) ∧
      heap.settings? (heap.readPath (.object ref) before) = some (heap.place ref path).1 ∧
      (rest ≠ [] → heap.settings? (heap.get (heap.place ref path).1 name) = none) := by
  induction path generalizing ref with
  | nil => exact absurd rfl some_path
  | cons part path ih =>
    cases path with
    | nil => exact ⟨[], part, [], rfl, rfl, object, fun more => absurd rfl more⟩
    | cons next path =>
      cases found : heap.settings? (heap.get ref part) with
      | none =>
        have here : heap.place ref (part :: next :: path) = (ref, part :: next :: path) := by
          rw [place, found]
        rw [here]
        exact ⟨[], part, next :: path, rfl, rfl, object, fun _ => found⟩
      | some child =>
        have further : heap.place ref (part :: next :: path) = heap.place child (next :: path) := by
          rw [place, found]
        have same := settings?_some found
        rw [same] at found
        obtain ⟨before, name, rest, split, placed, leads, stuck⟩ := ih found (cons_ne_nil _ _)
        rw [further]
        refine ⟨part :: before, name, rest, congrArg (part :: ·) split, placed, ?_, stuck⟩
        rwa [readPath_cons object, same]

theorem writePath_place (ref : Nat) (path : List JsString) (value : Held) : heap.writePath ref path value =
      heap.writePath (heap.place ref path).1 (heap.place ref path).2 value := by
  induction path generalizing ref with
  | nil => rfl
  | cons part path ih =>
    cases path with
    | nil => rfl
    | cons next path =>
      cases found : heap.settings? (heap.get ref part) with
      | none => rw [place, found]
      | some child =>
        rw [place, found, ← ih child]
        rw [writePath, found]

/-- What a write makes of a name without a record: one more object, empty, under that name. -/
structure Grows (heap grown : JsHeap) (ref : Nat) (name : JsString) : Prop where
  size : grown.size = heap.size + 1
  others : ∀ other < heap.size, other ≠ ref → grown.object other = heap.object other
  here : grown.object ref = (heap.object ref).put name (.object heap.size)
  fresh : grown.object heap.size = .record .empty

theorem writePath_grows {ref : Nat} (old : ref < heap.size) {part : JsString}
    (missing : heap.settings? (heap.get ref part) = none) (next : JsString) (path : List JsString)
    (value : Held) : ∃ grown, heap.Grows grown ref part ∧
      heap.writePath ref (part :: next :: path) value = grown.writePath heap.size (next :: path) value := by
  have kept : (heap.alloc (.record .empty)).2.object ref = heap.object ref :=
    Function.update_of_ne (Nat.ne_of_lt old) _ _
  have fresh : (heap.alloc (.record .empty)).2.object heap.size = .record .empty := heap.alloc_object _
  refine ⟨(heap.alloc (.record .empty)).2.put ref part (.object heap.size), ⟨rfl, ?_, ?_, ?_⟩, ?_⟩
  · intro other below different
    have update := Function.update_of_ne different ((heap.alloc (.record .empty)).2.object ref |>.put part
      (.object heap.size)) (heap.alloc (.record .empty)).2.object
    exact update.trans (Function.update_of_ne (Nat.ne_of_lt below) _ _)
  · have update := Function.update_self ref ((heap.alloc (.record .empty)).2.object ref |>.put part
      (.object heap.size)) (heap.alloc (.record .empty)).2.object
    exact update.trans (congrArg (fun object => JsObject.put object part (.object heap.size)) kept)
  · have update := Function.update_of_ne (Nat.ne_of_gt old) ((heap.alloc (.record .empty)).2.object ref |>.put
      part (.object heap.size)) (heap.alloc (.record .empty)).2.object
    exact update.trans fresh
  · rw [writePath, missing]
    rfl

theorem chain_of_fresh {ref : Nat} (size : heap.size = ref + 1) (other : ref ≠ 0)
    (empty : heap.object ref = .record .empty) (prototype : heap.object 0 = .record objectPrototype)
    {path : List JsString} (some_path : path ≠ []) (value : Held) :
    (heap.writePath ref path value).size = ref + path.length ∧
      (∀ old < ref, (heap.writePath ref path value).object old = heap.object old) ∧
      (heap.writePath ref path value).Chain value ref path := by
  induction path generalizing heap ref with
  | nil => exact absurd rfl some_path
  | cons part path ih =>
    cases path with
    | nil =>
      have here : (heap.put ref part value).object ref = (heap.object ref).put part value :=
        Function.update_self _ _ _
      rw [empty] at here
      exact ⟨size, fun old before => Function.update_of_ne (Nat.ne_of_lt before) _ _, here⟩
    | cons next path =>
      have missing : heap.settings? (heap.get ref part) = none := by
        have read : heap.get ref part = inherited part := by
          rw [get_eq prototype, empty]
          rfl
        rw [read, settings?_inherited]
      obtain ⟨grown, grows, writes⟩ := writePath_grows (by omega) missing next path value
      obtain ⟨total, kept, chain⟩ := ih grows.size (by omega) grows.fresh
        ((grows.others 0 (by omega) (Ne.symm other)).trans prototype) (cons_ne_nil _ _)
      have holder := grows.here
      rw [empty] at holder
      rw [writes]
      rw [size] at total kept chain holder ⊢
      refine ⟨?_, ?_, ?_, chain⟩
      · rw [total]
        simp only [length_cons]
        omega
      · intro old before
        rw [kept old (by omega), grows.others old (by omega) (Nat.ne_of_lt before)]
      · rw [kept ref (by omega), holder]
        rfl

theorem writePath_stuck {ref : Nat} (prototype : heap.object 0 = .record objectPrototype)
    (present : 0 < heap.size) (old : ref < heap.size) (other : ref ≠ 0) {name : JsString}
    {rest : List JsString} (stuck : rest ≠ [] → heap.settings? (heap.get ref name) = none) (value : Held) :
    ∃ item, heap.Writes (heap.writePath ref (name :: rest) value) ref name item ∧
      (rest = [] → item = value ∧ (heap.writePath ref (name :: rest) value).size = heap.size) ∧
      (rest ≠ [] → item = .object heap.size ∧
        (heap.writePath ref (name :: rest) value).size = heap.size + rest.length ∧
        (heap.writePath ref (name :: rest) value).Chain value heap.size rest) := by
  cases rest with
  | nil =>
    exact ⟨value, ⟨Nat.le_refl _, fun _ _ different => Function.update_of_ne different _ _,
      Function.update_self _ _ _⟩, fun _ => ⟨rfl, rfl⟩, fun more => absurd rfl more⟩
  | cons next rest =>
    obtain ⟨grown, grows, writes⟩ := writePath_grows old (stuck (cons_ne_nil _ _)) next rest value
    obtain ⟨total, kept, chain⟩ := chain_of_fresh grows.size (by omega) grows.fresh
      ((grows.others 0 present (Ne.symm other)).trans prototype) (cons_ne_nil next rest) value
    rw [writes]
    refine ⟨.object heap.size, ⟨?_, ?_, ?_⟩, fun none_left => absurd none_left (cons_ne_nil _ _), ?_⟩
    · omega
    · intro before below different
      rw [kept before below, grows.others before below different]
    · rw [kept ref old, grows.here]
    · exact fun _ => ⟨rfl, total, chain⟩

end places

section reads

variable {heap later : JsHeap} {root : Nat} {path other : List JsString} {value : Held}

variable {ref : Nat} {part last : JsString}

theorem Chain.holder (chain : heap.Chain value ref (part :: path)) :
    ∃ item, heap.object ref = .record (Properties.empty.set part item) ∧
      item = (if path = [] then value else .object (ref + 1)) ∧
        (path ≠ [] → heap.Chain value (ref + 1) path) := by
  cases path with
  | nil => exact ⟨value, chain, rfl, fun more => absurd rfl more⟩
  | cons next path => exact ⟨.object (ref + 1), chain.1, rfl, fun _ => chain.2⟩

theorem Chain.first (chain : heap.Chain value ref (part :: path))
    (prototype : heap.object 0 = .record objectPrototype) : heap.settings? (.object ref) = some ref ∧
      heap.get ref part = (if path = [] then value else .object (ref + 1)) ∧
      (path ≠ [] → heap.Chain value (ref + 1) path) ∧
      ∀ name, name ≠ part → heap.get ref name = inherited name := by
  obtain ⟨item, holds, held, further⟩ := chain.holder
  have holder : heap.object ref = (record Properties.empty).put part item := holds
  refine ⟨?_, ?_, further, ?_⟩
  · exact settings?_record holds
  · rw [get_eq prototype, holder, own_put rfl, getD_some, held]
  · intro name different
    rw [get_eq prototype, holder, own_put_other _ different]
    rfl

theorem Chain.through (chain : heap.Chain value ref path)
    (prototype : heap.object 0 = .record objectPrototype) (more : List JsString) :
    heap.readPath (.object ref) (path ++ more) = heap.readPath value more := by
  induction path generalizing ref with
  | nil => exact absurd chain id
  | cons part path ih =>
    obtain ⟨object, here, further, _⟩ := chain.first prototype
    rw [cons_append, readPath_cons object, here]
    split
    next last =>
      rw [last]
      rfl
    next more => exact ih (further more)

theorem Chain.inner {before rest : List JsString} (chain : heap.Chain value ref (before ++ part :: rest))
    (prototype : heap.object 0 = .record objectPrototype) :
    heap.settings? (heap.readPath (.object ref) before) = some (ref + before.length) ∧
      (heap.object (ref + before.length)).keepsNames = true := by
  induction before generalizing ref with
  | nil =>
    refine ⟨(chain.first prototype).1, ?_⟩
    obtain ⟨item, holds, _⟩ := chain.holder
    rw [length_nil, Nat.add_zero, holds]
    rfl
  | cons first before ih =>
    rw [cons_append] at chain
    obtain ⟨object, here, further, _⟩ := chain.first prototype
    have more : before ++ part :: rest ≠ [] := append_ne_nil_of_right_ne_nil _ (cons_ne_nil _ _)
    rw [if_neg more] at here
    have deeper : ref + 1 + before.length = ref + (first :: before).length := by
      rw [length_cons]
      omega
    rw [readPath_cons object, here, ← deeper]
    exact ih (further more)

theorem Chain.aside {before rest more : List JsString} {name : JsString}
    (chain : heap.Chain value ref (before ++ part :: rest))
    (prototype : heap.object 0 = .record objectPrototype) (different : name ≠ part) :
    heap.readPath (.object ref) (before ++ name :: more) = heap.readPath (inherited name) more := by
  induction before generalizing ref with
  | nil =>
    obtain ⟨object, _, _, others⟩ := chain.first prototype
    rw [nil_append, readPath_cons object, others name different]
  | cons first before ih =>
    rw [cons_append] at chain
    obtain ⟨object, here, further, _⟩ := chain.first prototype
    have some_rest : before ++ part :: rest ≠ [] :=
      append_ne_nil_of_right_ne_nil _ (cons_ne_nil _ _)
    rw [if_neg some_rest] at here
    rw [cons_append, readPath_cons object, here, ih (further some_rest)]

theorem Writes.settings?_eq {name : JsString} {item node : Held}
    (writes : heap.Writes later ref name item) (below : node.below heap.size = true) :
    later.settings? node = heap.settings? node := by
  cases node with
  | object inner =>
    unfold settings?
    dsimp only
    by_cases same : inner = ref
    · rw [same, writes.here]
      cases heap.object ref <;> rfl
    · rw [writes.others inner (of_decide_eq_true below) same]
  | _ => rfl

theorem readPath_unmet {name : JsString} {item node : Held} (sound : heap.Sound)
    (writes : heap.Writes later ref name item) (elsewhere : ref ≠ 0) (below : node.below heap.size = true)
    (unmet : ∀ before rest, path = before ++ name :: rest →
      heap.settings? (heap.readPath node before) ≠ some ref) :
    later.readPath node path = heap.readPath node path := by
  have prototype : later.object 0 = .record objectPrototype :=
    (writes.others 0 sound.present (Ne.symm elsewhere)).trans sound.prototype
  induction path generalizing node with
  | nil => rfl
  | cons part path ih =>
    cases found : heap.settings? node with
    | none => rw [readPath_leaf found, readPath_leaf ((writes.settings?_eq below).trans found)]
    | some outer =>
      rw [readPath_cons found, readPath_cons ((writes.settings?_eq below).trans found)]
      rw [settings?_some found] at below
      have old := of_decide_eq_true below
      have same : later.get outer part = heap.get outer part := by
        rw [get_eq prototype, get_eq sound.prototype]
        by_cases here : outer = ref
        · have different : part ≠ name := by
            intro named
            exact unmet [] path (congrArg (· :: path) named) (found.trans (congrArg some here))
          rw [here, writes.here, own_put_other _ different]
        · rw [writes.others outer old here]
      rw [same]
      apply ih (below_get sound old part)
      intro before rest split leads
      apply unmet (part :: before) rest (congrArg (part :: ·) split)
      rwa [readPath_cons found]

/-- A write from an object of the program to one that keeps its names and is not `Object.prototype`. -/
structure Writable (heap : JsHeap) (root : Nat) (path : List JsString) : Prop where
  sound : heap.Sound
  present : root < heap.size
  object : heap.settings? (.object root) = some root
  some_path : path ≠ []
  elsewhere : (heap.place root path).1 ≠ 0
  keeps : (heap.object (heap.place root path).1).keepsNames = true

def MetOnce (heap : JsHeap) (root : Nat) (path other : List JsString) : Prop :=
  ∀ name ∈ (heap.place root path).2.head?, ∀ start start' : List JsString,
    start ++ [name] <+: path ∨ start ++ [name] <+: other →
      start' ++ [name] <+: path ∨ start' ++ [name] <+: other →
        heap.settings? (heap.readPath (.object root) start) = some (heap.place root path).1 →
          heap.settings? (heap.readPath (.object root) start') = some (heap.place root path).1 → start = start'

/-- What a write does, with the path in two parts: the records that it goes through, and the name and
the rest of the path at the object it changes. -/
structure Written (heap later : JsHeap) (root : Nat) (path before : List JsString) (name : JsString)
    (rest : List JsString) (value item : Held) : Prop where
  split : path = before ++ name :: rest
  placed : (heap.place root path).2 = name :: rest
  leads : heap.settings? (heap.readPath (.object root) before) = some (heap.place root path).1
  stuck : rest ≠ [] → heap.settings? (heap.get (heap.place root path).1 name) = none
  writes : heap.Writes later (heap.place root path).1 name item
  last : rest = [] → item = value ∧ later.size = heap.size
  chain : rest ≠ [] → item = .object heap.size ∧ later.size = heap.size + rest.length ∧
    later.Chain value heap.size rest

theorem Writable.below_root (h : heap.Writable root path) : (Held.object root).below heap.size = true :=
  decide_eq_true h.present

theorem Writable.target_lt (h : heap.Writable root path) : (heap.place root path).1 < heap.size := by
  obtain ⟨before, name, rest, _, _, leads, _⟩ := place_spec h.object h.some_path
  have below := below_readPath h.sound h.below_root before
  rw [settings?_some leads] at below
  exact of_decide_eq_true below

theorem Writable.written (h : heap.Writable root path) (value : Held) : ∃ before name rest item,
    Written heap (heap.writePath root path value) root path before name rest value item := by
  obtain ⟨before, name, rest, split, placed, leads, stuck⟩ := place_spec h.object h.some_path
  obtain ⟨item, writes, last, chain⟩ := writePath_stuck h.sound.prototype h.sound.present h.target_lt
    h.elsewhere stuck value
  refine ⟨before, name, rest, item, ?_⟩
  have behind := congrArg Prod.snd placed
  rw [writePath_place, behind]
  exact ⟨split, behind, leads, stuck, writes, last, chain⟩

theorem MetOnce.own (once : heap.MetOnce root path other) : heap.MetOnce root path path :=
  fun name named start start' first second =>
    once name named start start' (.inl (first.elim id id)) (.inl (second.elim id id))

section written

variable {before rest : List JsString} {name : JsString} {item : Held}

theorem Written.way (w : Written heap later root path before name rest value item) :
    before ++ [name] <+: path := by
  rw [w.split]
  exact (prefix_append_right_inj before).mpr ⟨rest, rfl⟩

theorem Written.same_way (w : Written heap later root path before name rest value item)
    (once : heap.MetOnce root path other) {start : List JsString}
    (way : start ++ [name] <+: path ∨ start ++ [name] <+: other)
    (leads : heap.settings? (heap.readPath (.object root) start) = some (heap.place root path).1) :
    start = before :=
  once name (by rw [w.placed]; rfl) start before way (.inl w.way) leads w.leads

theorem Written.prototype (w : Written heap later root path before name rest value item)
    (h : heap.Writable root path) : later.object 0 = .record objectPrototype :=
  (w.writes.others 0 h.sound.present (Ne.symm h.elsewhere)).trans h.sound.prototype

theorem Written.reads_before (w : Written heap later root path before name rest value item)
    (h : heap.Writable root path) (once : heap.MetOnce root path path) {start : List JsString}
    (start_before : start <+: before) :
    later.readPath (.object root) start = heap.readPath (.object root) start := by
  apply readPath_unmet h.sound w.writes h.elsewhere h.below_root
  intro inner more shorter leads
  have inner_start : inner ++ [name] <+: start := by
    rw [shorter]
    exact (prefix_append_right_inj inner).mpr ⟨more, rfl⟩
  have inner_before := inner_start.trans start_before
  have same := w.same_way once
    (.inl (inner_before.trans ((prefix_append before [name]).trans w.way))) leads
  have lengths := inner_before.length_le
  rw [same, length_append, length_singleton] at lengths
  omega

theorem Written.reads_behind (w : Written heap later root path before name rest value item)
    (h : heap.Writable root path) (once : heap.MetOnce root path path) (more : List JsString) :
    later.readPath (.object root) (before ++ name :: more) = later.readPath item more := by
  have below := below_readPath h.sound h.below_root before
  rw [readPath_append, w.reads_before h once (prefix_refl before),
    readPath_cons ((w.writes.settings?_eq below).trans w.leads), get_eq (w.prototype h),
    w.writes.here, own_put h.keeps, getD_some]

end written

theorem Writable.reads_value (h : heap.Writable root path) (once : heap.MetOnce root path path)
    (value : Held) (more : List JsString) :
    (heap.writePath root path value).readPath (.object root) (path ++ more) =
      (heap.writePath root path value).readPath value more := by
  obtain ⟨before, name, rest, item, w⟩ := h.written value
  generalize heap.writePath root path value = later at w
  have whole : path ++ more = before ++ name :: (rest ++ more) := by
    rw [w.split, append_assoc]
    rfl
  rw [whole, w.reads_behind h once]
  by_cases none_left : rest = []
  · rw [none_left, (w.last none_left).1]
    rfl
  · obtain ⟨held, _, chain⟩ := w.chain none_left
    rw [held, chain.through (w.prototype h)]

def Created (heap : JsHeap) (root : Nat) (path other : List JsString) : Prop :=
  ∃ start name, other = start ++ [name] ∧ start <+: path ∧
    heap.settings? (heap.readPath (.object root) start) = none

variable {start front : List JsString}

theorem prefix_behind {before rest : List JsString} {name : JsString}
    (start_path : start <+: before ++ name :: rest) (longer : ¬ start <+: before) :
    before ++ [name] <+: start := by
  have first : before ++ [name] <+: before ++ name :: rest :=
    (prefix_append_right_inj before).mpr ⟨rest, rfl⟩
  rcases prefix_or_prefix_of_prefix start_path first with inside | behind
  · rcases prefix_concat_iff.mp inside with whole | shorter
    · rw [whole]
    · exact absurd shorter longer
  · exact behind

theorem apart_split (apart : Apart path other) : ∃ start part rest name more,
    path = start ++ part :: rest ∧ other = start ++ name :: more ∧ name ≠ part := by
  induction path generalizing other with
  | nil => exact absurd nil_prefix apart.1
  | cons part path ih =>
    cases other with
    | nil => exact absurd nil_prefix apart.2
    | cons name other =>
      by_cases same : name = part
      · rw [same] at apart ⊢
        have inside : Apart path other :=
          ⟨fun leads => apart.1 ((prefix_cons_inj part).mpr leads),
            fun leads => apart.2 ((prefix_cons_inj part).mpr leads)⟩
        obtain ⟨start, first, rest, second, more, left, right, different⟩ := ih inside
        exact ⟨part :: start, first, rest, second, more, congrArg (part :: ·) left,
          congrArg (part :: ·) right, different⟩
      · exact ⟨[], part, path, name, other, rfl, rfl, same⟩

theorem Writable.reads_created (h : heap.Writable root path) (once : heap.MetOnce root path path)
    (value : Held) {name : JsString} (apart : Apart path (start ++ [name]))
    (start_path : start <+: path) (missing : heap.settings? (heap.readPath (.object root) start) = none) :
    heap.readPath (.object root) (start ++ [name]) = .undefined ∧
      (heap.writePath root path value).readPath (.object root) (start ++ [name]) = inherited name := by
  refine ⟨?_, ?_⟩
  · rw [readPath_append, readPath_leaf missing]
  · obtain ⟨before, first, rest, item, w⟩ := h.written value
    generalize heap.writePath root path value = later at w
    have longer : ¬ start <+: before := by
      intro shorter
      obtain ⟨more, whole⟩ := shorter
      have through := w.leads
      rw [← whole] at through
      have some_start := settings?_start (isSome_of_eq_some through)
      rw [missing] at some_start
      cases some_start
    obtain ⟨inside, whole⟩ := prefix_behind (w.split ▸ start_path) longer
    obtain ⟨remaining, total⟩ := start_path
    have rest_split : rest = inside ++ remaining := by
      rw [w.split, ← whole, append_assoc, append_assoc, append_cancel_left_eq] at total
      exact (List.cons.inj total).2.symm
    cases remaining with
    | nil =>
      rw [append_nil] at total
      exact absurd (total ▸ prefix_append _ _) apart.1
    | cons part remaining =>
      have different : name ≠ part := by
        intro same
        apply apart.2
        rw [same, ← total]
        exact (prefix_append_right_inj start).mpr ⟨remaining, rfl⟩
      have some_rest : rest ≠ [] := by
        rw [rest_split]
        exact append_ne_nil_of_right_ne_nil _ (cons_ne_nil _ _)
      obtain ⟨held, _, chain⟩ := w.chain some_rest
      rw [rest_split] at chain
      rw [← whole, append_assoc, append_assoc]
      rw [singleton_append, w.reads_behind h once, held, chain.aside (w.prototype h) different]
      rfl

theorem Writable.reads_apart (h : heap.Writable root path) (once : heap.MetOnce root path other)
    (value : Held) (apart : Apart path other) (settled : ¬ heap.Created root path other) :
    (heap.writePath root path value).readPath (.object root) other = heap.readPath (.object root) other := by
  obtain ⟨before, first, rest, item, w⟩ := h.written value
  generalize heap.writePath root path value = later at w
  by_cases meets : before ++ [first] <+: other
  · obtain ⟨more, whole⟩ := meets
    have other_eq : other = before ++ first :: more := by
      rw [← whole, append_assoc]
      rfl
    have inner : Apart rest more := by
      constructor
      · intro leads
        apply apart.1
        rw [w.split, other_eq]
        exact (prefix_append_right_inj before).mpr ((prefix_cons_inj first).mpr leads)
      · intro leads
        apply apart.2
        rw [w.split, other_eq]
        exact (prefix_append_right_inj before).mpr ((prefix_cons_inj first).mpr leads)
    obtain ⟨start, part, remaining, name, further, rest_split, more_split, different⟩ := apart_split inner
    have some_rest : rest ≠ [] := by
      rw [rest_split]
      exact append_ne_nil_of_right_ne_nil _ (cons_ne_nil _ _)
    obtain ⟨held, _, chain⟩ := w.chain some_rest
    rw [rest_split] at chain
    have missing := w.stuck some_rest
    have earlier : ∀ tail, heap.readPath (.object root) (before ++ first :: tail) =
        heap.readPath (heap.get (heap.place root path).1 first) tail := by
      intro tail
      rw [readPath_append, readPath_cons w.leads]
    rw [other_eq, w.reads_behind h once.own, held, earlier, more_split,
      chain.aside (w.prototype h) different, readPath_inherited]
    have before_undefined :
        heap.readPath (heap.get (heap.place root path).1 first) (start ++ name :: further) = .undefined := by
      rw [readPath_append, readPath_leaf (settings?_leaf missing start)]
    rw [before_undefined]
    split
    next ends =>
      refine absurd ⟨before ++ first :: start, name, ?_, ?_, ?_⟩ settled
      · rw [other_eq, more_split, ends, append_assoc]
        rfl
      · rw [w.split, rest_split]
        exact (prefix_append_right_inj before).mpr
          ((prefix_cons_inj first).mpr (prefix_append _ _))
      · rw [earlier]
        exact settings?_leaf missing start
    next => rfl
  · apply readPath_unmet h.sound w.writes h.elsewhere h.below_root
    intro start more other_eq leads
    have way : start ++ [first] <+: other := by
      rw [other_eq]
      exact (prefix_append_right_inj start).mpr ⟨more, rfl⟩
    exact meets (w.same_way once (.inr way) leads ▸ way)

theorem Written.leads_start {before rest : List JsString} {name : JsString} {item : Held}
    (w : Written heap later root path before name rest value item) (h : heap.Writable root path)
    (once : heap.MetOnce root path path) {remaining : List JsString}
    (total : path = start ++ part :: remaining) :
    (start <+: before ∧ ∃ ref, heap.settings? (heap.readPath (.object root) start) = some ref ∧
      later.settings? (later.readPath (.object root) start) = some ref) ∨
    (before.length < start.length ∧ heap.settings? (heap.readPath (.object root) start) = none ∧
      later.settings? (later.readPath (.object root) start) =
        some (heap.size + (start.length - (before.length + 1))) ∧
      (later.object (heap.size + (start.length - (before.length + 1)))).keepsNames = true) := by
  have start_path : start <+: path := total ▸ prefix_append _ _
  by_cases shorter : start <+: before
  · left
    refine ⟨shorter, ?_⟩
    obtain ⟨more, whole⟩ := shorter
    have through := w.leads
    rw [← whole] at through
    obtain ⟨ref, led⟩ := isSome_iff_exists.mp (settings?_start (isSome_of_eq_some through))
    refine ⟨ref, led, ?_⟩
    rw [w.reads_before h once ⟨more, whole⟩,
      w.writes.settings?_eq (below_readPath h.sound h.below_root start), led]
  · right
    obtain ⟨inside, whole⟩ := prefix_behind (w.split ▸ start_path) shorter
    have start_eq : start = before ++ name :: inside := by
      rw [← whole, append_assoc]
      rfl
    have rest_split : rest = inside ++ part :: remaining := by
      have both := w.split
      rw [total, start_eq, append_assoc, append_cancel_left_eq] at both
      exact (List.cons.inj both).2.symm
    have some_rest : rest ≠ [] := by
      rw [rest_split]
      exact append_ne_nil_of_right_ne_nil _ (cons_ne_nil _ _)
    obtain ⟨held, _, chain⟩ := w.chain some_rest
    rw [rest_split] at chain
    have count : start.length - (before.length + 1) = inside.length := by
      rw [start_eq, length_append, length_cons]
      omega
    have within : before.length < start.length := by
      rw [start_eq, length_append, length_cons]
      omega
    rw [count]
    refine ⟨within, ?_, ?_⟩
    · rw [start_eq, readPath_append, readPath_cons w.leads]
      exact settings?_leaf (w.stuck some_rest) inside
    · rw [start_eq, w.reads_behind h once, held]
      exact chain.inner (w.prototype h)

theorem Chain.items (chain : heap.Chain value ref path) {inner : Nat} (from_ref : ref ≤ inner)
    (below : inner < ref + path.length) {item : Held} (mem : item ∈ (heap.object inner).contents) :
    item = value ∨ item.below (ref + path.length) = true := by
  induction path generalizing ref with
  | nil => exact absurd chain id
  | cons part path ih =>
    obtain ⟨held, holds, held_eq, further⟩ := chain.holder
    rw [length_cons] at below ⊢
    by_cases here : inner = ref
    · rw [here, holds] at mem
      rcases @JsObject.contents_put (.record .empty) _ _ _ mem with nothing | same
      · cases nothing
      · rw [same, held_eq]
        split
        · exact .inl rfl
        next more =>
          have longer := length_pos_of_ne_nil more
          exact .inr (decide_eq_true (by omega))
    · have more : path ≠ [] := by
        intro none_left
        rw [none_left, length_nil] at below
        omega
      have deeper : ref + 1 + path.length = ref + (path.length + 1) := by omega
      have later := ih (further more) (by omega) (by omega)
      rwa [deeper] at later

theorem below_mono {node : Held} {size later : Nat} (below : node.below size = true) (more : size ≤ later) :
    node.below later = true := by
  cases node with
  | object ref => exact decide_eq_true (Nat.lt_of_lt_of_le (of_decide_eq_true below) more)
  | _ => rfl

theorem Written.sound {before rest : List JsString} {name : JsString} {item : Held}
    (w : Written heap later root path before name rest value item) (h : heap.Writable root path)
    (below : value.below heap.size = true) : later.Sound := by
  have larger := w.writes.size
  refine ⟨?_, w.prototype h, Nat.lt_of_lt_of_le h.sound.present larger⟩
  intro ref present inner mem
  have item_below : item.below later.size = true := by
    by_cases none_left : rest = []
    · rw [(w.last none_left).1]
      exact below_mono below larger
    · obtain ⟨held, size, _⟩ := w.chain none_left
      have some_rest := length_pos_of_ne_nil none_left
      rw [held, size]
      exact decide_eq_true (by omega)
  by_cases old : ref < heap.size
  · by_cases here : ref = (heap.place root path).1
    · rw [here, w.writes.here] at mem
      rcases contents_put mem with kept | new
      · exact below_mono (h.sound.closed _ h.target_lt _ kept) larger
      · exact new ▸ item_below
    · rw [w.writes.others ref old here] at mem
      exact below_mono (h.sound.closed ref old _ mem) larger
  · have some_rest : rest ≠ [] := by
      intro none_left
      rw [(w.last none_left).2] at present
      exact old present
    obtain ⟨_, size, chain⟩ := w.chain some_rest
    rw [size] at present ⊢
    rcases chain.items (Nat.le_of_not_lt old) present mem with same | within
    · exact same ▸ below_mono below (by omega)
    · exact within

theorem Written.last_place {before rest : List JsString} {name : JsString} {item : Held}
    (w : Written heap later root path before name rest value item) (h : heap.Writable root path)
    (once : heap.MetOnce root path path) : ∃ front last, path = front ++ [last] ∧
      later.place root path = ((later.place root path).1, [last]) ∧
      later.settings? (later.readPath (.object root) front) = some (later.place root path).1 := by
  have object : later.settings? (.object root) = some root :=
    (w.writes.settings?_eq h.below_root).trans h.object
  obtain ⟨front, last, further, split, placed, leads, stuck⟩ := place_spec object h.some_path
  cases further with
  | nil => exact ⟨front, last, split, placed, leads⟩
  | cons next further =>
    have through : path = (front ++ [last]) ++ next :: further := by
      rw [split, append_assoc]
      rfl
    have missing := stuck (cons_ne_nil _ _)
    have reads : later.readPath (.object root) (front ++ [last]) =
        later.get (later.place root path).1 last := by
      rw [readPath_append, readPath_cons leads]
      rfl
    rw [← reads] at missing
    rcases w.leads_start h once through with ⟨_, ref, _, led⟩ | ⟨_, _, led, _⟩
    · cases missing.symm.trans led
    · cases missing.symm.trans led

/-- The last name of the path can be written to `target`, and only `front` leads there with it. -/
structure Ready (heap : JsHeap) (root : Nat) (path front : List JsString) (last : JsString) (target : Nat) :
    Prop where
  elsewhere : target ≠ 0
  keeps : (heap.object target).keepsNames = true
  unique : ∀ start, start ++ [last] <+: path →
    heap.settings? (heap.readPath (.object root) start) = some target → start = front

theorem Written.ready_old {before : List JsString} {name : JsString} {item : Held}
    (w : Written heap later root path before name [] value item) (h : heap.Writable root path)
    (once : heap.MetOnce root path path) : later.Ready root path before name (heap.place root path).1 := by
  refine ⟨h.elsewhere, ?_, ?_⟩
  · rw [w.writes.here, keepsNames_put]
    exact h.keeps
  · intro start way led
    have shorter : start <+: before := by
      have lengths := way.length_le
      have both : start <+: path := (prefix_append _ _).trans way
      rw [w.split, length_append, length_append, Nat.add_le_add_iff_right] at lengths
      rw [w.split] at both
      exact prefix_of_prefix_length_le both (prefix_append _ _) lengths
    rw [w.reads_before h once shorter, w.writes.settings?_eq (below_readPath h.sound h.below_root start)] at led
    exact w.same_way once (.inl way) led

theorem Written.ready_new {before rest : List JsString} {name : JsString} {item : Held}
    (w : Written heap later root path before name rest value item) (h : heap.Writable root path)
    (once : heap.MetOnce root path path) (split : path = front ++ [last]) (longer : before.length < front.length)
    (keeps : (later.object (heap.size + (front.length - (before.length + 1)))).keepsNames = true) :
    later.Ready root path front last (heap.size + (front.length - (before.length + 1))) := by
  refine ⟨?_, keeps, ?_⟩
  · have := h.sound.present
    omega
  · intro start way led_start
    obtain ⟨remaining, total⟩ : ∃ remaining, path = start ++ last :: remaining := by
      obtain ⟨more, whole⟩ := way
      exact ⟨more, by rw [← whole, append_assoc]; rfl⟩
    rcases w.leads_start h once total with ⟨_, ref, old, led⟩ | ⟨deeper, _, led, _⟩
    · have below := below_readPath h.sound h.below_root start
      rw [settings?_some old] at below
      have small := of_decide_eq_true below
      rw [led] at led_start
      have := some.inj led_start
      omega
    · rw [led] at led_start
      have lengths := some.inj led_start
      have start_path : start <+: path := total ▸ prefix_append _ _
      have front_path : front <+: path := split ▸ prefix_append _ _
      have same : start.length = front.length := by omega
      exact (prefix_of_prefix_length_le start_path front_path (by omega)).eq_of_length same

theorem Written.ready {before rest : List JsString} {name : JsString} {item : Held} {target : Nat}
    (w : Written heap later root path before name rest value item) (h : heap.Writable root path)
    (once : heap.MetOnce root path path) (split : path = front ++ [last])
    (leads : later.settings? (later.readPath (.object root) front) = some target) :
    later.Ready root path front last target := by
  rcases w.leads_start h once split with ⟨inside, ref, led, led'⟩ | ⟨longer, _, led, keeps⟩
  · have both := w.split.symm.trans split
    have none_left : rest = [] := by
      have lengths := inside.length_le
      have total := congrArg length both
      simp only [length_append, length_cons, length_nil] at total
      exact eq_nil_of_length_eq_zero (by omega)
    subst none_left
    obtain ⟨same, named⟩ := append_inj' both rfl
    rw [leads] at led'
    rw [← same, w.leads] at led
    have target_eq := (some.inj led').trans (some.inj led).symm
    rw [target_eq, ← same, ← (List.cons.inj named).1]
    exact w.ready_old h once
  · rw [leads] at led
    rw [some.inj led]
    exact w.ready_new h once split longer keeps

theorem Writable.again (h : heap.Writable root path) (once : heap.MetOnce root path path)
    (below : value.below heap.size = true) : (heap.writePath root path value).Writable root path ∧
      (heap.writePath root path value).MetOnce root path path := by
  obtain ⟨before, name, rest, item, w⟩ := h.written value
  generalize heap.writePath root path value = later at w
  have object : later.settings? (.object root) = some root :=
    (w.writes.settings?_eq h.below_root).trans h.object
  obtain ⟨front, last, split, placed, leads⟩ := w.last_place h once
  have ready := w.ready h once split leads
  have present := Nat.lt_of_lt_of_le h.present w.writes.size
  refine ⟨⟨w.sound h below, present, object, h.some_path, ready.elsewhere, ready.keeps⟩, ?_⟩
  intro part named start start' first second led led'
  rw [placed] at named
  have same : part = last := (some.inj named).symm
  rw [same] at first second
  rw [ready.unique start (first.elim id id) led, ready.unique start' (second.elim id id) led']

end reads

end JsHeap
