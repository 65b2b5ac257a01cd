import ForgeDeno.ObjectPaths
import ForgeDeno.OverlayTypes

namespace ForgeDeno

open JsHeap

/-- The settings tree of a `Config`: no key leads to `Object.prototype` or to binary data. -/
structure Configuration (heap : JsHeap) (root : Nat) : Prop where
  sound : heap.Sound
  present : root < heap.size
  object : heap.settings? (.object root) = some root
  plain : ∀ path ref, heap.settings? (heap.readPath (.object root) path) = some ref →
    ref ≠ 0 ∧ (heap.object ref).keepsNames = true

structure SettingsTree (heap : JsHeap) (root : Nat) : Prop extends Configuration heap root where
  one_way : ∀ path path' ref, heap.settings? (heap.readPath (.object root) path) = some ref →
    heap.settings? (heap.readPath (.object root) path') = some ref → path = path'

namespace Config

/-- `get` of the configuration whose settings are the object `root`. -/
def get (casing : Casing) (heap : JsHeap) (root : Nat) (key : JsString) : Held :=
  heap.readPath (.object root) (splitKey casing key)

def set (casing : Casing) (heap : JsHeap) (root : Nat) (key : JsString) (value : Held) : JsHeap :=
  heap.writePath root (splitKey casing key) value

end Config

/-- What a caller of `set` relies on: the key gives the value, every key that leads neither through it
nor before it reads as it did, the next value replaces this one, and what changes is inside the
configuration. -/
structure SetsOnly (casing : Casing) (heap : JsHeap) (root : Nat) (key : JsString) (value : Held) : Prop where
  gives : Config.get casing (Config.set casing heap root key value) root key = value
  keeps : ∀ other, Apart (splitKey casing key) (splitKey casing other) →
    Config.get casing (Config.set casing heap root key value) root other = Config.get casing heap root other
  overwrites : ∀ next, Config.get casing
    (Config.set casing (Config.set casing heap root key value) root key next) root key = next
  frame : ∀ ref < heap.size, (Config.set casing heap root key value).object ref ≠ heap.object ref →
    heap.Reaches (.object root) ref

/-- Neither the key nor one that reads apart from it comes to the written property on a second way. -/
def OneWayIn (casing : Casing) (heap : JsHeap) (root : Nat) (key : JsString) : Prop :=
  ∀ other, other = key ∨ Apart (splitKey casing key) (splitKey casing other) →
    heap.MetOnce root (splitKey casing key) (splitKey casing other)

/-- The other key asks for a method that every object inherits, on a start of the first key where no
record is yet. -/
def AsksMethod (casing : Casing) (heap : JsHeap) (root : Nat) (key other : JsString) : Prop :=
  ∃ start name, splitKey casing other = start ++ [name] ∧ start <+: splitKey casing key ∧
    heap.settings? (heap.readPath (.object root) start) = none ∧ name ∈ objectNames

section laws

variable {heap : JsHeap} {root : Nat} {path other : List JsString} {value : Held}

theorem Configuration.below_root (config : Configuration heap root) :
    (Held.object root).below heap.size = true := decide_eq_true config.present

theorem Configuration.writable (config : Configuration heap root) (some_path : path ≠ []) :
    heap.Writable root path := by
  obtain ⟨before, name, rest, _, _, leads, _⟩ := place_spec config.object some_path
  obtain ⟨elsewhere, keeps⟩ := config.plain before _ leads
  exact ⟨config.sound, config.present, config.object, some_path, elsewhere, keeps⟩

theorem SettingsTree.metOnce (tree : SettingsTree heap root) (path other : List JsString) :
    heap.MetOnce root path other :=
  fun _ _ start start' _ _ leads leads' => tree.one_way start start' _ leads leads'

theorem Configuration.changes_inside (config : Configuration heap root) (path : List JsString)
    (value : Held) {ref : Nat} (old : ref < heap.size)
    (changed : (heap.writePath root path value).object ref ≠ heap.object ref) :
    heap.Reaches (.object root) ref := by
  by_cases some_path : path = []
  · rw [some_path] at changed
    exact absurd rfl changed
  · obtain ⟨before, name, rest, item, w⟩ := (config.writable some_path).written value
    by_cases here : ref = (heap.place root path).1
    · rw [here]
      exact reaches_readPath config.sound w.leads
    · exact absurd (w.writes.others ref old here) changed

theorem leads_after (h : heap.Writable root path) (once : heap.MetOnce root path other)
    (leaf : heap.settings? value = none) (below : value.below heap.size = true)
    {before rest : List JsString} {name : JsString} {item : Held} {ref : Nat}
    (w : Written heap (heap.writePath root path value) root path before name rest value item)
    (leads : (heap.writePath root path value).settings?
      ((heap.writePath root path value).readPath (.object root) other) = some ref) :
    heap.settings? (heap.readPath (.object root) other) = some ref ∨
      (other <+: path ∧ before.length < other.length ∧ ref = heap.size + (other.length - (before.length + 1)) ∧
        ((heap.writePath root path value).object ref).keepsNames = true) := by
  by_cases through : path <+: other
  · obtain ⟨more, whole⟩ := through
    rw [← whole, h.reads_value once.own, settings?_leaf ((w.writes.settings?_eq below).trans leaf)] at leads
    cases leads
  by_cases start : other <+: path
  · obtain ⟨remaining, whole⟩ := start
    cases remaining with
    | nil =>
      rw [List.append_nil] at whole
      exact absurd (whole ▸ List.prefix_refl _) through
    | cons part remaining =>
      rcases w.leads_start h once.own whole.symm with ⟨_, inner, old, led⟩ | ⟨longer, _, led, keeps⟩
      · rw [led] at leads
        exact .inl (old.trans leads)
      · rw [led] at leads
        have same := (Option.some.inj leads).symm
        exact .inr ⟨⟨_, whole⟩, longer, same, same ▸ keeps⟩
  · have apart : Apart path other := ⟨through, start⟩
    by_cases created : heap.Created root path other
    · obtain ⟨front, last, whole, front_path, missing⟩ := created
      rw [whole] at apart
      rw [whole, (h.reads_created once.own value apart front_path missing).2, settings?_inherited] at leads
      cases leads
    · rw [h.reads_apart once value apart created,
        w.writes.settings?_eq (below_readPath h.sound h.below_root other)] at leads
      exact .inl leads

theorem SettingsTree.writePath (tree : SettingsTree heap root) (some_path : path ≠ [])
    (leaf : heap.settings? value = none) (below : value.below heap.size = true) :
    SettingsTree (heap.writePath root path value) root := by
  have h := tree.writable some_path
  obtain ⟨before, name, rest, item, w⟩ := h.written value
  have after := fun (other : List JsString) (ref : Nat) =>
    @leads_after _ _ _ other _ h (tree.metOnce path other) leaf below _ _ _ _ ref w
  have larger := w.writes.size
  have old_lt : ∀ other ref, heap.settings? (heap.readPath (.object root) other) = some ref →
      ref < heap.size := by
    intro other ref leads
    have below_other := below_readPath h.sound h.below_root other
    rw [settings?_some leads] at below_other
    exact of_decide_eq_true below_other
  refine ⟨⟨w.sound h below, Nat.lt_of_lt_of_le h.present larger,
    (w.writes.settings?_eq h.below_root).trans h.object, ?_⟩, ?_⟩
  · intro other ref leads
    rcases after other ref leads with old | ⟨_, _, same, keeps⟩
    · obtain ⟨elsewhere, keeps⟩ := tree.plain other ref old
      refine ⟨elsewhere, ?_⟩
      by_cases here : ref = (heap.place root path).1
      · rw [here, w.writes.here, JsObject.keepsNames_put, ← here]
        exact keeps
      · rw [w.writes.others ref (old_lt other ref old) here]
        exact keeps
    · have present := h.sound.present
      exact ⟨by omega, keeps⟩
  · intro first second ref leads leads'
    rcases after first ref leads with old | ⟨first_path, longer, same, _⟩
    · rcases after second ref leads' with old' | ⟨_, _, same', _⟩
      · exact tree.one_way first second ref old old'
      · have small := old_lt first ref old
        omega
    · rcases after second ref leads' with old' | ⟨second_path, longer', same', _⟩
      · have small := old_lt second ref old'
        omega
      · exact (List.prefix_of_prefix_length_le first_path second_path (by omega)).eq_of_length (by omega)

end laws

section claims

variable {casing : Casing} {heap : JsHeap} {root : Nat} {key other : JsString} {value : Held}

theorem inherited_eq_undefined {name : JsString} : inherited name = .undefined ↔ name ∉ objectNames := by
  unfold inherited
  split
  next method => exact iff_of_false nofun fun missing => missing method
  next missing => exact iff_of_true rfl missing

theorem get_set_apart (config : Configuration heap root)
    (once : heap.MetOnce root (splitKey casing key) (splitKey casing other))
    (apart : Apart (splitKey casing key) (splitKey casing other)) (value : Held) :
    Config.get casing (Config.set casing heap root key value) root other = Config.get casing heap root other ↔
      ¬ AsksMethod casing heap root key other := by
  have some_key : splitKey casing key ≠ [] := fun none_left => apart.1 (none_left ▸ List.nil_prefix)
  have h := config.writable some_key
  unfold Config.get Config.set
  by_cases created : heap.Created root (splitKey casing key) (splitKey casing other)
  · obtain ⟨start, name, whole, start_key, missing⟩ := created
    have both := h.reads_created once.own value (whole ▸ apart) start_key missing
    rw [whole, both.1, both.2, inherited_eq_undefined]
    constructor
    · intro no_method asks
      obtain ⟨start', name', whole', _, _, method⟩ := asks
      rw [whole] at whole'
      have last := (List.append_inj' whole' rfl).2
      exact no_method ((List.cons.inj last).1 ▸ method)
    · exact fun settled method => settled ⟨start, name, whole, start_key, missing, method⟩
  · refine iff_of_true (h.reads_apart once value apart created) ?_
    intro asks
    obtain ⟨start, name, whole, start_key, missing, _⟩ := asks
    exact created ⟨start, name, whole, start_key, missing⟩

/-- `set` is a lens, as long as no key asks for an inherited method where `set` creates a record. -/
theorem sets_only_iff (config : Configuration heap root) (some_key : splitKey casing key ≠ [])
    (below : value.below heap.size = true) (one_way : OneWayIn casing heap root key) :
    SetsOnly casing heap root key value ↔ ∀ other, Apart (splitKey casing key) (splitKey casing other) →
        ¬ AsksMethod casing heap root key other := by
  have h := config.writable some_key
  have once := one_way key (.inl rfl)
  constructor
  · intro sets other apart
    exact (get_set_apart config (one_way other (.inr apart)) apart value).mp (sets.keeps other apart)
  · intro settled
    have gives := h.reads_value once value []
    obtain ⟨writable, met⟩ := h.again once below
    refine ⟨?_, ?_, ?_, fun ref old changed => config.changes_inside _ value old changed⟩
    · rwa [List.append_nil] at gives
    · intro other apart
      exact (get_set_apart config (one_way other (.inr apart)) apart value).mpr (settled other apart)
    · intro next
      have again := writable.reads_value met next []
      rwa [List.append_nil] at again

/-- A program with `Object.prototype` and an empty configuration. -/
def emptySettings : JsHeap :=
  ⟨2, fun ref => if ref = 0 then .record objectPrototype else .record .empty⟩

theorem emptySettings_leads {path : List JsString} {ref : Nat}
    (leads : emptySettings.settings? (emptySettings.readPath (.object 1) path) = some ref) :
    path = [] ∧ ref = 1 := by
  cases path with
  | nil => exact ⟨rfl, (Option.some.inj leads).symm⟩
  | cons part path =>
    have object : emptySettings.settings? (.object 1) = some 1 := rfl
    rw [JsHeap.readPath_cons object, get_eq rfl] at leads
    have nothing : (emptySettings.object 1).own part = none := rfl
    rw [nothing, Option.getD_none, settings?_leaf (settings?_inherited part)] at leads
    cases leads

theorem emptySettings_tree : SettingsTree emptySettings 1 := by
  refine ⟨⟨⟨?_, rfl, by decide⟩, by decide, rfl, ?_⟩, ?_⟩
  · intro ref _ item mem
    by_cases first : ref = 0
    · have held : emptySettings.object ref = .record objectPrototype := by rw [first]; rfl
      rw [held] at mem
      rw [objectPrototype_items mem]
      rfl
    · have held : emptySettings.object ref = .record .empty := if_neg first
      rw [held] at mem
      cases mem
  · intro path ref leads
    obtain ⟨_, same⟩ := emptySettings_leads leads
    rw [same]
    exact ⟨by decide, rfl⟩
  · intro path path' ref leads leads'
    rw [(emptySettings_leads leads).1, (emptySettings_leads leads').1]

/-- `set("a.b", true)` on an empty configuration makes `a.constructor` a function. -/
theorem unset_key_reads_function : SettingsTree emptySettings 1 ∧
    Config.get asciiCasing emptySettings 1 (js "a.constructor") = .undefined ∧
    Config.get asciiCasing (Config.set asciiCasing emptySettings 1 (js "a.b") (.bool true)) 1
      (js "a.constructor") = .unsupported (js "function") ∧
    ¬ SetsOnly asciiCasing emptySettings 1 (js "a.b") (.bool true) := by
  have key : splitKey asciiCasing (js "a.b") = [js "a", js "b"] := by decide
  have other : splitKey asciiCasing (js "a.constructor") = [js "a"] ++ [js "constructor"] := by decide
  have apart : Apart (splitKey asciiCasing (js "a.b")) (splitKey asciiCasing (js "a.constructor")) := by
    rw [key, other]
    unfold Apart
    decide
  have method : inherited (js "constructor") = .unsupported (js "function") := if_pos (by decide)
  have some_key : splitKey asciiCasing (js "a.b") ≠ [] := by
    rw [key]
    exact List.cons_ne_nil _ _
  have missing : emptySettings.settings? (emptySettings.readPath (.object 1) [js "a"]) = none := by
    cases leads : emptySettings.settings? (emptySettings.readPath (.object 1) [js "a"]) with
    | none => rfl
    | some ref => cases (emptySettings_leads leads).1
  have once := emptySettings_tree.metOnce (splitKey asciiCasing (js "a.b")) (splitKey asciiCasing (js "a.b"))
  obtain ⟨before, after⟩ := (emptySettings_tree.writable some_key).reads_created once (.bool true)
    (other ▸ apart) (key ▸ ⟨[js "b"], rfl⟩) missing
  rw [method] at after
  rw [← other] at before after
  refine ⟨emptySettings_tree, before, after, fun sets => ?_⟩
  have kept := sets.keeps (js "a.constructor") apart
  unfold Config.get Config.set at kept
  rw [before, after] at kept
  cases kept

/-- A second name in a record that is there already. -/
theorem second_name_set : SetsOnly asciiCasing
    (Config.set asciiCasing emptySettings 1 (js "a.b") (.bool true)) 1 (js "a.c") (.bool false) := by
  have key : splitKey asciiCasing (js "a.b") = [js "a", js "b"] := by decide
  have next : splitKey asciiCasing (js "a.c") = [js "a", js "c"] := by decide
  have some_key : splitKey asciiCasing (js "a.b") ≠ [] := by
    rw [key]
    exact List.cons_ne_nil _ _
  have tree := @SettingsTree.writePath _ _ _ (.bool true) emptySettings_tree some_key rfl rfl
  have once := emptySettings_tree.metOnce (splitKey asciiCasing (js "a.b")) (splitKey asciiCasing (js "a.b"))
  apply (sets_only_iff tree.toConfiguration (by rw [next]; exact List.cons_ne_nil _ _) rfl
    fun other _ => tree.metOnce _ _).mpr
  intro other apart asks
  obtain ⟨start, name, whole, start_key, missing, _⟩ := asks
  have h := emptySettings_tree.writable some_key
  obtain ⟨before, first, rest, item, w⟩ := h.written (.bool true)
  have inner : ∀ front part more, [js "a", js "b"] = front ++ part :: more →
      ((emptySettings.writePath 1 (splitKey asciiCasing (js "a.b")) (.bool true)).settings?
        ((emptySettings.writePath 1 (splitKey asciiCasing (js "a.b")) (.bool true)).readPath
          (.object 1) front)).isSome := by
    intro front part more total
    rcases w.leads_start h once (key.trans total) with ⟨_, ref, _, led⟩ | ⟨_, _, led, _⟩
    · exact Option.isSome_of_eq_some led
    · exact Option.isSome_of_eq_some led
  have shown : ∀ front part more, [js "a", js "b"] = front ++ part :: more → start ≠ front := by
    intro front part more total same
    have led := inner front part more total
    rw [← same] at led
    have nothing : (emptySettings.writePath 1 (splitKey asciiCasing (js "a.b")) (.bool true)).settings?
        ((emptySettings.writePath 1 (splitKey asciiCasing (js "a.b")) (.bool true)).readPath
          (.object 1) start) = none := missing
    rw [nothing] at led
    cases led
  rw [next] at start_key apart
  obtain ⟨more, total⟩ := start_key
  cases start with
  | nil => exact shown [] _ _ rfl rfl
  | cons part start =>
    obtain ⟨first, total⟩ := List.cons.inj total
    cases start with
    | nil => exact shown [js "a"] _ [] rfl (congrArg (· :: []) first)
    | cons part' start =>
      obtain ⟨second, total⟩ := List.cons.inj total
      rw [(List.append_eq_nil_iff.mp total).1, first, second] at whole
      rw [whole] at apart
      exact apart.1 (List.prefix_append _ _)

end claims

end ForgeDeno
