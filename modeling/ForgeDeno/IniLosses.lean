import ForgeDeno.InheritedKeys

namespace ForgeDeno

open JsHeap List

def valuesAt (casing : Casing) (declared : JsString → Option ConfigValue) (root : Nat)
    (path : List JsString) (heap : JsHeap) : List IniSetting → List Held
  | [] => []
  | line :: lines =>
    let later := valuesAt casing declared root path (storeLine casing declared root heap line) lines
    if line.path = path then (build (line.value casing declared) heap).1 :: later else later

/-- The key reads as its only value, or as a list that has all of them in order. -/
def KeepsValues (heap : JsHeap) (tree : Held) (path : List JsString) (values : List Held) : Prop :=
  values = [heap.readPath tree path] ∨
    ∃ ref items, heap.readPath tree path = .object ref ∧ heap.object ref = .array items ∧
      (values.flatMap heap.asList).Sublist items

def Compatible (lines : List IniSetting) : Prop :=
  ∀ line ∈ lines, ∀ other ∈ lines, line.path <+: other.path → line.path = other.path

structure Typed (heap : JsHeap) (value : Held) : Prop where
  below : value.below heap.size = true
  leaf : heap.settings? value = none
  defined : value ≠ .undefined

section lists

variable {heap later : JsHeap} {value : Held}

theorem asList_some {item : Option Held} (mem : item ∈ heap.asList value) :
    (some (item.getD .undefined)) = item := by
  cases value with
  | object ref =>
    unfold JsHeap.asList at mem
    dsimp only at mem
    split at mem
    · obtain ⟨inner, _, same⟩ := mem_map.mp mem
      rw [← same]
      rfl
    · rw [mem_singleton.mp mem]
      rfl
  | _ =>
    rw [mem_singleton.mp mem]
    rfl

theorem asList_array {ref : Nat} {items : List (Option Held)} (array : heap.object ref = .array items) :
    heap.asList (.object ref) = items.map fun item => some (item.getD .undefined) := by
  unfold JsHeap.asList
  dsimp only
  rw [array]

theorem map_some_eq {items : List (Option Held)} (full : ∀ item ∈ items, some (item.getD .undefined) = item) :
    (items.map fun item => some (item.getD .undefined)) = items := by
  conv_rhs => rw [← map_id items]
  exact map_congr_left full

theorem asList_extends (grown : heap.Extends later) (below : value.below heap.size = true) :
    later.asList value = heap.asList value := by
  cases value with
  | object ref =>
    unfold JsHeap.asList
    dsimp only
    rw [grown.kept ref (of_decide_eq_true below)]
  | _ => rfl

theorem asList_writes {ref : Nat} {name : JsString} {item : Held}
    (writes : heap.Writes later ref name item) (below : value.below heap.size = true) :
    later.asList value = heap.asList value := by
  cases value with
  | object inner =>
    unfold JsHeap.asList
    dsimp only
    by_cases same : inner = ref
    · rw [same, writes.here]
      cases heap.object ref <;> rfl
    · rw [writes.others inner (of_decide_eq_true below) same]
  | _ => rfl

theorem flatMap_asList (same : ∀ value : Held, value.below heap.size = true →
    later.asList value = heap.asList value) {values : List Held}
    (below : ∀ value ∈ values, value.below heap.size = true) :
    values.flatMap later.asList = values.flatMap heap.asList :=
  flatMap_congr fun value mem => same value (below value mem)

end lists

section steps

variable {base heap later : JsHeap} {root : Nat} {lines : List IniSetting} {line : IniSetting}
  {path : List JsString} {value held : Held}

theorem Typed.grow (typed : Typed heap held) (grown : heap.Extends later) : Typed later held :=
  ⟨below_mono typed.below grown.size, (grown.settings?_eq typed.below).trans typed.leaf, typed.defined⟩

theorem Typed.write (typed : Typed heap held) (h : heap.Writable root path) (value : Held) :
    Typed (heap.writePath root path value) held := by
  obtain ⟨before, name, rest, item, w⟩ := h.written value
  exact ⟨below_mono typed.below w.writes.size, (w.writes.settings?_eq typed.below).trans typed.leaf,
    typed.defined⟩

theorem setIniValue_writes (tree : IniTree base heap root lines) (typed : Typed heap value) (path : List JsString) :
    ∃ grown item, heap.setIniValue root path value = grown.writePath root path item ∧
      heap.Extends grown ∧ IniTree base grown root lines ∧ Typed grown item ∧
      ((heap.readPath (.object root) path = .undefined ∧ item = value) ∨
        ∃ ref, item = .object ref ∧ grown.object ref =
          .array (heap.asList (heap.readPath (.object root) path) ++ heap.asList value)) := by
  unfold JsHeap.setIniValue readExisting
  split
  next undefined => exact ⟨heap, value, rfl, .refl heap, tree, typed, .inl ⟨undefined, rfl⟩⟩
  next existing _ =>
    have there := below_readPath tree.sound tree.below_root path
    have grown := heap.extends_alloc (.array (heap.asList (heap.readPath (.object root) path) ++ heap.asList value))
    refine ⟨_, _, rfl, grown, tree.grow grown (alloc_list tree.sound typed.below there),
      ⟨below_alloc _ _, settings?_array (alloc_object _ _), fun same => Held.noConfusion same⟩,
      .inr ⟨heap.size, rfl, alloc_object _ _⟩⟩

theorem KeepsValues.defined {values : List Held} (kept : KeepsValues heap (.object root) path values)
    (typed : ∀ value ∈ values, Typed heap value) : heap.readPath (.object root) path ≠ .undefined := by
  rcases kept with only | ⟨ref, items, reads, _⟩
  · exact (typed _ (only ▸ mem_singleton_self _)).defined
  · rw [reads]
    exact fun same => Held.noConfusion same

theorem KeepsValues.grow {values : List Held} (kept : KeepsValues heap (.object root) path values)
    (typed : ∀ value ∈ values, Typed heap value) (tree : IniTree base heap root lines)
    (grown : heap.Extends later) : KeepsValues later (.object root) path values := by
  unfold KeepsValues
  rw [grown.readPath_eq tree.sound tree.below_root]
  rcases kept with only | ⟨ref, items, reads, array, all⟩
  · exact .inl only
  · have below := below_readPath tree.sound tree.below_root path
    rw [reads] at below
    refine .inr ⟨ref, items, reads, (grown.kept ref (of_decide_eq_true below)).trans array, ?_⟩
    rwa [flatMap_asList (fun _ => asList_extends grown) fun value mem => (typed value mem).below]

theorem array_written (h : heap.Writable root path) (value : Held) {ref : Nat} (old : ref < heap.size)
    {items : List (Option Held)} (array : heap.object ref = .array items) :
    (heap.writePath root path value).object ref = .array items := by
  obtain ⟨before, name, rest, item, w⟩ := h.written value
  have different : ref ≠ (heap.place root path).1 := by
    intro same
    have object := w.leads
    rw [settings?_some w.leads, ← same, settings?_array array] at object
    cases object
  rw [w.writes.others ref old different, array]

theorem KeepsValues.write {values : List Held} (kept : KeepsValues heap (.object root) path values)
    (typed : ∀ value ∈ values, Typed heap value) (tree : IniTree base heap root lines)
    (apart : Apart line.path path) (value : Held) :
    KeepsValues (heap.writePath root line.path value) (.object root) path values := by
  have some_path : line.path ≠ [] := fun none_left => apart.1 (none_left ▸ nil_prefix)
  have h := tree.writable some_path
  have settled : ¬ heap.Created root line.path path := by
    rintro ⟨start, name, whole, start_path, missing⟩
    apply kept.defined typed
    rw [whole]
    exact (h.reads_created (tree.metOnce _ _) value (whole ▸ apart) start_path missing).1
  unfold KeepsValues
  rw [h.reads_apart (tree.metOnce _ _) value apart settled]
  obtain ⟨before, name, rest, item, w⟩ := h.written value
  rcases kept with only | ⟨ref, items, reads, array, all⟩
  · exact .inl only
  · have below := below_readPath tree.sound tree.below_root path
    rw [reads] at below
    refine .inr ⟨ref, items, reads, array_written h value (of_decide_eq_true below) array, ?_⟩
    rwa [flatMap_asList (fun _ => asList_writes w.writes) fun value mem => (typed value mem).below]

theorem kept_setIniValue {values : List Held} (tree : IniTree base heap root lines) (some_path : path ≠ [])
    (typed : ∀ value ∈ values, Typed heap value)
    (kept : values = [] ∨ KeepsValues heap (.object root) path values) (new : Typed heap value) :
    KeepsValues (heap.setIniValue root path value) (.object root) path (values ++ [value]) := by
  obtain ⟨grown, item, writes, extends', tree', typed', shape⟩ := setIniValue_writes tree new path
  have h := tree'.writable some_path
  have reads := h.reads_value (tree'.metOnce path path) item []
  rw [append_nil, ← writes] at reads
  have reads' : (heap.setIniValue root path value).readPath (.object root) path = item := reads
  unfold KeepsValues
  rw [reads']
  rcases shape with ⟨undefined, same⟩ | ⟨ref, same, array⟩
  · have first : values = [] := by
      rcases kept with none_left | kept
      · exact none_left
      · exact absurd undefined (kept.defined typed)
    rw [first, same]
    exact .inl rfl
  · have lists : ∀ held : Held, held.below heap.size = true →
        (heap.setIniValue root path value).asList held = heap.asList held := by
      intro held below
      obtain ⟨before, name, rest, item', w⟩ := h.written item
      rw [writes, asList_writes w.writes (below_mono below extends'.size), asList_extends extends' below]
    have listed : ref < grown.size := by
      have below := typed'.below
      rw [same] at below
      exact of_decide_eq_true below
    refine .inr ⟨ref, _, same, by rw [writes]; exact array_written h item listed array, ?_⟩
    rw [flatMap_append, flatMap_asList lists fun held mem => (typed held mem).below,
      flatMap_singleton, lists value new.below]
    apply List.Sublist.append _ (List.Sublist.refl _)
    rcases kept with none_left | only | ⟨inner, items, old, array', all⟩
    · rw [none_left]
      exact nil_sublist _
    · rw [only, flatMap_singleton]
    · rw [old, asList_array array']
      have spread := all.map fun item => some (Option.getD item Held.undefined)
      rwa [map_some_eq] at spread
      intro item mem
      obtain ⟨held, _, inside⟩ := mem_flatMap.mp mem
      exact asList_some inside

end steps

section runs

variable {casing : Casing} {declared : JsString → Option ConfigValue} {base heap : JsHeap} {root : Nat}
  {lines : List IniSetting} {path : List JsString} {held : Held}

theorem typed_built (tree : IniTree base heap root lines) (line : IniSetting) :
    Typed (build (line.value casing declared) heap).2 (build (line.value casing declared) heap).1 := by
  obtain ⟨_, leaf, below⟩ := @IniTree.built casing declared _ _ _ _ tree line
  exact ⟨below, leaf, build_defined _ heap⟩

theorem Typed.setIniValue {value : Held} (typed : Typed heap held) (tree : IniTree base heap root lines)
    (new : Typed heap value) (some_path : path ≠ []) : Typed (heap.setIniValue root path value) held := by
  obtain ⟨grown, item, writes, extends', tree', _, _⟩ := setIniValue_writes tree new path
  rw [writes]
  exact (typed.grow extends').write (tree'.writable some_path) item

theorem Typed.storeLine (typed : Typed heap held) (tree : IniTree base heap root lines) {line : IniSetting}
    (some_path : line.path ≠ []) : Typed (storeLine casing declared root heap line) held := by
  have made := build_made (line.value casing declared) heap tree.sound
  exact (typed.grow made.grown).setIniValue (@IniTree.built casing declared _ _ _ _ tree line).1
    (typed_built tree line) some_path

theorem Typed.storeLines (typed : Typed heap held) (tree : IniTree base heap root lines)
    {more : List IniSetting} (some_paths : ∀ line ∈ more, line.path ≠ []) :
    Typed (more.foldl (JsHeap.storeLine casing declared root) heap) held := by
  induction more generalizing heap lines with
  | nil => exact typed
  | cons line more ih =>
    obtain ⟨first, later⟩ := forall_mem_cons.mp some_paths
    exact ih (typed.storeLine tree first) (tree.storeLine first) later

theorem typed_valuesAt (tree : IniTree base heap root lines) {more : List IniSetting}
    (some_paths : ∀ line ∈ more, line.path ≠ []) (path : List JsString) :
    ∀ value ∈ valuesAt casing declared root path heap more,
      Typed (more.foldl (JsHeap.storeLine casing declared root) heap) value := by
  induction more generalizing heap lines with
  | nil => exact fun _ mem => absurd mem not_mem_nil
  | cons line more ih =>
    obtain ⟨first, later⟩ := forall_mem_cons.mp some_paths
    have next := @IniTree.storeLine casing declared _ _ _ _ tree line first
    intro value mem
    unfold valuesAt at mem
    dsimp only at mem
    split at mem
    · rcases mem_cons.mp mem with here | mem
      · have stored := (typed_built tree line).setIniValue (@IniTree.built casing declared _ _ _ _ tree line).1
          (typed_built tree line) first
        rw [here]
        exact stored.storeLines next later
      · exact ih next later value mem
    · exact ih next later value mem

theorem kept_storeLines (tree : IniTree base heap root lines) {more : List IniSetting}
    (some_paths : ∀ line ∈ more, line.path ≠ [])
    (fits : ∀ line ∈ more, line.path = path ∨ Apart line.path path) {seen : List Held}
    (typed : ∀ value ∈ seen, Typed heap value) (kept : seen = [] ∨ KeepsValues heap (.object root) path seen) :
    seen ++ valuesAt casing declared root path heap more = [] ∨
      KeepsValues (more.foldl (JsHeap.storeLine casing declared root) heap) (.object root) path
        (seen ++ valuesAt casing declared root path heap more) := by
  induction more generalizing heap lines seen with
  | nil =>
    unfold valuesAt
    rwa [append_nil]
  | cons line more ih =>
    obtain ⟨first, later⟩ := forall_mem_cons.mp some_paths
    obtain ⟨fit, fits⟩ := forall_mem_cons.mp fits
    obtain ⟨built, leaf, below⟩ := @IniTree.built casing declared _ _ _ _ tree line
    have made := build_made (line.value casing declared) heap tree.sound
    have new := @typed_built casing declared _ _ _ _ tree line
    have typed' : ∀ value ∈ seen, Typed (build (line.value casing declared) heap).2 value :=
      fun value mem => (typed value mem).grow made.grown
    have kept' : seen = [] ∨
        KeepsValues (build (line.value casing declared) heap).2 (.object root) path seen :=
      kept.imp_right fun kept => kept.grow typed tree made.grown
    have next := @IniTree.storeLine casing declared _ _ _ _ tree line first
    unfold valuesAt
    rw [foldl_cons]
    dsimp only
    rcases fit with same | apart
    · rw [if_pos same, append_cons]
      apply ih next later fits
      · intro value mem
        rcases mem_append.mp mem with old | last
        · exact (typed value old).storeLine tree first
        · rw [mem_singleton.mp last]
          exact new.setIniValue built new first
      · right
        rw [← same] at kept' ⊢
        exact kept_setIniValue built first typed' kept' new
    · have different : line.path ≠ path := by
        intro same
        rw [same] at apart
        exact apart.1 (prefix_refl _)
      rw [if_neg different]
      apply ih next later fits fun value mem => (typed value mem).storeLine tree first
      rcases kept' with none_left | kept'
      · exact .inl none_left
      · right
        obtain ⟨grown, item, writes, extends', tree', _, _⟩ := setIniValue_writes built new line.path
        have stored : JsHeap.storeLine casing declared root heap line = grown.writePath root line.path item := writes
        rw [stored]
        exact (kept'.grow typed' built extends').write (fun value mem => (typed' value mem).grow extends')
          tree' apart item

structure OffTree (heap : JsHeap) (root ref : Nat) : Prop where
  old : ref < heap.size
  off : ∀ path, heap.settings? (heap.readPath (.object root) path) ≠ some ref

theorem OffTree.grow {later : JsHeap} {ref : Nat} (off : OffTree heap root ref)
    (tree : IniTree base heap root lines) (grown : heap.Extends later) :
    OffTree later root ref ∧ later.object ref = heap.object ref := by
  refine ⟨⟨Nat.lt_of_lt_of_le off.old grown.size, ?_⟩, grown.kept ref off.old⟩
  intro path
  rw [grown.readPath_eq tree.sound tree.below_root,
    grown.settings?_eq (below_readPath tree.sound tree.below_root path)]
  exact off.off path

theorem OffTree.setIniValue {value : Held} {ref : Nat} (off : OffTree heap root ref)
    (tree : IniTree base heap root lines) (new : Typed heap value) (some_path : path ≠ []) :
    OffTree (heap.setIniValue root path value) root ref ∧
      (heap.setIniValue root path value).object ref = heap.object ref := by
  obtain ⟨grown, item, writes, extends', tree', typed, _⟩ := setIniValue_writes tree new path
  obtain ⟨off', same⟩ := off.grow tree extends'
  have h := tree'.writable some_path
  obtain ⟨before, name, rest, held, w⟩ := h.written item
  have elsewhere : ref ≠ (grown.place root path).1 := fun here => off'.off before (here ▸ w.leads)
  rw [writes]
  refine ⟨⟨Nat.lt_of_lt_of_le off'.old w.writes.size, ?_⟩, ?_⟩
  · intro other leads
    rcases leads_after h (tree'.metOnce path other) typed.leaf typed.below w leads with old | ⟨_, _, new, _⟩
    · exact off'.off other old
    · have small := off'.old
      omega
  · rw [w.writes.others ref off'.old elsewhere, same]

theorem OffTree.storeLines {ref : Nat} (off : OffTree heap root ref) (tree : IniTree base heap root lines)
    {more : List IniSetting} (some_paths : ∀ line ∈ more, line.path ≠ []) :
    (more.foldl (JsHeap.storeLine casing declared root) heap).object ref = heap.object ref := by
  induction more generalizing heap lines with
  | nil => rfl
  | cons line more ih =>
    obtain ⟨first, later⟩ := forall_mem_cons.mp some_paths
    have made := build_made (line.value casing declared) heap tree.sound
    obtain ⟨off', same⟩ := off.grow tree made.grown
    obtain ⟨stored, same'⟩ := off'.setIniValue (@IniTree.built casing declared _ _ _ _ tree line).1
      (typed_built tree line) first
    have rest := ih stored (tree.storeLine first) later
    exact rest.trans (same'.trans same)

theorem value_stays (tree : IniTree base heap root lines) {line : IniSetting} {more : List IniSetting}
    (some_paths : ∀ other ∈ line :: more, other.path ≠ []) {ref : Nat}
    (inside : (build (line.value casing declared) heap).2.Reaches (build (line.value casing declared) heap).1 ref) :
    ((line :: more).foldl (JsHeap.storeLine casing declared root) heap).object ref =
      (build (line.value casing declared) heap).2.object ref := by
  obtain ⟨first, later⟩ := forall_mem_cons.mp some_paths
  have made := build_made (line.value casing declared) heap tree.sound
  obtain ⟨built, leaf, below⟩ := @IniTree.built casing declared _ _ _ _ tree line
  obtain ⟨from_size, below_ref⟩ := made.reaches inside
  have off : OffTree (build (line.value casing declared) heap).2 root ref := by
    refine ⟨below_ref, ?_⟩
    intro path leads
    rw [made.grown.readPath_eq tree.sound tree.below_root,
      made.grown.settings?_eq (below_readPath tree.sound tree.below_root path)] at leads
    have old := below_readPath tree.sound tree.below_root path
    rw [settings?_some leads] at old
    exact absurd (of_decide_eq_true old) (Nat.not_lt_of_le from_size)
  obtain ⟨stored, same⟩ := off.setIniValue built (typed_built tree line) first
  exact (stored.storeLines (tree.storeLine first) later).trans same

theorem valuesAt_ne_nil {more : List IniSetting} {line : IniSetting} (mem : line ∈ more) :
    valuesAt casing declared root line.path heap more ≠ [] := by
  induction more generalizing heap with
  | nil => cases mem
  | cons first more ih =>
    unfold valuesAt
    dsimp only
    split
    · exact cons_ne_nil _ _
    next other =>
      rcases mem_cons.mp mem with here | later
      · exact absurd (congrArg IniSetting.path here.symm) other
      · exact ih later

/-- An accepted text keeps the values of all its lines exactly when no key of a line leads through the
key of another one. -/
theorem assignments_kept_iff (sound : base.Sound) {content : JsString} {source : Option JsString} {tree : Held}
    (accepted : (JsHeap.parseIni casing declared content source base).1 = .ok tree) :
    ((∀ line ∈ iniSettings casing content,
      KeepsValues (JsHeap.parseIni casing declared content source base).2 tree line.path
        (valuesAt casing declared base.size line.path (base.alloc (.record .empty)).2
          (iniSettings casing content))) ↔ Compatible (iniSettings casing content)) ∧
    ∀ before line after, iniSettings casing content = before ++ line :: after → ∀ heap,
      heap = before.foldl (storeLine casing declared base.size) (base.alloc (.record .empty)).2 →
        ∀ ref, (build (line.value casing declared) heap).2.Reaches
            (build (line.value casing declared) heap).1 ref →
          (JsHeap.parseIni casing declared content source base).2.object ref =
            (build (line.value casing declared) heap).2.object ref := by
  have some_paths : ∀ line ∈ iniSettings casing content, line.path ≠ [] := fun _ mem => readLines_path mem
  have start := iniTree_start sound
  rw [parseIni_tree accepted, parseIni_objects]
  generalize iniSettings casing content = lines at some_paths
  have typed := @typed_valuesAt casing declared _ _ _ _ start _ some_paths
  refine ⟨⟨?_, ?_⟩, ?_⟩
  · intro kept line mem other mem' leads
    by_contra different
    have record := (kept other mem').defined (typed other.path)
    obtain ⟨rest, whole⟩ := leads
    cases rest with
    | nil => exact different ((List.append_nil _).symm.trans whole)
    | cons part rest =>
      -- the longer key reads something, so that there is a record at the shorter one
      have no_record : (lines.foldl (storeLine casing declared base.size)
          (base.alloc (.record .empty)).2).settings? ((lines.foldl (storeLine casing declared base.size)
            (base.alloc (.record .empty)).2).readPath (.object base.size) line.path) = none := by
        rcases kept line mem with only | ⟨ref, items, reads, array, _⟩
        · exact (typed line.path _ (only ▸ List.mem_singleton_self _)).leaf
        · rw [reads, settings?_array array]
      apply record
      rw [← whole, readPath_append, JsHeap.readPath_leaf no_record]
  · intro compatible line mem
    have fits : ∀ other ∈ lines, other.path = line.path ∨ Apart other.path line.path := by
      intro other mem'
      by_cases same : other.path = line.path
      · exact .inl same
      · exact .inr ⟨fun leads => same (compatible other mem' line mem leads),
          fun leads => same (compatible line mem other mem' leads).symm⟩
    have kept := @kept_storeLines casing declared _ _ _ _ _ start lines some_paths fits []
      (fun _ mem => absurd mem List.not_mem_nil) (.inl rfl)
    exact kept.resolve_left (valuesAt_ne_nil mem)
  · intro before line after whole heap reached ref inside
    rw [whole] at some_paths ⊢
    have now := @IniTree.storeLines casing declared _ _ _ _ start before
      fun other mem => some_paths other (List.mem_append_left _ mem)
    rw [← reached] at now
    rw [List.foldl_append, ← reached]
    exact value_stays now (fun other mem => some_paths other (List.mem_append_right _ mem)) inside

end runs

/-- `a = x` and `a = y` give the list of both. -/
theorem repeated_key_kept :
    KeepsValues (JsHeap.parseIni asciiCasing (fun _ => none) (js "a = x\na = y") none programStart).2
      (.object 1) [js "a"] [.string (js "x"), .string (js "y")] := by
  have lines : iniSettings asciiCasing (js "a = x\na = y") = [⟨[js "a"], js " x"⟩, ⟨[js "a"], js " y"⟩] :=
    settings_eq (by decide)
  have kept := (@assignments_kept_iff asciiCasing (fun _ => none) _ programStart_sound (js "a = x\na = y") none
    (.object 1) (parseIni_accepted (by decide) _ _)).1
  rw [lines] at kept
  refine kept.mpr ?_ ⟨[js "a"], js " x"⟩ List.mem_cons_self
  intro line mem other mem' _
  have both : ∀ line ∈ [(⟨[js "a"], js " x"⟩ : IniSetting), ⟨[js "a"], js " y"⟩], line.path = [js "a"] := by
    simp
  rw [both line mem, both other mem']

/-- `a.b = y` replaces what `a = x` stored. -/
theorem section_replaces_value :
    (JsHeap.parseIni asciiCasing (fun _ => none) (js "a = x\na.b = y") none programStart).1 = .ok (.object 1) ∧
    valuesAt asciiCasing (fun _ => none) 1 [js "a"] (programStart.alloc (.record .empty)).2
      (iniSettings asciiCasing (js "a = x\na.b = y")) = [.string (js "x")] ∧
    (JsHeap.parseIni asciiCasing (fun _ => none) (js "a = x\na.b = y") none programStart).2.readPath (.object 1)
      [js "a"] = .object 2 ∧
    (JsHeap.parseIni asciiCasing (fun _ => none) (js "a = x\na.b = y") none programStart).2.object 2 =
      .record (Properties.empty.set (js "b") (.string (js "y"))) ∧
    ¬ KeepsValues (JsHeap.parseIni asciiCasing (fun _ => none) (js "a = x\na.b = y") none programStart).2
      (.object 1) [js "a"] [.string (js "x")] := by
  have lines : iniSettings asciiCasing (js "a = x\na.b = y") =
      [⟨[js "a"], js " x"⟩, ⟨[js "a", js "b"], js " y"⟩] :=
    settings_eq (by decide)
  rw [parseIni_objects, lines]
  have reads : ([⟨[js "a"], js " x"⟩, ⟨[js "a", js "b"], js " y"⟩].foldl
      (storeLine asciiCasing (fun _ => none) programStart.size)
        (programStart.alloc (.record .empty)).2).readPath (.object 1) [js "a"] = .object 2 := rfl
  have record : ([⟨[js "a"], js " x"⟩, ⟨[js "a", js "b"], js " y"⟩].foldl
      (storeLine asciiCasing (fun _ => none) programStart.size)
        (programStart.alloc (.record .empty)).2).object 2 =
          .record (Properties.empty.set (js "b") (.string (js "y"))) := rfl
  refine ⟨parseIni_accepted (by decide) _ _, rfl, reads, record, ?_⟩
  rintro (only | ⟨ref, items, list, array, _⟩)
  · rw [reads] at only
    cases only
  · rw [reads] at list
    cases list
    rw [record] at array
    cases array

end ForgeDeno
