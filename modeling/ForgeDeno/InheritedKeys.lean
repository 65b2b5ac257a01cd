import ForgeDeno.IniObjects

namespace ForgeDeno

open JsHeap List Option

def IsSection (lines : List IniSetting) (path : List JsString) : Prop :=
  path = [] ∨ ∃ before line after, lines = before ++ line :: after ∧ path <+: line.path ∧
    path ≠ line.path ∧ ∀ later ∈ after, Apart later.path path

def Unassigned (lines : List IniSetting) (path : List JsString) : Prop := ∀ line ∈ lines, line.path ≠ path

def Untouched (lines : List IniSetting) (path : List JsString) : Prop :=
  ∀ line ∈ lines, ¬ path <+: line.path

/-- The key asks no section of the text for a method that every object inherits. -/
def NoMethod (lines : List IniSetting) (path : List JsString) : Prop :=
  ∀ start name, path = start ++ [name] → IsSection lines start → name ∉ objectNames

/-- The path is no section, and no name that every object inherits inside of one. -/
def ReadsNothing (lines : List IniSetting) (path : List JsString) : Prop :=
  ¬ IsSection lines path ∧ NoMethod lines path

structure IniTree (base heap : JsHeap) (root : Nat) (lines : List IniSetting) : Prop
    extends SettingsTree heap root where
  grown : base.Extends heap
  fresh : ∀ path ref, heap.settings? (heap.readPath (.object root) path) = some ref → base.size ≤ ref
  sections : ∀ path, (heap.settings? (heap.readPath (.object root) path)).isSome ↔ IsSection lines path
  unassigned : ∀ start name, Unassigned lines (start ++ [name]) → ¬ IsSection lines (start ++ [name]) →
    IsSection lines start → heap.readPath (.object root) (start ++ [name]) = inherited name

section sections

variable {lines : List IniSetting} {line : IniSetting} {path : List JsString}

theorem isSection_snoc : IsSection (lines ++ [line]) path ↔ path = [] ∨ (path <+: line.path ∧ path ≠ line.path) ∨
      (Apart line.path path ∧ IsSection lines path) := by
  constructor
  · intro h
    rcases h with empty | ⟨before, last, after, whole, goes, differs, apart⟩
    · exact .inl empty
    · rcases eq_nil_or_concat after with none_left | ⟨front, end_line, shape⟩
      · rw [none_left] at whole
        obtain ⟨_, same⟩ := append_inj' whole rfl
        rw [(List.cons.inj same).1]
        exact .inr (.inl ⟨goes, differs⟩)
      · have split : lines ++ [line] = (before ++ last :: front) ++ [end_line] := by
          rw [whole, shape]
          simp
        obtain ⟨rest, same⟩ := append_inj' split rfl
        have line_apart := apart end_line (by rw [shape]; simp)
        rw [(List.cons.inj same).1]
        refine .inr (.inr ⟨line_apart, .inr ⟨before, last, front, rest, goes, differs, ?_⟩⟩)
        intro later mem
        exact apart later (by rw [shape]; simp [mem])
  · intro h
    rcases h with empty | ⟨goes, differs⟩ |
      ⟨line_apart, empty | ⟨before, last, after, whole, goes, differs, apart⟩⟩
    · exact .inl empty
    · exact .inr ⟨lines, line, [], rfl, goes, differs, nofun⟩
    · exact .inl empty
    · refine .inr ⟨before, last, after ++ [line], by rw [whole]; simp, goes, differs, ?_⟩
      intro later mem
      rcases mem_append.mp mem with old | new
      · exact apart later old
      · rw [mem_singleton.mp new]
        exact line_apart

theorem isSection_nil : IsSection [] path ↔ path = [] := by
  constructor
  · rintro (empty | ⟨before, line, after, whole, _⟩)
    · exact empty
    · exact absurd whole.symm (append_ne_nil_of_right_ne_nil _ (cons_ne_nil _ _))
  · exact .inl

theorem noMethod_name {name : JsString} (no_method : name ∉ objectNames) : NoMethod lines [name] := by
  intro start last whole _
  cases start with
  | nil => exact (List.cons.inj whole).1 ▸ no_method
  | cons part start =>
    have lengths := congrArg length whole
    simp at lengths

theorem unassigned_snoc : Unassigned (lines ++ [line]) path ↔ Unassigned lines path ∧ line.path ≠ path := by
  unfold Unassigned
  rw [forall_mem_append, forall_mem_singleton]

theorem Untouched.unassigned (untouched : Untouched lines path) : Unassigned lines path :=
  fun line mem same => untouched line mem (same ▸ prefix_refl _)

theorem Untouched.readsNothing_iff (untouched : Untouched lines path) (some_path : path ≠ []) :
    ReadsNothing lines path ↔ NoMethod lines path := by
  refine and_iff_right ?_
  rintro (empty | ⟨before, line, after, whole, goes, _⟩)
  · exact some_path empty
  · exact untouched line (by rw [whole]; simp) goes

theorem path_cases (path other : List JsString) :
    (∃ part rest, path = other ++ part :: rest) ∨ path <+: other ∨ Apart path other := by
  by_cases start : other <+: path
  · obtain ⟨rest, whole⟩ := start
    cases rest with
    | nil =>
      rw [append_nil] at whole
      exact .inr (.inl (whole ▸ prefix_refl _))
    | cons part rest => exact .inl ⟨part, rest, whole.symm⟩
  · by_cases through : path <+: other
    · exact .inr (.inl through)
    · exact .inr (.inr ⟨through, start⟩)

end sections

section trees

variable {base heap later : JsHeap} {root : Nat} {lines : List IniSetting} {path : List JsString}
  {value : Held}

theorem IniTree.reads_undefined_iff (tree : IniTree base heap root lines) (unassigned : Unassigned lines path) :
    heap.readPath (.object root) path = .undefined ↔ ReadsNothing lines path := by
  by_cases section_there : IsSection lines path
  · obtain ⟨ref, leads⟩ := isSome_iff_exists.mp ((tree.sections path).mpr section_there)
    refine iff_of_false ?_ fun nothing => nothing.1 section_there
    rw [settings?_some leads]
    exact nofun
  · rcases eq_nil_or_concat path with empty | ⟨start, name, whole⟩
    · exact absurd (.inl empty) section_there
    · rw [concat_eq_append] at whole
      by_cases inside : IsSection lines start
      · have reads := tree.unassigned start name
        rw [← whole] at reads
        rw [reads unassigned section_there inside, inherited_eq_undefined]
        constructor
        · intro no_method
          refine ⟨section_there, ?_⟩
          intro start' name' whole' _
          rw [whole] at whole'
          obtain ⟨_, same⟩ := append_inj' whole' rfl
          exact (List.cons.inj same).1 ▸ no_method
        · exact fun nothing => nothing.2 start name whole inside
      · have missing : heap.settings? (heap.readPath (.object root) start) = none := by
          cases found : heap.settings? (heap.readPath (.object root) start) with
          | none => rfl
          | some ref => exact absurd ((tree.sections start).mp (isSome_of_eq_some found)) inside
        have undefined : heap.readPath (.object root) path = .undefined := by
          rw [whole, readPath_append, JsHeap.readPath_leaf missing]
        refine iff_of_true undefined ⟨section_there, ?_⟩
        intro start' name' whole' there
        rw [whole] at whole'
        obtain ⟨same, _⟩ := append_inj' whole' rfl
        exact absurd (same ▸ there) inside

theorem IniTree.grow (tree : IniTree base heap root lines) (grown : heap.Extends later)
    (sound : later.Sound) : IniTree base later root lines := by
  have below := tree.below_root
  have reads := fun path => grown.readPath_eq tree.sound below path
  have leads : ∀ path, later.settings? (later.readPath (.object root) path) =
      heap.settings? (heap.readPath (.object root) path) := by
    intro path
    rw [reads, grown.settings?_eq (below_readPath tree.sound below path)]
  refine ⟨⟨⟨sound, Nat.lt_of_lt_of_le tree.present grown.size, ?_, ?_⟩, ?_⟩, tree.grown.trans grown, ?_, ?_, ?_⟩
  · rw [grown.settings?_eq below, tree.object]
  · intro path ref led
    rw [leads] at led
    have old := below_readPath tree.sound below path
    rw [settings?_some led] at old
    rw [grown.kept ref (of_decide_eq_true old)]
    exact tree.plain path ref led
  · intro path path' ref led led'
    rw [leads] at led led'
    exact tree.one_way path path' ref led led'
  · intro path ref led
    rw [leads] at led
    exact tree.fresh path ref led
  · intro path
    rw [leads, tree.sections]
  · intro start name
    rw [reads]
    exact tree.unassigned start name

theorem leads_written {other : List JsString} (h : heap.Writable root path)
    (once : heap.MetOnce root path other) (leaf : heap.settings? value = none)
    (below : value.below heap.size = true) : ((heap.writePath root path value).settings?
        ((heap.writePath root path value).readPath (.object root) other)).isSome ↔
      (∃ part rest, path = other ++ part :: rest) ∨
        (Apart path other ∧ (heap.settings? (heap.readPath (.object root) other)).isSome) := by
  obtain ⟨before, name, rest, item, w⟩ := h.written value
  rcases path_cases path other with ⟨part, more, whole⟩ | through | apart
  · have led : ((heap.writePath root path value).settings?
        ((heap.writePath root path value).readPath (.object root) other)).isSome := by
      rcases w.leads_start h once.own whole with ⟨_, ref, _, led⟩ | ⟨_, _, led, _⟩
      · exact isSome_of_eq_some led
      · exact isSome_of_eq_some led
    exact iff_of_true led (.inl ⟨part, more, whole⟩)
  · obtain ⟨more, whole⟩ := through
    rw [← whole, h.reads_value once.own, settings?_leaf ((w.writes.settings?_eq below).trans leaf)]
    apply iff_of_false nofun
    rintro (⟨part, rest, longer⟩ | ⟨apart, _⟩)
    · have lengths := congrArg length longer
      simp only [length_append, length_cons] at lengths
      omega
    · exact apart.1 (prefix_append _ _)
  · have aside : ¬ ∃ part rest, path = other ++ part :: rest :=
      fun ⟨part, rest, whole⟩ => apart.2 (whole ▸ prefix_append _ _)
    by_cases created : heap.Created root path other
    · obtain ⟨start, last, whole, start_path, missing⟩ := created
      have both := h.reads_created once.own value (whole ▸ apart) start_path missing
      rw [whole, both.1, both.2, settings?_inherited]
      apply iff_of_false nofun
      rintro (inside | ⟨_, led⟩)
      · exact aside (whole ▸ inside)
      · cases led
    · rw [h.reads_apart once value apart created,
        w.writes.settings?_eq (below_readPath h.sound h.below_root other)]
      exact ⟨fun led => .inr ⟨apart, led⟩, fun either => (either.resolve_left aside).2⟩

theorem isSection_after {line : IniSetting} (some_path : line.path ≠ []) (path : List JsString) :
    IsSection (lines ++ [line]) path ↔ (∃ part rest, line.path = path ++ part :: rest) ∨
      (Apart line.path path ∧ IsSection lines path) := by
  rw [isSection_snoc]
  constructor
  · rintro (empty | ⟨goes, differs⟩ | apart)
    · obtain ⟨part, rest, whole⟩ := exists_cons_of_ne_nil some_path
      exact .inl ⟨part, rest, by rw [empty, whole]; rfl⟩
    · obtain ⟨rest, whole⟩ := goes
      cases rest with
      | nil => exact absurd ((append_nil path).symm.trans whole) differs
      | cons part rest => exact .inl ⟨part, rest, whole.symm⟩
    · exact .inr apart
  · rintro (⟨part, rest, whole⟩ | apart)
    · refine .inr (.inl ⟨whole ▸ prefix_append _ _, ?_⟩)
      intro same
      have lengths := congrArg length whole
      rw [← same, length_append, length_cons] at lengths
      omega
    · exact .inr (.inr apart)

theorem IniTree.write {line : IniSetting} (tree : IniTree base heap root lines)
    (some_path : line.path ≠ []) (leaf : heap.settings? value = none) (below : value.below heap.size = true) :
    IniTree base (heap.writePath root line.path value) root (lines ++ [line]) := by
  have h := tree.writable some_path
  have once := fun other => tree.metOnce line.path other
  obtain ⟨before, first, rest, item, w⟩ := h.written value
  refine ⟨tree.writePath some_path leaf below, ⟨?_, ?_⟩, ?_, ?_, ?_⟩
  · exact Nat.le_trans tree.grown.size w.writes.size
  · intro ref old
    have target := tree.fresh before _ w.leads
    rw [w.writes.others ref (Nat.lt_of_lt_of_le old tree.grown.size) (by omega), tree.grown.kept ref old]
  · intro path ref leads
    rcases leads_after h (once path) leaf below w leads with led | ⟨_, _, same, _⟩
    · exact tree.fresh path ref led
    · have larger := tree.grown.size
      omega
  · intro path
    rw [leads_written h (once path) leaf below, isSection_after some_path, tree.sections]
  · intro start name unassigned no_section start_section
    rw [isSection_after some_path] at no_section start_section
    obtain ⟨earlier, differs⟩ := unassigned_snoc.mp unassigned
    have apart : Apart line.path (start ++ [name]) := by
      rcases path_cases line.path (start ++ [name]) with inside | through | apart
      · exact absurd (.inl inside) no_section
      · -- the line gives a value at the start or before it
        rcases prefix_concat_iff.mp through with same | shorter
        · exact absurd same differs
        · rcases start_section with ⟨part, more, whole⟩ | ⟨apart, _⟩
          · have lengths := shorter.length_le
            rw [whole, length_append, length_cons] at lengths
            omega
          · exact absurd shorter apart.1
      · exact apart
    by_cases created : heap.Created root line.path (start ++ [name])
    · obtain ⟨start', name', whole, start_path, missing⟩ := created
      rw [whole] at apart ⊢
      rw [(List.cons.inj (append_inj' whole rfl).2).1]
      exact (h.reads_created (once _) value apart start_path missing).2
    · rw [h.reads_apart (once _) value apart created]
      apply tree.unassigned start name earlier fun there => no_section (.inr ⟨apart, there⟩)
      rcases start_section with ⟨part, more, whole⟩ | ⟨_, there⟩
      · -- the write found a record at the start, or it would have created one
        rw [← tree.sections]
        cases found : heap.settings? (heap.readPath (.object root) start) with
        | some ref => rfl
        | none =>
          exact absurd ⟨start, name, rfl, whole ▸ prefix_append _ _, found⟩ created
      · exact there

theorem asList_below (sound : heap.Sound) (below : value.below heap.size = true) :
    ∀ item ∈ heap.asList value, ∃ held, item = some held ∧ held.below heap.size = true := by
  intro item mem
  cases value with
  | object ref =>
    unfold JsHeap.asList at mem
    dsimp only at mem
    split at mem
    next items array =>
      obtain ⟨inner, inside, same⟩ := mem_map.mp mem
      refine ⟨_, same.symm, ?_⟩
      cases inner with
      | none => rfl
      | some held => exact sound.closed ref (of_decide_eq_true below) held (mem_array array inside)
    next => exact ⟨_, mem_singleton.mp mem, below⟩
  | _ => exact ⟨_, mem_singleton.mp mem, rfl⟩

theorem alloc_list {existing : Held} (sound : heap.Sound) (below : value.below heap.size = true)
    (there : existing.below heap.size = true) :
    (heap.alloc (.array (heap.asList existing ++ heap.asList value))).2.Sound := by
  apply sound.alloc
  intro item mem
  obtain ⟨held, inside, same⟩ := mem_filterMap.mp mem
  have listed : ∃ held', held = some held' ∧ held'.below heap.size = true := by
    rcases mem_append.mp inside with old | new
    · exact asList_below sound there held old
    · exact asList_below sound below held new
  obtain ⟨held', present, small⟩ := listed
  cases present.symm.trans same
  exact small

theorem IniTree.setIniValue {line : IniSetting} (tree : IniTree base heap root lines)
    (some_path : line.path ≠ []) (leaf : heap.settings? value = none) (below : value.below heap.size = true) :
    IniTree base (heap.setIniValue root line.path value) root (lines ++ [line]) := by
  unfold JsHeap.setIniValue readExisting
  split
  · exact tree.write some_path leaf below
  next existing _ =>
    have there := below_readPath tree.sound tree.below_root line.path
    have list := tree.grow (extends_alloc _ _) (alloc_list tree.sound below there)
    exact list.write some_path (settings?_array (alloc_object _ _)) (below_alloc _ _)

end trees

section runs

variable {casing : Casing} {declared : JsString → Option ConfigValue} {base heap : JsHeap} {root : Nat}
  {lines : List IniSetting}

theorem IniTree.built (tree : IniTree base heap root lines) (line : IniSetting) :
    IniTree base (build (line.value casing declared) heap).2 root lines ∧
      (build (line.value casing declared) heap).2.settings? (build (line.value casing declared) heap).1 = none ∧
      (build (line.value casing declared) heap).1.below (build (line.value casing declared) heap).2.size = true := by
  have made := build_made (line.value casing declared) heap tree.sound
  exact ⟨tree.grow made.grown made.sound, build_leaf (parseIniValue_leaf line.raw _) heap, made.below⟩

theorem IniTree.storeLine (tree : IniTree base heap root lines) {line : IniSetting} (some_path : line.path ≠ []) :
    IniTree base (storeLine casing declared root heap line) root (lines ++ [line]) := by
  obtain ⟨built, leaf, below⟩ := @IniTree.built casing declared _ _ _ _ tree line
  exact built.setIniValue some_path leaf below

theorem IniTree.storeLines (tree : IniTree base heap root lines) {more : List IniSetting}
    (some_paths : ∀ line ∈ more, line.path ≠ []) :
    IniTree base (more.foldl (JsHeap.storeLine casing declared root) heap) root (lines ++ more) := by
  induction more generalizing heap lines with
  | nil => rwa [append_nil]
  | cons line more ih =>
    obtain ⟨first, later⟩ := forall_mem_cons.mp some_paths
    have next := ih (@IniTree.storeLine casing declared _ _ _ _ tree line first) later
    rwa [append_assoc] at next

theorem iniTree_start (sound : base.Sound) : IniTree base (base.alloc (.record .empty)).2 base.size [] := by
  have empty : (base.alloc (.record .empty)).2.object base.size = .record .empty := base.alloc_object _
  have grown := base.extends_alloc (.record .empty)
  have sound' : (base.alloc (.record .empty)).2.Sound := sound.alloc fun _ mem => absurd mem not_mem_nil
  have object := settings?_record empty
  have reads : ∀ part path, (base.alloc (.record .empty)).2.readPath (.object base.size) (part :: path) =
      (base.alloc (.record .empty)).2.readPath (inherited part) path := by
    intro part path
    have nothing : ((base.alloc (.record .empty)).2.object base.size).own part = none := by
      rw [empty]
      rfl
    rw [JsHeap.readPath_cons object, get_eq sound'.prototype, nothing, getD_none]
  have leads : ∀ path ref, (base.alloc (.record .empty)).2.settings?
      ((base.alloc (.record .empty)).2.readPath (.object base.size) path) = some ref →
        path = [] ∧ ref = base.size := by
    intro path ref led
    cases path with
    | nil => exact ⟨rfl, (some.inj (object.symm.trans led)).symm⟩
    | cons part path =>
      rw [reads, settings?_leaf (settings?_inherited part)] at led
      cases led
  refine ⟨⟨⟨sound', Nat.lt_succ_self _, object, ?_⟩, ?_⟩, grown, ?_, ?_, ?_⟩
  · intro path ref led
    rw [(leads path ref led).2, empty]
    exact ⟨Nat.ne_of_gt sound.present, rfl⟩
  · intro path path' ref led led'
    rw [(leads path ref led).1, (leads path' ref led').1]
  · intro path ref led
    rw [(leads path ref led).2]
  · intro path
    rw [isSection_nil]
    constructor
    · intro some_ref
      obtain ⟨ref, led⟩ := isSome_iff_exists.mp some_ref
      exact (leads path ref led).1
    · intro none_left
      rw [none_left]
      exact isSome_of_eq_some object
  · intro start name _ _ there
    rw [isSection_nil.mp there, nil_append, reads]
    rfl

theorem IniTree.first_value (tree : IniTree base heap root lines) {line : IniSetting}
    (some_path : line.path ≠ []) (unassigned : Unassigned lines line.path) :
    (JsHeap.storeLine casing declared root heap line).readPath (.object root) line.path =
        (build (line.value casing declared) heap).1 ↔ ReadsNothing lines line.path := by
  obtain ⟨built, leaf, below⟩ := @IniTree.built casing declared _ _ _ _ tree line
  rw [← built.reads_undefined_iff unassigned]
  unfold JsHeap.storeLine JsHeap.setIniValue readExisting
  dsimp only
  generalize (build (line.value casing declared) heap).2 = now at built leaf below
  generalize (build (line.value casing declared) heap).1 = value at leaf below
  have reads : ∀ (grown : JsHeap) (held : Held), IniTree base grown root lines →
      (grown.writePath root line.path held).readPath (.object root) line.path = held := by
    intro grown held there
    have end_value := (there.writable some_path).reads_value (there.metOnce _ _) held []
    rwa [append_nil] at end_value
  split
  next undefined => exact iff_of_true (reads now value built) undefined
  next existing other =>
    have there := below_readPath built.sound built.below_root line.path
    have list := built.grow (extends_alloc _ _) (alloc_list built.sound below there)
    rw [reads _ _ list]
    refine iff_of_false ?_ other
    intro same
    rw [← same] at below
    exact Nat.lt_irrefl _ (of_decide_eq_true below)

/-- Reading a text changes no object that was there; a key without a line reads nothing, and the first
line of a key stores its value, exactly when the key asks no section for an inherited method. -/
theorem parse_keeps_objects (sound : base.Sound) (content : JsString) (source : Option JsString) :
    base.Extends (JsHeap.parseIni casing declared content source base).2 ∧
    ∀ tree, (JsHeap.parseIni casing declared content source base).1 = .ok tree →
      (∀ path, path ≠ [] → Untouched (iniSettings casing content) path →
        ((JsHeap.parseIni casing declared content source base).2.readPath tree path = .undefined ↔
          NoMethod (iniSettings casing content) path)) ∧
      ∀ before line after, iniSettings casing content = before ++ line :: after →
        Untouched before line.path → ∀ heap, heap = before.foldl
          (storeLine casing declared base.size) (base.alloc (.record .empty)).2 →
            ((storeLine casing declared base.size heap line).readPath tree line.path =
              (build (line.value casing declared) heap).1 ↔ NoMethod before line.path) := by
  have some_paths : ∀ line ∈ iniSettings casing content, line.path ≠ [] := fun _ mem => readLines_path mem
  have start := iniTree_start sound
  have last := @IniTree.storeLines casing declared _ _ _ _ start _ some_paths
  rw [← @parseIni_objects casing declared content source base, List.nil_append] at last
  refine ⟨last.grown, ?_⟩
  intro tree accepted
  rw [parseIni_tree accepted]
  refine ⟨?_, ?_⟩
  · intro path some_path untouched
    rw [last.reads_undefined_iff untouched.unassigned, untouched.readsNothing_iff some_path]
  intro before line after whole untouched heap reached
  rw [whole] at some_paths
  have now := @IniTree.storeLines casing declared _ _ _ _ start before
    fun other mem => some_paths other (List.mem_append_left _ mem)
  rw [← reached, List.nil_append] at now
  have some_path := some_paths line (by simp)
  rw [now.first_value some_path untouched.unassigned, untouched.readsNothing_iff some_path]

end runs

def programStart : JsHeap := ⟨1, fun _ => .record objectPrototype⟩

theorem programStart_sound : programStart.Sound := by
  refine ⟨?_, rfl, Nat.one_pos⟩
  intro ref _ item mem
  rw [objectPrototype_items mem]
  rfl

theorem settings_eq {settings lines : List IniSetting}
    (same : settings.map (fun line => (line.path, line.raw)) = lines.map fun line => (line.path, line.raw)) :
    settings = lines := by
  refine map_injective_iff.mpr ?_ same
  intro line line' fields
  cases line
  cases line'
  cases fields
  rfl

/-- `a = x` stores its value and leaves the key `b` without one. -/
theorem plain_key_stored :
    programStart.Extends (JsHeap.parseIni asciiCasing (fun _ => none) (js "a = x") none programStart).2 ∧
    (JsHeap.parseIni asciiCasing (fun _ => none) (js "a = x") none programStart).2.readPath (.object 1)
      [js "b"] = .undefined ∧
    (storeLine asciiCasing (fun _ => none) 1 (programStart.alloc (.record .empty)).2
      ⟨[js "a"], js " x"⟩).readPath (.object 1) [js "a"] = .string (js "x") := by
  have one_line : iniSettings asciiCasing (js "a = x") = [⟨[js "a"], js " x"⟩] :=
    settings_eq (by decide)
  obtain ⟨kept, reads⟩ := @parse_keeps_objects asciiCasing (fun _ => none) _ programStart_sound (js "a = x") none
  obtain ⟨nothing, first⟩ := reads (.object 1) (parseIni_accepted (by decide) _ _)
  rw [one_line] at nothing first
  refine ⟨kept, ?_, ?_⟩
  · refine (nothing [js "b"] (List.cons_ne_nil _ _) ?_).mpr (noMethod_name (by decide))
    intro line mem
    rw [List.mem_singleton.mp mem]
    decide
  · exact (first [] _ [] rfl (fun _ mem => absurd mem List.not_mem_nil) _ rfl).mpr (noMethod_name (by decide))

/-- A text that assigns `constructor` once makes a list of it, and an empty text reads a function there. -/
theorem constructor_reads_function :
    (JsHeap.parseIni asciiCasing (fun _ => none) (js "") none programStart).1 = .ok (.object 1) ∧
    (JsHeap.parseIni asciiCasing (fun _ => none) (js "") none programStart).2.readPath (.object 1)
      [js "constructor"] = .unsupported (js "function") ∧
    (JsHeap.parseIni asciiCasing (fun _ => none) (js "constructor = x") none programStart).1 =
      .ok (.object 1) ∧
    ∃ ref, (JsHeap.parseIni asciiCasing (fun _ => none) (js "constructor = x") none programStart).2.readPath
        (.object 1) [js "constructor"] = .object ref ∧
      (JsHeap.parseIni asciiCasing (fun _ => none) (js "constructor = x") none programStart).2.object ref =
        .array [some (.unsupported (js "function")), some (.string (js "x"))] := by
  have no_line : iniSettings asciiCasing (js "") = [] := settings_eq (by decide)
  have one_line : iniSettings asciiCasing (js "constructor = x") = [⟨[js "constructor"], js " x"⟩] :=
    settings_eq (by decide)
  refine ⟨parseIni_accepted (by decide) _ _, ?_, parseIni_accepted (by decide) _ _, 2, ?_, ?_⟩
  · rw [parseIni_objects, no_line]
    rfl
  · rw [parseIni_objects, one_line]
    rfl
  · rw [parseIni_objects, one_line]
    rfl

end ForgeDeno
