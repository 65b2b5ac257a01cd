import ForgeDeno.ConfigTrees
import ForgeDeno.IniLines

namespace ForgeDeno

open List

def Apart (path other : List JsString) : Prop := ¬ path <+: other ∧ ¬ other <+: path

section writes

variable {settings : Settings} {path other : List JsString} {value : ConfigValue}

theorem readPath_cons (part : JsString) (path : List JsString) : readPath (.record settings) (part :: path) =
      (lookupMember settings part).bind fun child => readPath child path := rfl

theorem readPath_leaf {node : ConfigValue} (leaf : node.isRecord = false) (part : JsString)
    (path : List JsString) : readPath node (part :: path) = none := by
  cases node with
  | record members => cases leaf
  | _ => rfl

theorem readPath_empty (some_path : path ≠ []) : readPath (.record []) path = none := by
  cases path with
  | nil => exact absurd rfl some_path
  | cons part path => rfl

theorem readPath_writePath (some_path : path ≠ []) (value : ConfigValue) :
    readPath (.record (writePath settings path value)) path = some value := by
  induction path generalizing settings with
  | nil => exact absurd rfl some_path
  | cons part path ih =>
    cases path with
    | nil =>
      unfold writePath
      rw [readPath_cons, lookupMember_setMember, if_pos rfl]
      rfl
    | cons next path =>
      unfold writePath
      dsimp only
      rw [readPath_cons, lookupMember_setMember, if_pos rfl, Option.bind_some, ih (cons_ne_nil _ _)]

theorem readPath_writePath_apart (apart : Apart path other) (settings : Settings) (value : ConfigValue) :
    readPath (.record (writePath settings path value)) other = readPath (.record settings) other := by
  induction path generalizing other settings with
  | nil => exact absurd nil_prefix apart.1
  | cons part path ih =>
    cases other with
    | nil => exact absurd nil_prefix apart.2
    | cons first other =>
      by_cases same : first = part
      · subst same
        cases path with
        | nil => exact absurd (prefix_cons_inj first |>.mpr nil_prefix) apart.1
        | cons next path =>
          have inside : Apart (next :: path) other :=
            ⟨fun leads => apart.1 ((prefix_cons_inj first).mpr leads),
              fun leads => apart.2 ((prefix_cons_inj first).mpr leads)⟩
          unfold writePath
          dsimp only
          rw [readPath_cons, readPath_cons, lookupMember_setMember, if_pos rfl, Option.bind_some, ih inside]
          have some_other : other ≠ [] := fun none_left => inside.2 (none_left ▸ nil_prefix)
          -- a value that is no record gives way to an empty one: the other path finds nothing in both
          have nothing : ∀ child : ConfigValue, child.isRecord = false → readPath child other = none := by
            intro child leaf
            cases other with
            | nil => exact absurd rfl some_other
            | cons first other => exact readPath_leaf leaf first other
          cases lookupMember settings first with
          | none => exact readPath_empty some_other
          | some child =>
            rw [Option.bind_some]
            cases child with
            | record members => rfl
            | _ => exact (readPath_empty some_other).trans (nothing _ rfl).symm
      · cases path with
        | nil =>
          unfold writePath
          rw [readPath_cons, readPath_cons, lookupMember_setMember, if_neg same]
        | cons next path =>
          unfold writePath
          dsimp only
          rw [readPath_cons, readPath_cons, lookupMember_setMember, if_neg same]

theorem readPath_setIniValue_apart (apart : Apart path other) (settings : Settings) (value : ConfigValue) :
    readPath (.record (setIniValue settings path value)) other = readPath (.record settings) other := by
  unfold setIniValue
  split
  · exact readPath_writePath_apart apart settings value
  · exact readPath_writePath_apart apart settings _

theorem readPath_setIniValue (some_path : path ≠ [])
    (absent : readPath (.record settings) path = none) (value : ConfigValue) :
    readPath (.record (setIniValue settings path value)) path = some value := by
  unfold setIniValue
  rw [absent]
  exact readPath_writePath some_path value

end writes

section lines

variable {casing : Casing} {declared : JsString → Option ConfigValue}

theorem readPath_stores_apart {lines : List IniSetting} {path : List JsString}
    (apart : ∀ line ∈ lines, Apart line.path path) (settings : Settings) :
    readPath (.record (lines.foldl (IniSetting.store casing declared) settings)) path =
      readPath (.record settings) path := by
  induction lines generalizing settings with
  | nil => rfl
  | cons line lines ih =>
    obtain ⟨first, later⟩ := forall_mem_cons.mp apart
    rw [foldl_cons, ih later]
    exact readPath_setIniValue_apart first settings _

theorem readPath_stores_alone {before after : List IniSetting} {line : IniSetting}
    (some_path : line.path ≠ []) (apart : ∀ other ∈ before ++ after, Apart other.path line.path) :
    readPath (.record ((before ++ line :: after).foldl (IniSetting.store casing declared) [])) line.path =
      some (line.value casing declared) := by
  have earlier := @readPath_stores_apart casing declared _ _
    (fun other mem => apart other (mem_append_left _ mem)) []
  rw [readPath_empty some_path] at earlier
  rw [foldl_append, foldl_cons,
    readPath_stores_apart fun other mem => apart other (mem_append_right _ mem)]
  exact readPath_setIniValue some_path earlier _

theorem readLines_path {lines : List JsString} {index : Nat} {path : List JsString} {line : IniSetting}
    (mem : line ∈ (readLines casing lines index path).1) : line.path ≠ [] := by
  induction lines generalizing index path with
  | nil => cases mem
  | cons text lines ih =>
    unfold readLines at mem
    split at mem
    next => exact ih mem
    next => exact ih mem
    next leaf raw reads =>
      rcases mem_cons.mp mem with rfl | later
      · exact append_ne_nil_of_right_ne_nil path (setting_of_readLine reads).1
      · exact ih later
    next => cases mem

end lines

end ForgeDeno
