import ForgeDeno.ConfigValues
import ForgeDeno.TextPieces

namespace ForgeDeno

open JsString List

section joining

variable {separator : UInt16}

theorem join_cons_cons (between part other : JsString) (parts : List JsString) :
    JsString.join between (part :: other :: parts) =
      part ++ between ++ JsString.join between (other :: parts) := rfl

theorem split_join {parts : List JsString} (some_part : parts ≠ []) (h : ∀ part ∈ parts, separator ∉ part) :
    (JsString.join [separator] parts).split separator = parts := by
  induction parts with
  | nil => exact absurd rfl some_part
  | cons part parts ih =>
    obtain ⟨here, later⟩ := forall_mem_cons.mp h
    cases parts with
    | nil => exact split_of_not_mem here
    | cons other parts =>
      rw [join_cons_cons, append_assoc, singleton_append, split_append here,
        ih (cons_ne_nil _ _) later]

theorem join_split (s : JsString) : JsString.join [separator] (s.split separator) = s := by
  induction s with
  | nil => rfl
  | cons u s ih =>
    rw [JsString.split]
    cases parts : JsString.split separator s with
    | nil => exact absurd parts (split_ne_nil separator s)
    | cons first others =>
      rw [parts] at ih
      by_cases same : u = separator
      · rw [if_pos same, join_cons_cons, ih, same]
        rfl
      · rw [if_neg same]
        cases others with
        | nil => exact congrArg (u :: ·) ih
        | cons other others =>
          rw [join_cons_cons] at ih ⊢
          rw [← ih]
          rfl

theorem mem_join {between : JsString} {parts : List JsString} {u : UInt16}
    (h : u ∈ JsString.join between parts) : u ∈ between ∨ ∃ part ∈ parts, u ∈ part := by
  induction parts with
  | nil => cases h
  | cons part parts ih =>
    cases parts with
    | nil => exact .inr ⟨part, mem_cons_self, h⟩
    | cons other parts =>
      rw [join_cons_cons, append_assoc] at h
      rcases mem_append.mp h with here | later
      · exact .inr ⟨part, mem_cons_self, here⟩
      · rcases mem_append.mp later with inside | later
        · exact .inl inside
        · rcases ih later with inside | ⟨found, mem, here⟩
          · exact .inl inside
          · exact .inr ⟨found, mem_cons_of_mem part mem, here⟩

end joining

section keys

variable {casing : Casing}

def keySegment (casing : Casing) (part : JsString) : JsString := casing.toLowerCase part.trim

theorem splitKey_eq (key : JsString) : splitKey casing key =
    ((key.split 0x2E).map (keySegment casing)).filter fun part => part ≠ [] := rfl

theorem splitKey_cons_blank {u : UInt16} (blank : isWhiteSpace u = true) (key : JsString) :
    splitKey casing (u :: key) = splitKey casing key := by
  have undotted : u ≠ 0x2E := by
    intro same
    rw [same] at blank
    cases blank
  rw [splitKey_eq, splitKey_eq, JsString.split, if_neg undotted]
  cases parts : JsString.split 0x2E key with
  | nil => exact absurd parts (split_ne_nil 0x2E key)
  | cons first others =>
    have same : keySegment casing (u :: first) = keySegment casing first := by
      unfold keySegment
      rw [trim_cons_blank blank]
    dsimp only
    rw [map_cons, map_cons, same]

theorem splitKey_dropWhile (key : JsString) :
    splitKey casing (key.dropWhile isWhiteSpace) = splitKey casing key := by
  induction key with
  | nil => rfl
  | cons u key ih =>
    cases blank : isWhiteSpace u with
    | true => rw [dropWhile_cons_of_pos blank, splitKey_cons_blank blank, ih]
    | false => rw [dropWhile_cons_of_neg (by simp [blank])]

theorem splitKey_names {names : List JsString} (some_name : names ≠ [])
    (dotless : ∀ name ∈ names, 0x2E ∉ name) : splitKey casing (JsString.join (js ".") names) =
      (names.map (keySegment casing)).filter fun part => part ≠ [] := by
  have dot : js "." = [0x2E] := by decide
  rw [splitKey_eq, dot, split_join some_name dotless]

theorem splitKey_join (empty : casing.toLowerCase [] = []) {names : List JsString}
    (dotless : ∀ name ∈ names, 0x2E ∉ name) : splitKey casing (JsString.join (js ".") names) =
      (names.map (keySegment casing)).filter fun part => part ≠ [] := by
  cases names with
  | nil =>
    show ([[]].map (keySegment casing)).filter (fun part => decide (part ≠ [])) = []
    have blank : keySegment casing [] = [] := empty
    rw [map_singleton, blank]
    rfl
  | cons name names => exact splitKey_names (cons_ne_nil _ _) dotless

theorem ne_nil_of_mem_splitKey {key part : JsString} (mem : part ∈ splitKey casing key) : part ≠ [] := by
  have kept := (mem_filter.mp mem).2
  simpa using kept

/-- Lower-casing a second time changes nothing, and lower-casing makes neither white space nor a dot. -/
structure Casing.Stable (casing : Casing) : Prop where
  again : ∀ text, casing.toLowerCase (casing.toLowerCase text) = casing.toLowerCase text
  trimmed : ∀ text, trim (casing.toLowerCase (trim text)) = casing.toLowerCase (trim text)
  dotless : ∀ text, 0x2E ∉ text → 0x2E ∉ casing.toLowerCase text

theorem keySegment_again (stable : casing.Stable) (part : JsString) :
    keySegment casing (keySegment casing part) = keySegment casing part := by
  unfold keySegment
  rw [stable.trimmed, stable.again]

structure IsSegment (casing : Casing) (part : JsString) : Prop where
  named : part ≠ []
  dotless : 0x2E ∉ part
  normal : keySegment casing part = part

theorem isSegment_of_mem_splitKey (stable : casing.Stable) {key part : JsString}
    (mem : part ∈ splitKey casing key) : IsSegment casing part := by
  have named := ne_nil_of_mem_splitKey mem
  obtain ⟨name, inside, rfl⟩ := mem_map.mp (mem_filter.mp mem).1
  have undotted : 0x2E ∉ name.trim :=
    fun dot => not_mem_split inside (trim_subset dot)
  exact ⟨named, stable.dotless _ undotted, keySegment_again stable name⟩

theorem splitKey_segments {path : List JsString} (some_path : path ≠ [])
    (segments : ∀ part ∈ path, IsSegment casing part) :
    splitKey casing (JsString.join (js ".") path) = path := by
  rw [splitKey_names some_path fun part mem => (segments part mem).dotless]
  have maps : path.map (keySegment casing) = path := by
    conv_rhs => rw [← map_id path]
    exact map_congr_left fun part mem => (segments part mem).normal
  rw [maps, filter_eq_self]
  intro part mem
  exact decide_eq_true (segments part mem).named

end keys

end ForgeDeno
