import ForgeDeno.FileSink
import Mathlib.Data.List.Perm.Subperm

namespace ForgeDeno

open JsString IsoTime List

def dashed (u : UInt16) : UInt16 := if u = 0x3A then 0x2D else u

def fileShape : List (JsString × Nat) := isoShape.map fun part => (part.1.map dashed, part.2)

theorem fields_fit_file (t : Nat) : Fits fileShape (fields t) :=
  List.forall₂_map_left_iff.mpr (fields_fit t)

theorem pad_dashed (w n : Nat) : (pad w n).map dashed = pad w n := by
  refine (map_congr_left fun u mem => ?_).trans (map_id _)
  have digit := (pad_digit mem).2
  refine if_neg fun colon => ?_
  rw [colon] at digit
  exact absurd digit (by decide)

theorem yearText_dashed (year : Nat) : (yearText year).map dashed = yearText year := by
  unfold yearText
  split_ifs
  · exact pad_dashed 4 year
  · rw [map_append, pad_dashed]
    rfl

theorem render_dashed (shape : List (JsString × Nat)) (xs : List Nat) : (render shape xs).map dashed =
      render (shape.map fun part => (part.1.map dashed, part.2)) xs := by
  induction shape generalizing xs with
  | nil => rfl
  | cons part shape ih =>
    cases xs with
    | nil => rfl
    | cons x xs =>
      show (part.1 ++ (pad part.2 x ++ render shape xs)).map dashed =
        part.1.map dashed ++ (pad part.2 x ++ render _ xs)
      rw [map_append, map_append, pad_dashed, ih]

theorem pad_no_zulu (w n : Nat) : (0x5A : UInt16) ∉ pad w n := by
  intro mem
  exact absurd (pad_digit mem).2 (by decide)

theorem render_no_zulu {shape : List (JsString × Nat)} (separators : ∀ part ∈ shape, (0x5A : UInt16) ∉ part.1)
    (xs : List Nat) : (0x5A : UInt16) ∉ render shape xs := by
  induction shape generalizing xs with
  | nil => exact not_mem_nil
  | cons part shape ih =>
    cases xs with
    | nil => exact not_mem_nil
    | cons x xs =>
      intro mem
      rcases mem_append.mp mem with first | rest
      · exact separators part mem_cons_self first
      · rcases mem_append.mp rest with digits | later
        · exact pad_no_zulu _ _ digits
        · exact ih (fun other mem => separators other (mem_cons_of_mem _ mem)) xs later

theorem text_no_zulu (t : Nat) : (0x5A : UInt16) ∉ text isoShape t := by
  intro mem
  rcases mem_append.mp mem with year | rest
  · unfold yearText at year
    split_ifs at year
    · exact pad_no_zulu _ _ year
    · rcases mem_append.mp year with sign | digits
      · exact absurd sign (by decide)
      · exact pad_no_zulu _ _ digits
  · exact render_no_zulu (by decide) _ rest

theorem fileTimestamp_eq (t : Nat) : fileTimestamp t = if t ≤ maxTime then some (text fileShape t) else none := by
  unfold fileTimestamp toISOString
  split_ifs
  · have erased : (text isoShape t ++ js "Z").erase 0x5A = text isoShape t := by
      rw [erase_append_right _ (text_no_zulu t)]
      exact append_nil _
    rw [Option.map_some, erased]
    refine congrArg some ?_
    show (text isoShape t).map dashed = text fileShape t
    unfold text
    rw [map_append, yearText_dashed, render_dashed]
    rfl
  · rfl

variable {backupPrefix name : JsString}

theorem backupName_some {t : Nat} (h : backupName backupPrefix t = some name) :
    t ≤ maxTime ∧ name = backupPrefix ++ text fileShape t ++ js ".log" := by
  unfold backupName at h
  rw [fileTimestamp_eq] at h
  split_ifs at h with bound
  · exact ⟨bound, (Option.some.inj h).symm⟩
  · cases h

theorem backupName_none {t : Nat} (h : backupName backupPrefix t = none) :
    maxTime < t := by
  unfold backupName at h
  rw [fileTimestamp_eq] at h
  split_ifs at h with bound
  · cases h
  · omega

theorem backupName_injective {s t : Nat}
    (left : backupName backupPrefix s = some name) (right : backupName backupPrefix t = some name) : s = t := by
  obtain ⟨bound, eq⟩ := backupName_some left
  obtain ⟨bound', eq'⟩ := backupName_some right
  have texts := append_cancel_right (eq.symm.trans eq')
  exact text_injective fields_fit_file bound bound' (append_cancel_left texts)

theorem text_length {shape : List (JsString × Nat)} (fits : ∀ t, Fits shape (fields t)) {s t : Nat}
    (left : s ≤ lastTime) (right : t ≤ lastTime) : (text shape s).length = (text shape t).length := by
  unfold text yearText
  rw [if_pos (yearOf_lastTime left), if_pos (yearOf_lastTime right), length_append,
    length_append, pad_length, pad_length, render_length (fits s) (fits t)]

theorem unitsLe_of_lt {a b : JsString} (less : units a < units b) : unitsLe a b = true := by
  induction a generalizing b with
  | nil => cases b <;> rfl
  | cons u a ih =>
    cases b with
    | nil => exact absurd less (not_lt_nil _)
    | cons v b =>
      rcases cons_lt_cons_iff.mp less with head | ⟨same, tail⟩
      · have ne : u ≠ v := fun eq => Nat.lt_irrefl _ (eq ▸ head)
        show (if u = v then unitsLe a b else decide (u < v)) = true
        rw [if_neg ne]
        exact decide_eq_true (UInt16.lt_iff_toNat_lt.mpr head)
      · have eq : u = v := UInt16.toNat_inj.mp same
        show (if u = v then unitsLe a b else decide (u < v)) = true
        rw [if_pos eq]
        exact ih tail

theorem backupName_lt {first second : JsString} {s t : Nat} (less : s < t)
    (bound : t ≤ lastTime) (left : backupName backupPrefix s = some first)
    (right : backupName backupPrefix t = some second) : units first < units second := by
  obtain ⟨_, rfl⟩ := backupName_some left
  obtain ⟨_, rfl⟩ := backupName_some right
  have lengths := text_length fields_fit_file (Nat.le_of_lt (Nat.lt_of_lt_of_le less bound)) bound
  rw [append_assoc, append_assoc, units_append, units_append backupPrefix]
  refine append_left_lt ?_
  rw [units_append, units_append (text fileShape t)]
  exact append_lt_append (by simpa [units] using lengths) (.inl (text_lt fields_fit_file less bound))

theorem exists_free (d : Directory) (backupPrefix : JsString) (t : Nat) :
    ∃ k < d.entries.length + 1, ∀ name, backupName backupPrefix (t + k) = some name → name ∉ d := by
  by_contra none_free
  have taken : ∀ k < d.entries.length + 1,
      ∃ name, backupName backupPrefix (t + k) = some name ∧ name ∈ d := by
    intro k bound
    by_contra free
    exact none_free ⟨k, bound, fun name found mem => free ⟨name, found, mem⟩⟩
  have names : ((range (d.entries.length + 1)).map fun k =>
      (backupName backupPrefix (t + k)).getD []).Nodup := by
    refine List.Nodup.map_on (fun k hk l hl same => ?_) nodup_range
    obtain ⟨name, found, _⟩ := taken k (mem_range.mp hk)
    obtain ⟨name', found', _⟩ := taken l (mem_range.mp hl)
    rw [found, found'] at same
    have eq : name = name' := same
    have := backupName_injective found (eq ▸ found')
    omega
  have inside : ((range (d.entries.length + 1)).map fun k =>
      (backupName backupPrefix (t + k)).getD []) ⊆ d.keys := by
    intro name mem
    obtain ⟨k, hk, rfl⟩ := mem_map.mp mem
    obtain ⟨name, found, there⟩ := taken k (mem_range.mp hk)
    rw [found]
    exact there
  have counted := (List.Nodup.subperm names inside).length_le
  have keys : d.keys.length = d.entries.length := length_map _
  rw [length_map, length_range, keys] at counted
  omega

end ForgeDeno
