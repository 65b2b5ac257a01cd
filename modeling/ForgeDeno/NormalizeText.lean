import ForgeDeno.ExceptRules
import ForgeDeno.MemberRules
import ForgeDeno.NativeText
import ForgeDeno.SpacedLists

namespace ForgeDeno.Native

open JsString ExceptRules Spaced

def isGoSpace (codePoint : Nat) : Bool :=
  [0x09, 0x0A, 0x0B, 0x0C, 0x0D, 0x20, 0x85, 0xA0, 0x1680, 0x2028, 0x2029, 0x202F, 0x205F,
    0x3000].contains codePoint || (0x2000 ≤ codePoint && codePoint ≤ 0x200A)

def join (points : List Nat) : JsString := points.flatMap ofCodePoint

def trimGoSpace (value : JsString) : JsString := join (Spaced.trim isGoSpace value.codePoints)

def collapseWhitespace (value : JsString) : JsString :=
  join (Spaced.collapse isGoSpace 0x20 false value.codePoints)

def lowerPoint (codePoint : Nat) : Nat :=
  if 0x41 ≤ codePoint ∧ codePoint ≤ 0x5A then codePoint + 0x20 else codePoint

def lowercaseAscii (value : JsString) : JsString := join (value.codePoints.map lowerPoint)

def normalize (payload : JsonValue) : Except PayloadError JsonValue := do
  let input ← object payload [js "value"] [js "trim", js "collapse_whitespace", js "lowercase_ascii"]
  let value ← text input (js "value")
  assertUtf8 value (js "payload.value")
  if maxStringBytes < byteLength value then throw ⟨.inputTooLarge, some (js "payload.value")⟩
  else
    let trim ← flag input (js "trim")
    let value := if trim then trimGoSpace value else value
    let collapse ← flag input (js "collapse_whitespace")
    let value := if collapse then collapseWhitespace value else value
    let lower ← flag input (js "lowercase_ascii")
    let value := if lower then lowercaseAscii value else value
    return .object [(js "value", .string value)]

def normalPoints (trim collapse lower : Bool) (points : List Nat) : List Nat :=
  let points := if trim then Spaced.trim isGoSpace points else points
  let points := if collapse then Spaced.collapse isGoSpace 0x20 false points else points
  if lower then points.map lowerPoint else points

theorem lowerPoint_scalar {c : Nat} (h : Scalar c) : Scalar (lowerPoint c) := by
  unfold lowerPoint
  split
  next upper =>
    refine ⟨by omega, ?_⟩
    unfold isSurrogate
    omega
  next => exact h

theorem lowerPoint_lowerPoint (c : Nat) : lowerPoint (lowerPoint c) = lowerPoint c := by
  unfold lowerPoint
  by_cases upper : 0x41 ≤ c ∧ c ≤ 0x5A
  · rw [if_pos upper, if_neg (by omega)]
  · rw [if_neg upper, if_neg upper]

theorem isGoSpace_lowerPoint (c : Nat) : isGoSpace (lowerPoint c) = isGoSpace c := by
  unfold lowerPoint
  split
  next upper =>
    have large : isGoSpace c = false := by
      have all : ∀ d ≤ 0x5A, 0x41 ≤ d → isGoSpace d = false := by decide
      exact all c upper.2 upper.1
    have small : isGoSpace (c + 0x20) = false := by
      have all : ∀ d ≤ 0x5A, 0x41 ≤ d → isGoSpace (d + 0x20) = false := by decide
      exact all c upper.2 upper.1
    rw [large, small]
  next => rfl

theorem mem_collapse {inside : Bool} {points : List Nat} {c : Nat}
    (h : c ∈ Spaced.collapse isGoSpace 0x20 inside points) : c = 0x20 ∨ c ∈ points := by
  induction points generalizing inside with
  | nil => cases inside <;> cases h
  | cons d points ih =>
    rw [Spaced.collapse] at h
    by_cases spaced : isGoSpace d = true
    · rw [if_pos spaced] at h
      cases inside with
      | true => exact (ih h).imp_right (List.mem_cons_of_mem d)
      | false =>
        rcases List.mem_cons.mp h with rfl | h
        · exact .inl rfl
        · exact (ih h).imp_right (List.mem_cons_of_mem d)
    · rw [if_neg spaced] at h
      rcases List.mem_cons.mp h with rfl | h
      · exact .inr List.mem_cons_self
      · exact (ih h).imp_right (List.mem_cons_of_mem d)

section points

variable {trim collapse lower : Bool} {points : List Nat}

theorem blank_space : isGoSpace 0x20 = true := by decide

theorem normalPoints_scalar (scalars : ∀ c ∈ points, Scalar c) :
    ∀ c ∈ normalPoints trim collapse lower points, Scalar c := by
  have trimmed : ∀ c ∈ (if trim then Spaced.trim isGoSpace points else points), Scalar c := by
    intro c mem
    split at mem
    next => exact scalars c ((trim_sublist points).subset mem)
    next => exact scalars c mem
  unfold normalPoints
  generalize (if trim then Spaced.trim isGoSpace points else points) = first at trimmed
  have collapsed : ∀ c ∈ (if collapse then Spaced.collapse isGoSpace 0x20 false first else first),
      Scalar c := by
    intro c mem
    split at mem
    next =>
      rcases mem_collapse mem with rfl | mem
      · exact ⟨by decide, by decide⟩
      · exact trimmed c mem
    next => exact trimmed c mem
  simp only
  generalize (if collapse then Spaced.collapse isGoSpace 0x20 false first else first) = second
    at collapsed
  intro c mem
  split at mem
  next =>
    obtain ⟨d, inside, rfl⟩ := List.mem_map.mp mem
    exact lowerPoint_scalar (collapsed d inside)
  next => exact collapsed c mem

theorem normalPoints_trimmed : Spaced.Trimmed isGoSpace (normalPoints true collapse lower points) := by
  have first : Trimmed isGoSpace (Spaced.trim isGoSpace points) := trimmed_trim points
  have second : Trimmed isGoSpace (normalPoints true collapse false points) := by
    cases collapse with
    | false => exact first
    | true => exact trimmed_collapse first
  cases lower with
  | false => exact second
  | true => exact trimmed_map isGoSpace_lowerPoint second

theorem normalPoints_collapsed : Spaced.Collapsed isGoSpace 0x20 (normalPoints trim true lower points) := by
  have second : Collapsed isGoSpace 0x20 (normalPoints trim true false points) :=
    (collapsed_collapse blank_space false _).1
  cases lower with
  | false => exact second
  | true => exact collapsed_map isGoSpace_lowerPoint rfl second

theorem normalPoints_lowered :
    (normalPoints trim collapse true points).map lowerPoint = normalPoints trim collapse true points := by
  have twice : lowerPoint ∘ lowerPoint = lowerPoint := funext lowerPoint_lowerPoint
  unfold normalPoints
  simp only [if_true]
  rw [List.map_map, twice]

theorem normalPoints_idem : normalPoints trim collapse lower (normalPoints trim collapse lower points)
    = normalPoints trim collapse lower points := by
  have done : ∀ result : List Nat, (trim = true → Spaced.trim isGoSpace result = result) →
      (collapse = true → Spaced.collapse isGoSpace 0x20 false result = result) →
      (lower = true → result.map lowerPoint = result) →
      normalPoints trim collapse lower result = result := by
    intro result trimmed collapsed lowered
    have first : (if trim then Spaced.trim isGoSpace result else result) = result := by
      split
      next on => exact trimmed on
      next => rfl
    have second : (if collapse then Spaced.collapse isGoSpace 0x20 false result else result)
        = result := by
      split
      next on => exact collapsed on
      next => rfl
    unfold normalPoints
    simp only [first, second]
    split
    next on => exact lowered on
    next => rfl
  refine done _ ?_ ?_ ?_
  · rintro rfl
    exact trim_of_trimmed normalPoints_trimmed
  · rintro rfl
    exact collapse_of_collapsed normalPoints_collapsed nofun
  · rintro rfl
    exact normalPoints_lowered

theorem normalPoints_filter : (normalPoints trim collapse lower points).filter (fun c => !isGoSpace c)
    = (points.filter fun c => !isGoSpace c).map (if lower then lowerPoint else id) := by
  have second : (normalPoints trim collapse false points).filter (fun c => !isGoSpace c)
      = points.filter fun c => !isGoSpace c := by
    cases trim with
    | false =>
      cases collapse with
      | false => rfl
      | true => exact filter_collapse blank_space false points
    | true =>
      cases collapse with
      | false => exact filter_trim points
      | true => exact (filter_collapse blank_space false _).trans (filter_trim points)
  cases lower with
  | false => exact second.trans (List.map_id _).symm
  | true => exact (filter_map isGoSpace_lowerPoint _).trans (congrArg (List.map lowerPoint) second)

def width (c : Nat) : Nat := (utf8OfCodePoint c).length

theorem width_pos (c : Nat) : 0 < width c := by
  unfold width utf8OfCodePoint
  split
  next => exact Nat.succ_pos _
  next =>
    split
    next => exact Nat.succ_pos _
    next =>
      split
      next => exact Nat.succ_pos _
      next => split <;> exact Nat.succ_pos _

theorem width_lowerPoint (c : Nat) : width (lowerPoint c) = width c := by
  unfold lowerPoint
  split
  next upper =>
    rw [width, width, utf8OfCodePoint_one (by omega), utf8OfCodePoint_one (by omega)]
    rfl
  next => rfl

theorem normalPoints_length : ((normalPoints trim collapse lower points).flatMap utf8OfCodePoint).length
      ≤ (points.flatMap utf8OfCodePoint).length := by
  have widths (l : List Nat) : (l.flatMap utf8OfCodePoint).length = (l.map width).sum :=
    List.length_flatMap
  have first : ((if trim then Spaced.trim isGoSpace points else points).map width).sum
      ≤ (points.map width).sum := by
    split
    next => exact ((trim_sublist points).map width).sum_le_sum fun _ _ => Nat.zero_le _
    next => exact Nat.le_refl _
  have light : ∀ a, isGoSpace a = true → width 0x20 ≤ width a := by
    intro a _
    exact width_pos a
  rw [widths, widths]
  unfold normalPoints
  simp only
  generalize (if trim then Spaced.trim isGoSpace points else points) = start at first
  have second : ((if collapse then Spaced.collapse isGoSpace 0x20 false start else start).map
      width).sum ≤ (points.map width).sum := by
    split
    next => exact (collapse_weight light false start).trans first
    next => exact first
  generalize (if collapse then Spaced.collapse isGoSpace 0x20 false start else start) = middle
    at second
  split
  next =>
    have same : width ∘ lowerPoint = width := funext width_lowerPoint
    rw [List.map_map, same]
    exact second
  next => exact second

end points

theorem codePoints_join {points : List Nat} (scalars : ∀ c ∈ points, Scalar c) :
    (join points).codePoints = points := codePoints_flatMap scalars

theorem passes_eq {value : JsString} (formed : value.WellFormed) (trim collapse lower : Bool) :
    (let value := if trim then trimGoSpace value else value
    let value := if collapse then collapseWhitespace value else value
    if lower then lowercaseAscii value else value)
      = join (normalPoints trim collapse lower value.codePoints) := by
  have scalars := formed.scalars
  have whole : join value.codePoints = value := flatMap_codePoints value
  have first : (if trim then trimGoSpace value else value)
      = join (normalPoints trim false false value.codePoints) := by
    cases trim with
    | false => exact whole.symm
    | true => rfl
  have second : (if collapse then collapseWhitespace (join (normalPoints trim false false value.codePoints))
      else join (normalPoints trim false false value.codePoints))
      = join (normalPoints trim collapse false value.codePoints) := by
    cases collapse with
    | false => rfl
    | true =>
      have points : (join (normalPoints trim false false value.codePoints)).codePoints
          = normalPoints trim false false value.codePoints :=
        codePoints_join (normalPoints_scalar scalars)
      rw [if_pos rfl, collapseWhitespace, points]
      rfl
  simp only [first, second]
  cases lower with
  | false => rfl
  | true =>
    have points : (join (normalPoints trim collapse false value.codePoints)).codePoints
        = normalPoints trim collapse false value.codePoints :=
      codePoints_join (normalPoints_scalar scalars)
    rw [if_pos rfl, lowercaseAscii, points]
    rfl

theorem normalize_ok {payload result : JsonValue} : normalize payload = .ok result ↔
    ∃ input value trim collapse lower,
      object payload [js "value"] [js "trim", js "collapse_whitespace", js "lowercase_ascii"]
        = .ok input ∧
      text input (js "value") = .ok value ∧ value.WellFormed ∧ byteLength value ≤ maxStringBytes ∧
      flag input (js "trim") = .ok trim ∧ flag input (js "collapse_whitespace") = .ok collapse ∧
      flag input (js "lowercase_ascii") = .ok lower ∧
      result = .object [(js "value", .string (join (normalPoints trim collapse lower value.codePoints)))] := by
  constructor
  · intro h
    obtain ⟨input, object_eq, h⟩ := bind_ok.mp h
    obtain ⟨value, text_eq, h⟩ := bind_ok.mp h
    obtain ⟨⟨⟩, formed, h⟩ := bind_ok.mp h
    obtain ⟨fits, h⟩ := check_ok.mp h
    obtain ⟨trim, trim_eq, h⟩ := bind_ok.mp h
    obtain ⟨collapse, collapse_eq, h⟩ := bind_ok.mp h
    obtain ⟨lower, lower_eq, h⟩ := bind_ok.mp h
    have formed := assertUtf8_ok.mp formed
    refine ⟨input, value, trim, collapse, lower, object_eq, text_eq, formed, Nat.not_lt.mp fits,
      trim_eq, collapse_eq, lower_eq, ?_⟩
    rw [← passes_eq formed]
    exact (Except.ok.inj h).symm
  · rintro ⟨input, value, trim, collapse, lower, object_eq, text_eq, formed, fits, trim_eq,
      collapse_eq, lower_eq, rfl⟩
    rw [← passes_eq formed]
    refine bind_ok.mpr ⟨input, object_eq, ?_⟩
    refine bind_ok.mpr ⟨value, text_eq, ?_⟩
    refine bind_ok.mpr ⟨(), assertUtf8_ok.mpr formed, ?_⟩
    refine check_ok.mpr ⟨Nat.not_lt.mpr fits, ?_⟩
    refine bind_ok.mpr ⟨trim, trim_eq, ?_⟩
    refine bind_ok.mpr ⟨collapse, collapse_eq, ?_⟩
    exact bind_ok.mpr ⟨lower, lower_eq, rfl⟩

theorem flag_setMember {members : Members} {item : JsonValue} {key other : JsString}
    (apart : other ≠ key) : flag (setMember members key item) other = flag members other := by
  unfold flag
  rw [lookupMember_setMember, if_neg apart]

/-- The returned text is well formed, no longer than the given one, and fixed by the same passes;
it keeps everything but spaces, and the spaces as the flags say. -/
theorem normalize_sound {members : Members} {result : JsonValue}
    (accepted : normalize (.object members) = .ok result) :
    ∃ value output trim collapse lower, text members (js "value") = .ok value ∧
      flag members (js "trim") = .ok trim ∧
      flag members (js "collapse_whitespace") = .ok collapse ∧
      flag members (js "lowercase_ascii") = .ok lower ∧
      result = .object [(js "value", .string output)] ∧
      output.WellFormed ∧ byteLength output ≤ byteLength value ∧
      normalize (.object (setMember members (js "value") (.string output))) = .ok result ∧
      (output.codePoints.filter fun c => !isGoSpace c)
        = (value.codePoints.filter fun c => !isGoSpace c).map (if lower then lowerPoint else id) ∧
      (trim = true → Spaced.Trimmed isGoSpace output.codePoints) ∧
      (collapse = true → output.codePoints.IsChain fun a b =>
        ¬(isGoSpace a = true ∧ isGoSpace b = true)) := by
  obtain ⟨input, value, trim, collapse, lower, object_eq, text_eq, formed, fits, trim_eq,
    collapse_eq, lower_eq, rfl⟩ := normalize_ok.mp accepted
  obtain ⟨⟨⟩, known, -⟩ := object_ok.mp object_eq
  have scalars : ∀ c ∈ normalPoints trim collapse lower value.codePoints, Scalar c :=
    normalPoints_scalar formed.scalars
  have points := codePoints_join scalars
  obtain ⟨output, output_eq⟩ : ∃ output,
      join (normalPoints trim collapse lower value.codePoints) = output := ⟨_, rfl⟩
  rw [output_eq] at points ⊢
  have output_formed : output.WellFormed := by
    rw [← output_eq]
    exact wellFormed_flatMap scalars
  have shorter : byteLength output ≤ byteLength value := by
    rw [byteLength, byteLength, utf8Encode, utf8Encode, points]
    exact normalPoints_length
  have present : lookupMember (setMember members (js "value") (.string output)) (js "value")
      = some (.string output) := by
    rw [lookupMember_setMember, if_pos rfl]
  have again : normalize (.object (setMember members (js "value") (.string output)))
      = .ok (.object [(js "value", .string output)]) := by
    refine normalize_ok.mpr ⟨_, output, trim, collapse, lower, object_ok.mpr ⟨rfl, ?_, ?_⟩, ?_,
      output_formed, by omega, ?_, ?_, ?_, ?_⟩
    · intro member mem
      rcases mem_setMember mem with old | rfl
      · exact known member old
      · exact List.mem_cons_self
    · intro key mem
      cases List.mem_singleton.mp mem
      rw [absent, present]
    · rw [text, present]
    · rw [flag_setMember (by decide)]
      exact trim_eq
    · rw [flag_setMember (by decide)]
      exact collapse_eq
    · rw [flag_setMember (by decide)]
      exact lower_eq
    · rw [points, normalPoints_idem, output_eq]
  refine ⟨value, output, trim, collapse, lower, text_eq, trim_eq, collapse_eq, lower_eq, rfl,
    output_formed, shorter, again, ?_, ?_, ?_⟩
  · rw [points]
    exact normalPoints_filter
  · rintro rfl
    rw [points]
    exact normalPoints_trimmed
  · rintro rfl
    rw [points]
    exact normalPoints_collapsed.2

def shouted : Members :=
  [(js "value", .string (js " A\t\tB ")), (js "trim", .bool true),
    (js "collapse_whitespace", .bool true), (js "lowercase_ascii", .bool true)]

theorem normalize_sound_shouted :
    ∃ output, normalize (.object shouted) = .ok (.object [(js "value", .string output)]) ∧
      output = js "a b" ∧
      normalize (.object (setMember shouted (js "value") (.string output)))
        = .ok (.object [(js "value", .string output)]) := by
  have accepted : normalize (.object shouted) = .ok (.object [(js "value", .string (js "a b"))]) :=
    rfl
  obtain ⟨-, output, -, -, -, -, -, -, -, eq, -, -, again, -⟩ := normalize_sound accepted
  have same : js "a b" = output := by simpa using eq
  rw [← same] at again
  exact ⟨js "a b", accepted, rfl, again⟩

end ForgeDeno.Native
