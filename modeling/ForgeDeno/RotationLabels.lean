import ForgeDeno.GeneratedKeys
import ForgeDeno.Utf8Affixes

namespace JsString

open List Option

theorem length_toWellFormed (s : JsString) : s.toWellFormed.length = s.length := by
  have units : ∀ c, (ofCodePoint (replacePoint c)).length = (ofCodePoint c).length := by
    intro c
    unfold replacePoint
    split
    next surrogate =>
      unfold isSurrogate at surrogate
      unfold ofCodePoint
      rw [if_pos (by omega), if_pos (by omega)]
      rfl
    next => rfl
  have whole := congrArg length (flatMap_codePoints s)
  rw [← whole, toWellFormed, length_flatMap, length_flatMap]
  simp only [units]

theorem utf8Decode_stored (s : JsString) : utf8Decode s.utf8Encode = s.toWellFormed ∨
    ∃ rest : JsString, s = bom :: rest ∧ utf8Decode s.utf8Encode = rest.toWellFormed := by
  by_cases marked : s.head? = some bom
  · cases s with
    | nil => cases marked
    | cons u rest =>
      cases marked
      exact .inr ⟨rest, rfl, utf8Decode_bom rest⟩
  · exact .inl (utf8Decode_utf8Encode marked)

theorem length_stored (s : JsString) : s.length ≤ (utf8Decode s.utf8Encode).length + 1 := by
  rcases utf8Decode_stored s with whole | ⟨rest, rfl, whole⟩
  · rw [whole, length_toWellFormed]
    omega
  · rw [whole, length_toWellFormed, length_cons]

theorem toWellFormed_ascii {p : JsString} (ascii : ∀ u ∈ p, u.toNat < 0x80) (s : JsString) :
    (p ++ s).toWellFormed = p ++ s.toWellFormed := by
  induction p with
  | nil => rfl
  | cons u p ih =>
    obtain ⟨here, later⟩ := forall_mem_cons.mp ascii
    have single : isHighSurrogate u = false := by
      simp only [isHighSurrogate, Bool.and_eq_false_iff, decide_eq_false_iff_not,
        UInt16.le_iff_toNat_le, UInt16.reduceToNat]
      omega
    have kept : replacePoint u.toNat = u.toNat := by
      apply if_neg
      unfold isSurrogate
      omega
    have rest : toWellFormed (u :: (p ++ s)) = u :: toWellFormed (p ++ s) := by
      unfold toWellFormed
      rw [codePoints_cons single, flatMap_cons, kept, ofCodePoint_unit]
      rfl
    rw [cons_append, rest, ih later]
    rfl

theorem utf8Encode_ne_nil {s : JsString} (h : s ≠ []) : s.utf8Encode ≠ [] := by
  intro empty
  have whole := flatMap_codePoints s
  cases points : s.codePoints with
  | nil =>
    rw [points] at whole
    exact h whole.symm
  | cons c rest =>
    rw [utf8Encode, points, flatMap_cons, append_eq_nil_iff] at empty
    have bytes := empty.1
    unfold utf8OfCodePoint at bytes
    repeat' split at bytes
    all_goals cases bytes

end JsString

namespace ForgeDeno

open JsString

section labels

def keyLabel (attributes : List Attribute) (uri : KeyUri) : JsString :=
  match (findAttribute attributes AttributeType.Label).filter fun raw => raw ≠ [] with
  | some raw => utf8Decode raw
  | none => uri.object.getD []

def knownPrefix? (label : JsString) : Option JsString :=
  KeyLabelPrefix.values.find? fun known => known.isPrefixOf label

theorem rotationLabelBase_eq (attributes : List Attribute) (uri : KeyUri) :
    rotationLabelBase attributes uri = (knownPrefix? (keyLabel attributes uri)).getD
      (keyLabel attributes uri) := rfl

structure Rotation where
  now : Nat
  uid : Option JsString

def Rotation.suffix (rotation : Rotation) : JsString :=
  match rotation.uid.filter fun uid => uid ≠ [] with
  | some uid => uid
  | none => JsonText.naturalText rotation.now

def Rotation.label (rotation : Rotation) (attributes : List Attribute) (uri : KeyUri) : JsString :=
  newObjectLabel rotation.now (rotationLabelBase attributes uri) rotation.uid

theorem Rotation.label_eq (rotation : Rotation) (attributes : List Attribute) (uri : KeyUri) :
    rotation.label attributes uri =
      rotationLabelBase attributes uri ++ js "-" ++ rotation.suffix := by
  unfold Rotation.label Rotation.suffix newObjectLabel
  cases rotation.uid.filter fun uid => uid ≠ [] <;> rfl

/-- The labels that successive rotations of a key may give: each reads the label that the one before
has stored, under any URI that resolves to the key and beside any other attributes. -/
inductive Rotated (attributes : List Attribute) (uri : KeyUri) : List Rotation → JsString → Prop where
  | once (rotation : Rotation) : Rotated attributes uri [rotation] (rotation.label attributes uri)
  | again {rotations : List Rotation} {label : JsString} (rotation : Rotation)
      {present : List Attribute} (other : KeyUri) (before : Rotated attributes uri rotations label)
      (stored : findAttribute present AttributeType.Label = some (utf8Encode label)) :
      Rotated attributes uri (rotations ++ [rotation]) (rotation.label present other)

def KeepsBase (attributes : List Attribute) (uri : KeyUri) : Prop :=
  ∃ base, ∀ rotations label, Rotated attributes uri rotations label →
    ∃ rotation, rotations.getLast? = some rotation ∧ label = base ++ js "-" ++ rotation.suffix

variable {label known : JsString}

theorem stored_label {present : List Attribute} (nonempty : label ≠ [])
    (stored : findAttribute present AttributeType.Label = some (utf8Encode label)) (uri : KeyUri) :
    keyLabel present uri = utf8Decode (utf8Encode label) := by
  have some_bytes := utf8Encode_ne_nil nonempty
  unfold keyLabel
  rw [stored, Option.filter_some, decide_eq_true some_bytes]
  rfl

theorem label_ne_nil (rotation : Rotation) (attributes : List Attribute) (uri : KeyUri) :
    rotation.label attributes uri ≠ [] := by
  rw [Rotation.label_eq]
  apply List.append_ne_nil_of_left_ne_nil
  exact List.append_ne_nil_of_right_ne_nil _ (by decide)

theorem known_values : (∀ known ∈ KeyLabelPrefix.values, known ≠ [] ∧ ∀ u ∈ known, u.toNat < 0x80) ∧
    ∀ known ∈ KeyLabelPrefix.values, ∀ other ∈ KeyLabelPrefix.values,
      known.isPrefixOf other = true → known = other := by
  decide

theorem knownPrefix?_some :
    knownPrefix? label = some known ↔ known ∈ KeyLabelPrefix.values ∧ known <+: label := by
  unfold knownPrefix?
  constructor
  · intro found
    have begins := List.find?_some found
    exact ⟨List.mem_of_find?_eq_some found, List.isPrefixOf_iff_prefix.mp begins⟩
  · intro ⟨mem, begins⟩
    cases found : KeyLabelPrefix.values.find? fun known => known.isPrefixOf label with
    | none =>
      have absent := List.find?_eq_none.mp found known mem
      exact absurd (List.isPrefixOf_iff_prefix.mpr begins) absent
    | some other =>
      have named := List.find?_some found
      have other_begins : other <+: label := List.isPrefixOf_iff_prefix.mp named
      have other_mem := List.mem_of_find?_eq_some found
      rcases List.prefix_or_prefix_of_prefix begins other_begins with shorter | longer
      · rw [known_values.2 known mem other other_mem (List.isPrefixOf_iff_prefix.mpr shorter)]
      · rw [known_values.2 other other_mem known mem (List.isPrefixOf_iff_prefix.mpr longer)]

theorem known_stored (mem : known ∈ KeyLabelPrefix.values)
    (begins : known <+: label) : known <+: utf8Decode (utf8Encode label) := by
  obtain ⟨rest, rfl⟩ := begins
  obtain ⟨some_unit, ascii⟩ := known_values.1 known mem
  have unmarked : (known ++ rest).head? ≠ some bom := by
    cases known with
    | nil => exact absurd rfl some_unit
    | cons u known =>
      intro marked
      have small := ascii u List.mem_cons_self
      rw [show u = bom from Option.some.inj marked] at small
      exact absurd small (by decide)
  rw [utf8Decode_utf8Encode unmarked, toWellFormed_ascii ascii]
  exact List.prefix_append known _

variable {attributes : List Attribute} {uri : KeyUri}

theorem rotated_known (first : knownPrefix? (keyLabel attributes uri) = some known)
    {rotations : List Rotation} (rotated : Rotated attributes uri rotations label) :
    ∃ rotation, rotations.getLast? = some rotation ∧ label = known ++ js "-" ++ rotation.suffix := by
  have mem := (knownPrefix?_some.mp first).1
  induction rotated with
  | once rotation =>
    refine ⟨rotation, rfl, ?_⟩
    rw [Rotation.label_eq, rotationLabelBase_eq, first, Option.getD_some]
  | again rotation other before stored ih =>
    obtain ⟨last, _, label_eq⟩ := ih
    refine ⟨rotation, List.getLast?_concat, ?_⟩
    have nonempty := List.append_ne_nil_of_left_ne_nil
      (List.append_ne_nil_of_left_ne_nil (known_values.1 known mem).1 (js "-")) last.suffix
    have read := stored_label (label_eq ▸ nonempty) stored other
    have begins : known <+: known ++ js "-" ++ last.suffix := by
      rw [List.append_assoc]
      exact List.prefix_append known _
    have again := knownPrefix?_some.mpr ⟨mem, known_stored mem (label_eq ▸ begins)⟩
    rw [Rotation.label_eq, rotationLabelBase_eq, read, again, Option.getD_some]

theorem custom_loses_base (custom : ¬∃ known ∈ KeyLabelPrefix.values, known <+: keyLabel attributes uri) :
    ¬KeepsBase attributes uri := by
  intro ⟨base, keeps⟩
  have unknown : knownPrefix? (keyLabel attributes uri) = none := by
    cases found : knownPrefix? (keyLabel attributes uri) with
    | none => rfl
    | some known => exact absurd ⟨known, knownPrefix?_some.mp found⟩ custom
  let zero : Rotation := { now := 0, uid := some (js "0") }
  -- the first rotation keeps the whole label, the second one cannot
  obtain ⟨_, last, first⟩ := keeps _ _ (Rotated.once zero)
  cases last
  rw [Rotation.label_eq, rotationLabelBase_eq, unknown, Option.getD_none] at first
  have same : keyLabel attributes uri = base :=
    List.append_cancel_right (List.append_cancel_right first)
  let present := [textAttribute AttributeType.Label (zero.label attributes uri)]
  have stored : findAttribute present AttributeType.Label =
      some (utf8Encode (zero.label attributes uri)) := rfl
  obtain ⟨_, last, second⟩ := keeps _ _ ((Rotated.once zero).again zero uri stored)
  cases last
  rw [Rotation.label_eq] at second
  have twice : rotationLabelBase present uri = base :=
    List.append_cancel_right (List.append_cancel_right second)
  rw [rotationLabelBase_eq, stored_label (label_ne_nil zero attributes uri) stored] at twice
  cases found : knownPrefix? (utf8Decode (utf8Encode (zero.label attributes uri))) with
  | some known =>
    rw [found, Option.getD_some] at twice
    apply custom
    have whole : known = keyLabel attributes uri := twice.trans same.symm
    refine ⟨known, (knownPrefix?_some.mp found).1, ?_⟩
    exact whole ▸ List.prefix_rfl
  | none =>
    rw [found, Option.getD_none] at twice
    have longer := length_stored (zero.label attributes uri)
    rw [twice, ← same, Rotation.label_eq, rotationLabelBase_eq, unknown, Option.getD_none,
      List.length_append, List.length_append] at longer
    have dash : (js "-").length = 1 := rfl
    have time : zero.suffix.length = 1 := rfl
    omega

/-- The labels of a key keep one base exactly if its first label begins with a known prefix. -/
theorem rotation_labels_iff (attributes : List Attribute) (uri : KeyUri) : KeepsBase attributes uri ↔
    ∃ known ∈ KeyLabelPrefix.values, known <+: keyLabel attributes uri := by
  constructor
  · intro keeps
    by_contra custom
    exact custom_loses_base custom keeps
  · intro ⟨known, mem, begins⟩
    exact ⟨known, fun rotations label rotated =>
      rotated_known (knownPrefix?_some.mpr ⟨mem, begins⟩) rotated⟩

/-- A key that was labelled `my-key` becomes `my-key-a` and then `my-key-a-b`. -/
theorem custom_label_grows : Rotated [textAttribute AttributeType.Label (js "my-key")] {}
      [⟨0, some (js "a")⟩, ⟨0, some (js "b")⟩] (js "my-key-a-b") ∧
    ¬KeepsBase [textAttribute AttributeType.Label (js "my-key")] {} := by
  have first : Rotation.label ⟨0, some (js "a")⟩ [textAttribute AttributeType.Label (js "my-key")] {} =
      js "my-key-a" := by decide
  have second : Rotation.label ⟨0, some (js "b")⟩ [textAttribute AttributeType.Label (js "my-key-a")]
      {} = js "my-key-a-b" := by decide
  constructor
  · have once : Rotated [textAttribute AttributeType.Label (js "my-key")] {} _ _ :=
      Rotated.once ⟨0, some (js "a")⟩
    have stored : findAttribute [textAttribute AttributeType.Label (js "my-key-a")] AttributeType.Label =
        some (utf8Encode (Rotation.label ⟨0, some (js "a")⟩
          [textAttribute AttributeType.Label (js "my-key")] {})) := by
      rw [first]
      rfl
    rw [← second]
    exact once.again ⟨0, some (js "b")⟩ {} stored
  · apply custom_loses_base
    decide

end labels

end ForgeDeno
