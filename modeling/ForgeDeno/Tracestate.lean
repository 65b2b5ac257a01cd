import ForgeDeno.SettingPaths

namespace ForgeDeno

open JsString List

namespace Tracestate

def indexOf (s : JsString) (u : UInt16) : Int := ((s.idxOf? u).map fun i => (i : Int)).getD (-1)

def lastIndexOf (s : JsString) (u : UInt16) : Int :=
  ((s.reverse.idxOf? u).map fun i => (s.length : Int) - 1 - i).getD (-1)

def isLower (u : UInt16) : Bool := 0x61 ≤ u && u ≤ 0x7A

def isLowerOrDigit (u : UInt16) : Bool := isLower u || (0x30 ≤ u && u ≤ 0x39)

def isKeyUnit (u : UInt16) : Bool := isLowerOrDigit u || u = 0x5F || u = 0x2D

def isValueUnit (u : UInt16) : Bool :=
  (0x20 ≤ u && u ≤ 0x2B) || (0x2D ≤ u && u ≤ 0x3C) || (0x3E ≤ u && u ≤ 0x7E)

/-- One unit and then at most so many of `[a-z0-9_\-]`. -/
def isName (first : UInt16 → Bool) (longest : Nat) : JsString → Bool
  | [] => false
  | u :: rest => first u && decide (rest.length ≤ longest) && rest.all isKeyUnit

/-- The second expression of the source has one `@`, between two names that have none. -/
def isValidTracestateKey (key : JsString) : Bool :=
  isName isLower 255 key ||
    match key.split 0x40 with
    | [tenant, system] => isName isLowerOrDigit 240 tenant && isName isLower 13 system
    | _ => false

def isValidTracestateValue (value : JsString) : Bool :=
  decide (0 < value.length) && decide (value.length ≤ 256) && decide (value.head? ≠ some 0x20) &&
    decide (value.getLast? ≠ some 0x20) && value.all isValueUnit

def validMembers : List JsString → List JsString → Bool
  | [], _ => true
  | rawMember :: members, keys =>
    let member := rawMember.trim
    let separator := indexOf member 0x3D
    if separator ≤ 0 ∨ separator ≠ lastIndexOf member 0x3D then false
    else
      let key := member.take separator.toNat
      let itemValue := member.drop (separator.toNat + 1)
      if isValidTracestateKey key = false ∨ isValidTracestateValue itemValue = false ∨ key ∈ keys then false
      else validMembers members (key :: keys)

def isValidTracestate (value : JsString) : Bool :=
  if value.length = 0 ∨ 512 < value.length ∨ value.trim ≠ value then false
  else if 32 < (value.split 0x2C).length then false
  else validMembers (value.split 0x2C) []

def KeyChar (u : UInt16) : Prop := isKeyUnit u = true ∨ u = 0x2A ∨ u = 0x2F

def ValueChar (u : UInt16) : Prop := 0x20 ≤ u ∧ u ≤ 0x7E ∧ u ≠ 0x2C ∧ u ≠ 0x3D

inductive Key : JsString → Prop
  | simple {first : UInt16} {rest : JsString} : isLower first = true → rest.length ≤ 255 →
    (∀ u ∈ rest, KeyChar u) → Key (first :: rest)
  | tenant {first start : UInt16} {tenant system : JsString} : isLowerOrDigit first = true →
    tenant.length ≤ 240 → (∀ u ∈ tenant, KeyChar u) → isLower start = true → system.length ≤ 13 →
      (∀ u ∈ system, KeyChar u) → Key (first :: tenant ++ 0x40 :: start :: system)

inductive Value : JsString → Prop
  | chars {start : JsString} {last : UInt16} : start.length ≤ 255 → (∀ u ∈ start, ValueChar u) →
    ValueChar last → last ≠ 0x20 → Value (start ++ [last])

def isOws (u : UInt16) : Bool := u = 0x20 || u = 0x09

/-- `key "=" value / OWS`, for what counts as blank. -/
inductive ListMember (blank : UInt16 → Bool) : JsString → Option (JsString × JsString) → Prop
  | item {key value : JsString} : Key key → Value value →
    ListMember blank (key ++ 0x3D :: value) (some (key, value))
  | empty {gap : JsString} : (∀ u ∈ gap, blank u = true) → ListMember blank gap none

inductive Listed (blank : UInt16 → Bool) : JsString → List (Option (JsString × JsString)) → Prop
  | one {text : JsString} {member : Option (JsString × JsString)} : ListMember blank text member →
    Listed blank text [member]
  | more {text before after rest : JsString} {member : Option (JsString × JsString)}
    {members : List (Option (JsString × JsString))} : ListMember blank text member →
    (∀ u ∈ before, blank u = true) → (∀ u ∈ after, blank u = true) → Listed blank rest members →
      Listed blank (text ++ before ++ 0x2C :: (after ++ rest)) (member :: members)

structure IsList (blank : UInt16 → Bool) (s : JsString) (members : List (Option (JsString × JsString))) : Prop where
  listed : Listed blank s members
  short : s.length ≤ 512
  few : members.length ≤ 32
  unique : (members.filterMap fun member => member.map Prod.fst).Nodup

/-- A `tracestate` of W3C Trace Context. -/
def W3c (s : JsString) : Prop := ∃ members, IsList isOws s members

/-- A member that the code knows: not an empty one, no asterisk or slash in its key, and no space before its
value. -/
def Supported (member : Option (JsString × JsString)) : Prop :=
  ∃ key value, member = some (key, value) ∧ (∀ u ∈ key, u ≠ 0x2A ∧ u ≠ 0x2F) ∧ value.head? ≠ some 0x20

section units

variable {u : UInt16}

theorem isValueUnit_iff : isValueUnit u = true ↔ ValueChar u := by
  unfold isValueUnit ValueChar
  simp only [Bool.or_eq_true, Bool.and_eq_true, decide_eq_true_eq, UInt16.le_iff_toNat_le, ← UInt16.toNat_inj, ne_eq]
  simp only [UInt16.reduceToNat]
  omega

theorem isKeyUnit_iff : isKeyUnit u = true ↔ KeyChar u ∧ u ≠ 0x2A ∧ u ≠ 0x2F := by
  unfold KeyChar isKeyUnit isLowerOrDigit isLower
  simp only [Bool.or_eq_true, Bool.and_eq_true, decide_eq_true_eq, UInt16.le_iff_toNat_le, ← UInt16.toNat_inj, ne_eq]
  simp only [UInt16.reduceToNat]
  omega

theorem keyChar_visible (h : KeyChar u) : isWhiteSpace u = false ∧ u ≠ 0x40 ∧ u ≠ 0x3D ∧ u ≠ 0x2C := by
  unfold KeyChar isKeyUnit isLowerOrDigit isLower at h
  unfold isWhiteSpace
  simp only [Bool.or_eq_true, Bool.and_eq_true, decide_eq_true_eq, UInt16.le_iff_toNat_le, ← UInt16.toNat_inj, ne_eq,
    ← Bool.not_eq_true] at h ⊢
  simp only [UInt16.reduceToNat] at h ⊢
  omega

theorem isLowerOrDigit_key (h : isLowerOrDigit u = true) : isKeyUnit u = true := by
  unfold isKeyUnit
  rw [h]
  rfl

theorem isLower_key (h : isLower u = true) : isKeyUnit u = true := by
  apply isLowerOrDigit_key
  unfold isLowerOrDigit
  rw [h]
  rfl

theorem valueChar_blank (h : ValueChar u) (blank : isWhiteSpace u = true) : u = 0x20 := by
  unfold ValueChar at h
  unfold isWhiteSpace at blank
  simp only [Bool.or_eq_true, Bool.and_eq_true, decide_eq_true_eq, UInt16.le_iff_toNat_le, ← UInt16.toNat_inj, ne_eq]
    at h blank ⊢
  simp only [UInt16.reduceToNat] at h blank ⊢
  omega

theorem isOws_blank (h : isOws u = true) : isWhiteSpace u = true := by
  unfold isOws at h
  rw [Bool.or_eq_true, decide_eq_true_eq, decide_eq_true_eq] at h
  rcases h with same | same
  · rw [same]
    rfl
  · rw [same]
    rfl

theorem blank_not_comma (h : isWhiteSpace u = true) : u ≠ 0x2C := by
  intro same
  rw [same] at h
  cases h

end units

section separators

variable {u : UInt16}

theorem idxOf?_append {s : JsString} (first : u ∉ s) (rest : JsString) :
    (s ++ u :: rest).idxOf? u = some s.length := by
  rw [idxOf?_eq_some_iff]
  refine ⟨by simp, by simp, fun j low => ?_⟩
  rw [getElem_append_left low]
  intro same
  exact first (same ▸ getElem_mem low)

theorem indexOf_append {s : JsString} (first : u ∉ s) (rest : JsString) :
    indexOf (s ++ u :: rest) u = s.length := by
  unfold indexOf
  rw [idxOf?_append first]
  rfl

theorem lastIndexOf_append (s : JsString) {rest : JsString} (last : u ∉ rest) :
    lastIndexOf (s ++ u :: rest) u = s.length := by
  have back : (s ++ u :: rest).reverse = rest.reverse ++ u :: s.reverse := by simp
  unfold lastIndexOf
  rw [back, idxOf?_append fun mem => last (mem_reverse.mp mem)]
  show ((s ++ u :: rest).length : Int) - 1 - rest.reverse.length = s.length
  rw [length_append, length_cons, length_reverse]
  omega

theorem indexOf_absent {s : JsString} (absent : u ∉ s) : indexOf s u = -1 := by
  unfold indexOf
  rw [idxOf?_eq_none_iff.mpr absent]
  rfl

theorem one_separator_iff (s : JsString) : ¬(indexOf s u ≤ 0 ∨ indexOf s u ≠ lastIndexOf s u) ↔
    ∃ key value, s = key ++ u :: value ∧ key ≠ [] ∧ u ∉ key ∧ u ∉ value := by
  constructor
  · intro one
    push Not at one
    obtain ⟨positive, same⟩ := one
    by_cases mem : u ∈ s
    · obtain ⟨key, value, shape, first⟩ := eq_append_cons_of_mem mem
      rw [shape, indexOf_append first] at positive same
      refine ⟨key, value, shape, ?_, first, fun again => ?_⟩
      · intro empty
        rw [empty] at positive
        exact absurd positive (Int.lt_irrefl 0)
      · obtain ⟨back, before, split, last⟩ := eq_append_cons_of_mem (mem_reverse.mpr again)
        have forward : value = before.reverse ++ u :: back.reverse := by
          have turned := congrArg reverse split
          rw [reverse_reverse] at turned
          rw [turned]
          simp
        have whole : key ++ u :: value = (key ++ u :: before.reverse) ++ u :: back.reverse := by
          rw [forward]
          simp
        rw [whole, lastIndexOf_append _ fun mem => last (mem_reverse.mp mem), length_append,
          length_cons] at same
        omega
    · rw [indexOf_absent mem] at positive
      omega
  · rintro ⟨key, value, shape, some_key, first, last⟩
    rw [shape, indexOf_append first, lastIndexOf_append key last]
    have positive := length_pos_iff.mpr some_key
    omega

theorem split_two {s first second : JsString} : s.split u = [first, second] ↔
    s = first ++ u :: second ∧ u ∉ first ∧ u ∉ second := by
  constructor
  · intro parts
    have whole := @join_split u s
    rw [parts] at whole
    have none : ∀ part ∈ [first, second], u ∉ part := fun part mem => not_mem_split (parts ▸ mem)
    refine ⟨?_, none _ (by simp), none _ (by simp)⟩
    rw [← whole]
    show first ++ [u] ++ second = _
    simp
  · rintro ⟨shape, absent, after⟩
    rw [shape, split_append absent, split_of_not_mem after]

end separators

theorem isName_cons {first : UInt16 → Bool} {longest : Nat} {u : UInt16} {rest : JsString} :
    isName first longest (u :: rest) = true ↔
      first u = true ∧ rest.length ≤ longest ∧ ∀ v ∈ rest, isKeyUnit v = true := by
  show (first u && decide (rest.length ≤ longest) && rest.all isKeyUnit) = true ↔ _
  rw [Bool.and_eq_true, Bool.and_eq_true, decide_eq_true_eq, all_eq_true, and_assoc]

theorem isName_units {first : UInt16 → Bool} (kept : ∀ u, first u = true → isKeyUnit u = true) {longest : Nat}
    {name : JsString} (h : isName first longest name = true) : ∀ u ∈ name, isKeyUnit u = true := by
  cases name with
  | nil => cases h
  | cons u rest =>
    obtain ⟨start, -, later⟩ := isName_cons.mp h
    exact forall_mem_cons.mpr ⟨kept u start, later⟩

theorem isValidTracestateKey_iff (key : JsString) :
    isValidTracestateKey key = true ↔ Key key ∧ ∀ u ∈ key, u ≠ 0x2A ∧ u ≠ 0x2F := by
  have narrow : ∀ {u : UInt16}, isKeyUnit u = true → u ≠ 0x2A ∧ u ≠ 0x2F := fun h => (isKeyUnit_iff.mp h).2
  unfold isValidTracestateKey
  rw [Bool.or_eq_true]
  constructor
  · intro either
    rcases either with simple | tenants
    · have units := isName_units (fun u => isLower_key) simple
      cases key with
      | nil => cases simple
      | cons first rest =>
        obtain ⟨start, short, all⟩ := isName_cons.mp simple
        exact ⟨.simple start short fun u mem => .inl (all u mem), fun u mem => narrow (units u mem)⟩
    · split at tenants
      · rename_i tenant system parts
        obtain ⟨shape, -, -⟩ := split_two.mp parts
        obtain ⟨before, after⟩ := Bool.and_eq_true_iff.mp tenants
        have units := isName_units (fun u => isLowerOrDigit_key) before
        have others := isName_units (fun u => isLower_key) after
        rw [shape]
        refine ⟨?_, fun u mem => ?_⟩
        · cases tenant with
          | nil => cases before
          | cons first tenant =>
            cases system with
            | nil => cases after
            | cons start system =>
              obtain ⟨here, short, all⟩ := isName_cons.mp before
              obtain ⟨there, short', all'⟩ := isName_cons.mp after
              exact .tenant here short (fun u mem => .inl (all u mem)) there short' fun u mem => .inl (all' u mem)
        · rcases mem_append.mp mem with mem | mem
          · exact narrow (units u mem)
          · rcases mem_cons.mp mem with same | mem
            · rw [same]
              decide
            · exact narrow (others u mem)
      · cases tenants
  · rintro ⟨valid, plain⟩
    cases valid with
    | simple start short all =>
      refine .inl (isName_cons.mpr ⟨start, short, fun u mem => ?_⟩)
      exact isKeyUnit_iff.mpr ⟨all u mem, plain u (mem_cons_of_mem _ mem)⟩
    | @tenant first start tenant system here short all there short' all' =>
      right
      have clear : 0x40 ∉ first :: tenant := by
        intro mem
        rcases mem_cons.mp mem with same | mem
        · rw [← same] at here
          cases here
        · exact (keyChar_visible (all _ mem)).2.1 rfl
      have clear' : 0x40 ∉ start :: system := by
        intro mem
        rcases mem_cons.mp mem with same | mem
        · rw [← same] at there
          cases there
        · exact (keyChar_visible (all' _ mem)).2.1 rfl
      rw [split_two.mpr ⟨rfl, clear, clear'⟩]
      refine Bool.and_eq_true_iff.mpr ⟨isName_cons.mpr ⟨here, short, fun u mem => ?_⟩,
        isName_cons.mpr ⟨there, short', fun u mem => ?_⟩⟩
      · exact isKeyUnit_iff.mpr ⟨all u mem, plain u (by simp [mem])⟩
      · exact isKeyUnit_iff.mpr ⟨all' u mem, plain u (by simp [mem])⟩

theorem isValidTracestateValue_iff (value : JsString) :
    isValidTracestateValue value = true ↔ Value value ∧ value.head? ≠ some 0x20 := by
  unfold isValidTracestateValue
  rw [Bool.and_eq_true, Bool.and_eq_true, Bool.and_eq_true, Bool.and_eq_true, decide_eq_true_eq, decide_eq_true_eq,
    decide_eq_true_eq, decide_eq_true_eq, all_eq_true]
  constructor
  · rintro ⟨⟨⟨⟨positive, short⟩, first⟩, last⟩, all⟩
    refine ⟨?_, first⟩
    have shape := dropLast_append_getLast (length_pos_iff.mp positive)
    rw [getLast?_eq_some_getLast (length_pos_iff.mp positive)] at last
    rw [← shape]
    refine .chars ?_ (fun u mem => isValueUnit_iff.mp (all u (dropLast_subset _ mem)))
      (isValueUnit_iff.mp (all _ (getLast_mem _))) fun same => last (congrArg some same)
    rw [length_dropLast]
    omega
  · rintro ⟨valid, first⟩
    cases valid with
    | @chars start last short all inside visible =>
      refine ⟨⟨⟨⟨by simp, by simp; omega⟩, first⟩, ?_⟩, fun u mem => ?_⟩
      · rw [getLast?_concat]
        exact fun same => visible (Option.some.inj same)
      · rw [isValueUnit_iff]
        rcases mem_append.mp mem with mem | mem
        · exact all u mem
        · exact (mem_singleton.mp mem) ▸ inside

section texts

variable {key value : JsString}

theorem key_units (h : Key key) : ∀ u ∈ key, KeyChar u ∨ u = 0x40 := by
  intro u mem
  cases h with
  | @simple first rest start short all =>
    have units : ∀ v ∈ first :: rest, KeyChar v := forall_mem_cons.mpr ⟨.inl (isLower_key start), all⟩
    exact .inl (units u mem)
  | @tenant first start tenant system here short all there short' all' =>
    have units : ∀ v ∈ first :: tenant, KeyChar v := forall_mem_cons.mpr ⟨.inl (isLowerOrDigit_key here), all⟩
    have others : ∀ v ∈ start :: system, KeyChar v := forall_mem_cons.mpr ⟨.inl (isLower_key there), all'⟩
    rcases mem_append.mp mem with mem | mem
    · exact .inl (units u mem)
    · exact (mem_cons.mp mem).elim .inr fun mem => .inl (others u mem)

theorem key_visible (h : Key key) : ∀ u ∈ key, isWhiteSpace u = false ∧ u ≠ 0x3D ∧ u ≠ 0x2C := by
  intro u mem
  rcases key_units h u mem with unit | same
  · obtain ⟨visible, -, apart⟩ := keyChar_visible unit
    exact ⟨visible, apart⟩
  · rw [same]
    decide

theorem key_text (h : Key key) : ∃ first rest, key = first :: rest ∧ isWhiteSpace first = false ∧
    ∀ u ∈ key, u ≠ 0x3D ∧ u ≠ 0x2C := by
  have visible := key_visible h
  cases h with
  | simple => exact ⟨_, _, rfl, (visible _ mem_cons_self).1, fun u mem => (visible u mem).2⟩
  | tenant => exact ⟨_, _, rfl, (visible _ mem_cons_self).1, fun u mem => (visible u mem).2⟩

theorem value_text (h : Value value) : ∃ start last, value = start ++ [last] ∧ isWhiteSpace last = false ∧
    (∀ u ∈ value, ValueChar u) := by
  cases h with
  | @chars start last short all inside visible =>
    refine ⟨start, last, rfl, ?_, fun u mem => ?_⟩
    · cases blank : isWhiteSpace last with
      | false => rfl
      | true => exact absurd (valueChar_blank inside blank) visible
    · rcases mem_append.mp mem with mem | mem
      · exact all u mem
      · exact (mem_singleton.mp mem) ▸ inside

theorem item_text (named : Key key) (valued : Value value) :
    (∃ first rest last, key ++ 0x3D :: value = first :: rest ++ [last] ∧ isWhiteSpace first = false ∧
        isWhiteSpace last = false) ∧ 0x2C ∉ key ++ 0x3D :: value := by
  obtain ⟨first, rest, key_shape, visible, apart⟩ := key_text named
  obtain ⟨start, last, value_shape, ends, chars⟩ := value_text valued
  refine ⟨⟨first, rest ++ 0x3D :: start, last, ?_, visible, ends⟩, fun mem => ?_⟩
  · rw [key_shape, value_shape]
    simp
  · rcases mem_append.mp mem with mem | mem
    · exact (apart _ mem).2 rfl
    · rcases mem_cons.mp mem with same | mem
      · cases same
      · exact (chars _ mem).2.2.1 rfl

end texts

section loop

theorem validMembers_cons {raw : JsString} {members keys : List JsString} :
    validMembers (raw :: members) keys = true ↔ ∃ key value, raw.trim = key ++ 0x3D :: value ∧
      isValidTracestateKey key = true ∧ isValidTracestateValue value = true ∧ key ∉ keys ∧
        validMembers members (key :: keys) = true := by
  have parts : ∀ key value : JsString, 0x3D ∉ key → indexOf (key ++ 0x3D :: value) 0x3D = key.length ∧
      (key ++ 0x3D :: value).take key.length = key ∧ (key ++ 0x3D :: value).drop (key.length + 1) = value := by
    intro key value absent
    refine ⟨indexOf_append absent value, take_left, ?_⟩
    rw [drop_append, drop_eq_nil_of_le (Nat.le_succ _), Nat.add_sub_cancel_left]
    rfl
  rw [validMembers]
  dsimp only
  constructor
  · intro valid
    by_cases bad : indexOf raw.trim 0x3D ≤ 0 ∨ indexOf raw.trim 0x3D ≠ lastIndexOf raw.trim 0x3D
    · rw [if_pos bad] at valid
      cases valid
    · rw [if_neg bad] at valid
      obtain ⟨key, value, shape, -, absent, -⟩ := (one_separator_iff raw.trim).mp bad
      obtain ⟨place, before, after⟩ := parts key value absent
      rw [shape, place, Int.toNat_natCast, before, after] at valid
      by_cases refused : isValidTracestateKey key = false ∨ isValidTracestateValue value = false ∨ key ∈ keys
      · rw [if_pos refused] at valid
        cases valid
      · rw [if_neg refused] at valid
        push Not at refused
        obtain ⟨named, valued, other⟩ := refused
        exact ⟨key, value, shape, Bool.not_eq_false _ ▸ named, Bool.not_eq_false _ ▸ valued, other, valid⟩
  · rintro ⟨key, value, shape, named, valued, other, valid⟩
    obtain ⟨first, rest, key_shape, -, apart⟩ := key_text ((isValidTracestateKey_iff key).mp named).1
    obtain ⟨start, last, -, -, chars⟩ := value_text ((isValidTracestateValue_iff value).mp valued).1
    have absent : 0x3D ∉ key := fun mem => (apart _ mem).1 rfl
    have single := (one_separator_iff (u := 0x3D) raw.trim).mpr
      ⟨key, value, shape, key_shape ▸ cons_ne_nil _ _, absent, fun mem => (chars _ mem).2.2.2 rfl⟩
    obtain ⟨place, before, after⟩ := parts key value absent
    rw [if_neg single, shape, place, Int.toNat_natCast, before, after, named, valued, if_neg (by simp [other])]
    exact valid

def itemText (item : JsString × JsString) : JsString := item.1 ++ 0x3D :: item.2

theorem validMembers_iff {raws : List JsString} : ∀ {keys : List JsString}, validMembers raws keys = true ↔
    ∃ items : List (JsString × JsString), raws.map trim = items.map itemText ∧
      (∀ item ∈ items, isValidTracestateKey item.1 = true ∧ isValidTracestateValue item.2 = true) ∧
        (items.map Prod.fst).Nodup ∧ ∀ item ∈ items, item.1 ∉ keys := by
  induction raws with
  | nil =>
    intro keys
    refine iff_of_true rfl ⟨[], rfl, ?_, nodup_nil, ?_⟩
    · exact nofun
    · exact nofun
  | cons raw raws ih =>
    intro keys
    rw [validMembers_cons]
    constructor
    · rintro ⟨key, value, shape, named, valued, other, valid⟩
      obtain ⟨items, texts, all, unique, apart⟩ := ih.mp valid
      refine ⟨(key, value) :: items, ?_, forall_mem_cons.mpr ⟨⟨named, valued⟩, all⟩, ?_,
        forall_mem_cons.mpr ⟨other, fun item mem seen => apart item mem (mem_cons_of_mem key seen)⟩⟩
      · rw [map_cons, map_cons, shape, texts]
        rfl
      · refine nodup_cons.mpr ⟨fun mem => ?_, unique⟩
        obtain ⟨item, inside, same⟩ := mem_map.mp mem
        exact apart item inside (same ▸ mem_cons_self)
    · rintro ⟨items, texts, all, unique, apart⟩
      cases items with
      | nil => cases texts
      | cons item items =>
        obtain ⟨⟨named, valued⟩, later⟩ := forall_mem_cons.mp all
        obtain ⟨fresh, others⟩ := nodup_cons.mp unique
        obtain ⟨other, apart⟩ := forall_mem_cons.mp apart
        obtain ⟨shape, texts⟩ := List.cons.inj texts
        refine ⟨item.1, item.2, shape, named, valued, other, ih.mpr ⟨items, texts, later, others, ?_⟩⟩
        intro next mem seen
        rcases mem_cons.mp seen with same | seen
        · exact fresh (same ▸ mem_map_of_mem mem)
        · exact apart next mem seen

end loop

section texts

variable {blank : UInt16 → Bool} {s : JsString} {members : List (Option (JsString × JsString))}

def memberText (member : Option (JsString × JsString)) : JsString := (member.map itemText).getD []

theorem member_text {text : JsString} {member : Option (JsString × JsString)}
    (spaces : ∀ u, blank u = true → isWhiteSpace u = true) (h : ListMember blank text member) :
    text.trim = memberText member ∧ 0x2C ∉ text := by
  cases h with
  | item named valued =>
    obtain ⟨⟨first, rest, last, shape, starts, ends⟩, absent⟩ := item_text named valued
    refine ⟨?_, absent⟩
    rw [shape, trim_enclosed starts ends, ← shape]
    rfl
  | empty gap =>
    refine ⟨trim_eq_nil.mpr fun u mem => spaces u (gap u mem), fun mem => ?_⟩
    exact blank_not_comma (spaces _ (gap _ mem)) rfl

theorem listed_parts (spaces : ∀ u, blank u = true → isWhiteSpace u = true) (h : Listed blank s members) :
    ∀ lead : JsString, (∀ u ∈ lead, blank u = true) →
      ((lead ++ s).split 0x2C).map trim = members.map memberText := by
  have apart : ∀ gap : JsString, (∀ u ∈ gap, blank u = true) → 0x2C ∉ gap :=
    fun gap all mem => blank_not_comma (spaces _ (all _ mem)) rfl
  induction h with
  | one member =>
    intro lead gap
    obtain ⟨core, absent⟩ := member_text spaces member
    have whole : 0x2C ∉ lead ++ _ := fun mem => (mem_append.mp mem).elim (apart lead gap) absent
    rw [split_of_not_mem whole, map_singleton, map_singleton,
      trim_blank_append fun u mem => spaces u (gap u mem), core]
  | @more text before after rest member members first blanks gaps _ ih =>
    intro lead gap
    obtain ⟨core, absent⟩ := member_text spaces first
    have whole : 0x2C ∉ lead ++ (text ++ before) := by
      intro mem
      rcases mem_append.mp mem with mem | mem
      · exact apart lead gap mem
      · exact (mem_append.mp mem).elim absent (apart before blanks)
    have shape : lead ++ (text ++ before ++ 0x2C :: (after ++ rest)) =
        (lead ++ (text ++ before)) ++ 0x2C :: (after ++ rest) := (append_assoc _ _ _).symm
    rw [shape, split_append whole, map_cons, map_cons, ih after gaps,
      trim_blank_append fun u mem => spaces u (gap u mem),
      trim_append_blank fun u mem => spaces u (blanks u mem), core]

theorem listed_valid (h : Listed blank s members) :
    ∀ member ∈ members, ∀ item, member = some item → Key item.1 ∧ Value item.2 := by
  have valid : ∀ {text : JsString} {member : Option (JsString × JsString)}, ListMember blank text member →
      ∀ item, member = some item → Key item.1 ∧ Value item.2 := by
    intro text member h item same
    cases h with
    | item named valued =>
      rw [← Option.some.inj same]
      exact ⟨named, valued⟩
    | empty gap => cases same
  induction h with
  | one member =>
    intro found mem
    rw [mem_singleton.mp mem]
    exact valid member
  | more first _ _ _ ih => exact forall_mem_cons.mpr ⟨valid first, ih⟩

theorem listed_blank (space : blank 0x20 = true) (h : Listed blank s members) :
    ∀ u ∈ s, isWhiteSpace u = true → blank u = true := by
  have inside : ∀ {text : JsString} {member : Option (JsString × JsString)}, ListMember blank text member →
      ∀ u ∈ text, isWhiteSpace u = true → blank u = true := by
    intro text member h u mem white
    cases h with
    | @item key value named valued =>
      rcases mem_append.mp mem with mem | mem
      · rw [(key_visible named u mem).1] at white
        cases white
      · rcases mem_cons.mp mem with same | mem
        · rw [same] at white
          cases white
        · obtain ⟨start, last, -, -, chars⟩ := value_text valued
          rw [valueChar_blank (chars u mem) white]
          exact space
    | empty gap => exact gap u mem
  induction h with
  | one member => exact inside member
  | more first blanks gaps _ ih =>
    intro u mem white
    rcases mem_append.mp mem with mem | mem
    · exact (mem_append.mp mem).elim (fun mem => inside first u mem white) (blanks u)
    · rcases mem_cons.mp mem with same | mem
      · rw [same] at white
        cases white
      · exact (mem_append.mp mem).elim (gaps u) fun mem => ih u mem white

theorem listed_mono {blank' : UInt16 → Bool} (h : Listed blank s members)
    (more : ∀ u ∈ s, blank u = true → blank' u = true) : Listed blank' s members := by
  have member_mono : ∀ {text : JsString} {member : Option (JsString × JsString)}, ListMember blank text member →
      (∀ u ∈ text, blank u = true → blank' u = true) → ListMember blank' text member := by
    intro text member h more
    cases h with
    | item named valued => exact .item named valued
    | empty gap => exact .empty fun u mem => more u mem (gap u mem)
  induction h with
  | one member => exact .one (member_mono member more)
  | more first blanks gaps _ ih =>
    refine .more (member_mono first fun u mem => more u ?_) (fun u mem => more u ?_ (blanks u mem))
      (fun u mem => more u ?_ (gaps u mem)) (ih fun u mem => more u ?_)
    all_goals simp [mem]

theorem listed_trim (h : Listed blank s members) (full : none ∉ members) : s.trim = s ∧ s ≠ [] := by
  have enclosed : ∃ first rest last, s = first :: rest ++ [last] ∧ isWhiteSpace first = false ∧
      isWhiteSpace last = false := by
    have ends : ∀ {text : JsString} {member : Option (JsString × JsString)}, ListMember blank text member →
        member ≠ none → ∃ first rest last, text = first :: rest ++ [last] ∧ isWhiteSpace first = false ∧
          isWhiteSpace last = false := by
      intro text member h some_item
      cases h with
      | item named valued => exact (item_text named valued).1
      | empty gap => exact absurd rfl some_item
    induction h with
    | one member => exact ends member fun same => full (same ▸ mem_singleton_self _)
    | @more text before after rest member members head blanks gaps _ ih =>
      obtain ⟨first, inner, last, shape, visible, -⟩ := ends head fun same => full (same ▸ mem_cons_self)
      obtain ⟨first', inner', last', shape', -, visible'⟩ := ih fun mem => full (mem_cons_of_mem _ mem)
      refine ⟨first, inner ++ last :: (before ++ 0x2C :: (after ++ first' :: inner')), last', ?_, visible, visible'⟩
      rw [shape, shape']
      simp
  obtain ⟨first, rest, last, shape, starts, ends⟩ := enclosed
  rw [shape]
  exact ⟨trim_enclosed starts ends rest, cons_ne_nil _ _⟩

theorem trim_parts (s : JsString) : ∃ lead trail, s = lead ++ s.trim ++ trail ∧
    (∀ u ∈ lead, isWhiteSpace u = true) ∧ ∀ u ∈ trail, isWhiteSpace u = true := by
  have start := takeWhile_append_dropWhile (p := isWhiteSpace) (l := s)
  have ends := rdropWhile_append_rtakeWhile (p := isWhiteSpace) (l := s.dropWhile isWhiteSpace)
  refine ⟨s.takeWhile isWhiteSpace, (s.dropWhile isWhiteSpace).rtakeWhile isWhiteSpace, ?_,
    fun u mem => mem_takeWhile_imp mem, fun u mem => mem_rtakeWhile_imp mem⟩
  rw [append_assoc]
  show s = s.takeWhile isWhiteSpace ++
    ((s.dropWhile isWhiteSpace).rdropWhile isWhiteSpace ++ (s.dropWhile isWhiteSpace).rtakeWhile isWhiteSpace)
  rw [ends, start]

theorem listed_of_parts {items : List (JsString × JsString)}
    (valid : ∀ item ∈ items, Key item.1 ∧ Value item.2) : ∀ {s : JsString},
      (s.split 0x2C).map trim = items.map itemText → (∀ u, s.getLast? = some u → isWhiteSpace u = false) →
        ∃ lead rest, s = lead ++ rest ∧ (∀ u ∈ lead, isWhiteSpace u = true) ∧
          Listed isWhiteSpace rest (items.map some) := by
  induction items with
  | nil =>
    intro s parts _
    exact absurd (map_eq_nil_iff.mp parts) (split_ne_nil _ s)
  | cons item items ih =>
    intro s parts ends
    obtain ⟨⟨named, valued⟩, later⟩ := forall_mem_cons.mp valid
    by_cases comma : 0x2C ∈ s
    · obtain ⟨part, more, shape, absent⟩ := eq_append_cons_of_mem comma
      rw [shape, split_append absent] at parts
      obtain ⟨first, others⟩ := List.cons.inj parts
      have more_ends : ∀ u, more.getLast? = some u → isWhiteSpace u = false := by
        intro u last
        apply ends u
        rw [shape, getLast?_append, getLast?_cons, last]
        rfl
      obtain ⟨after, rest, more_shape, gaps, listed⟩ := ih later others more_ends
      obtain ⟨lead, before, part_shape, leads, blanks⟩ := trim_parts part
      rw [first] at part_shape
      refine ⟨lead, itemText item ++ before ++ 0x2C :: (after ++ rest), ?_, leads,
        .more (.item named valued) blanks gaps listed⟩
      rw [shape, part_shape, more_shape]
      simp
    · rw [split_of_not_mem comma] at parts
      obtain ⟨first, others⟩ := List.cons.inj parts
      have alone : items = [] := map_eq_nil_iff.mp others.symm
      obtain ⟨lead, trail, shape, leads, blanks⟩ := trim_parts s
      have none_left : trail = [] := by
        cases last : trail.getLast? with
        | none => exact getLast?_eq_none_iff.mp last
        | some u =>
          have visible := ends u (by rw [shape, getLast?_append, last]; rfl)
          rw [blanks u (mem_of_getLast? last)] at visible
          cases visible
      rw [none_left, append_nil, first] at shape
      rw [alone]
      exact ⟨lead, itemText item, shape, leads, .one (.item named valued)⟩

theorem member_of_text {item : JsString × JsString} {member : Option (JsString × JsString)}
    (valid : ∀ item, member = some item → Key item.1) (named : Key item.1)
    (same : memberText member = itemText item) : member = some item := by
  cases member with
  | none =>
    have lengths := congrArg length same
    unfold itemText at lengths
    rw [length_append, length_cons] at lengths
    change 0 = _ at lengths
    omega
  | some other =>
    obtain ⟨-, -, -, -, apart⟩ := key_text named
    obtain ⟨-, -, -, -, apart'⟩ := key_text (valid other rfl)
    change other.1 ++ 0x3D :: other.2 = item.1 ++ 0x3D :: item.2 at same
    have places := congrArg (fun s => indexOf s 0x3D) same
    change indexOf (other.1 ++ 0x3D :: other.2) 0x3D = indexOf (item.1 ++ 0x3D :: item.2) 0x3D at places
    rw [indexOf_append fun mem => (apart' _ mem).1 rfl, indexOf_append fun mem => (apart _ mem).1 rfl] at places
    obtain ⟨keys, values⟩ := append_inj same (Int.ofNat.inj places)
    exact congrArg some (Prod.ext keys (List.cons.inj values).2)

theorem trim_ends {u : UInt16} (h : s.trim.getLast? = some u) : isWhiteSpace u = false := by
  have some_unit : s.trim ≠ [] := fun empty => by
    rw [empty] at h
    cases h
  have visible := rdropWhile_last_not isWhiteSpace (s.dropWhile isWhiteSpace) some_unit
  rw [getLast?_eq_some_getLast some_unit] at h
  rw [← Option.some.inj h]
  exact Bool.not_eq_true _ ▸ visible

end texts

theorem keys_items (items : List (JsString × JsString)) :
    (items.map some).filterMap (fun member => member.map Prod.fst) = items.map Prod.fst := by
  rw [filterMap_map]
  exact congrFun filterMap_eq_map items

theorem items_of_full {members : List (Option (JsString × JsString))} (full : none ∉ members) :
    ∃ items : List (JsString × JsString), members = items.map some := by
  induction members with
  | nil => exact ⟨[], rfl⟩
  | cons member members ih =>
    obtain ⟨items, same⟩ := ih fun mem => full (mem_cons_of_mem member mem)
    cases member with
    | none => exact absurd mem_cons_self full
    | some item => exact ⟨item :: items, congrArg (some item :: ·) same⟩

theorem isValidTracestate_iff (s : JsString) : isValidTracestate s = true ↔
    ∃ members, IsList isWhiteSpace s members ∧ ∀ member ∈ members, Supported member := by
  unfold isValidTracestate
  constructor
  · intro accepted
    by_cases refused : s.length = 0 ∨ 512 < s.length ∨ s.trim ≠ s
    · rw [if_pos refused] at accepted
      cases accepted
    rw [if_neg refused] at accepted
    by_cases many : 32 < (s.split 0x2C).length
    · rw [if_pos many] at accepted
      cases accepted
    rw [if_neg many] at accepted
    push Not at refused
    obtain ⟨-, short, trimmed⟩ := refused
    obtain ⟨items, texts, all, unique, -⟩ := validMembers_iff.mp accepted
    have valid : ∀ item ∈ items, Key item.1 ∧ Value item.2 := fun item mem =>
      ⟨((isValidTracestateKey_iff _).mp (all item mem).1).1, ((isValidTracestateValue_iff _).mp (all item mem).2).1⟩
    obtain ⟨lead, rest, shape, leads, listed⟩ := listed_of_parts valid texts fun u last =>
      trim_ends (s := s) (trimmed.symm ▸ last)
    have none_before : lead = [] := by
      cases lead with
      | nil => rfl
      | cons u lead =>
        rw [← trimmed] at shape
        have visible := trim_head shape
        rw [leads u mem_cons_self] at visible
        cases visible
    rw [none_before, nil_append] at shape
    have count := congrArg length texts
    rw [length_map, length_map] at count
    refine ⟨items.map some, ⟨shape ▸ listed, short, by rw [length_map]; omega, ?_⟩, ?_⟩
    · rw [keys_items]
      exact unique
    · intro member mem
      obtain ⟨item, inside, same⟩ := mem_map.mp mem
      exact ⟨item.1, item.2, same.symm, ((isValidTracestateKey_iff _).mp (all item inside).1).2,
        ((isValidTracestateValue_iff _).mp (all item inside).2).2⟩
  · rintro ⟨members, list, known⟩
    have full : none ∉ members := fun mem => by
      obtain ⟨key, value, same, -⟩ := known none mem
      cases same
    obtain ⟨items, shape⟩ := items_of_full full
    obtain ⟨trimmed, some_unit⟩ := listed_trim list.listed full
    have parts := listed_parts (fun _ blank => blank) list.listed [] nofun
    have valid := listed_valid list.listed
    have few := list.few
    have unique := list.unique
    rw [shape] at parts few unique
    rw [keys_items] at unique
    rw [nil_append, map_map] at parts
    have count := congrArg length parts
    rw [length_map, length_map] at count
    rw [length_map] at few
    have positive := length_pos_iff.mpr some_unit
    have short := list.short
    have kept : ¬(s.length = 0 ∨ 512 < s.length ∨ s.trim ≠ s) := by
      rintro (empty | long | outer)
      · omega
      · omega
      · exact outer trimmed
    rw [if_neg kept, if_neg (by omega), validMembers_iff]
    refine ⟨items, parts, fun item mem => ?_, unique, fun _ _ => not_mem_nil⟩
    have inside : some item ∈ members := shape ▸ mem_map_of_mem mem
    obtain ⟨named, valued⟩ := valid _ inside item rfl
    obtain ⟨key, value, same, plain, starts⟩ := known _ inside
    rw [Option.some.inj same] at named valued ⊢
    exact ⟨(isValidTracestateKey_iff _).mpr ⟨named, plain⟩, (isValidTracestateValue_iff _).mpr ⟨valued, starts⟩⟩

theorem members_known {s : JsString} {members others : List (Option (JsString × JsString))}
    (h : Listed isOws s members) (h' : Listed isWhiteSpace s others) (known : ∀ member ∈ others, Supported member) :
    ∀ member ∈ members, Supported member := by
  have parts := listed_parts (fun _ => isOws_blank) h [] nofun
  have parts' := listed_parts (fun _ blank => blank) h' [] nofun
  intro member mem
  have text : memberText member ∈ others.map memberText := by
    rw [← parts', parts]
    exact mem_map_of_mem mem
  obtain ⟨other, inside, same⟩ := mem_map.mp text
  have supported := known other inside
  obtain ⟨key, value, item, -⟩ := supported
  have named := listed_valid h' other inside (key, value) item
  have found := @member_of_text (key, value) member (fun item same => (listed_valid h member mem item same).1) named.1
    (by rw [← same, item]; rfl)
  rw [found, ← item]
  exact known other inside

end Tracestate

open Tracestate

/-- The code agrees with the grammar on a string where no list has other white space than spaces and tabs, and
no list of the grammar has a member that the code does not know. -/
theorem tracestate_w3c_iff (s : JsString) : (isValidTracestate s = true ↔ W3c s) ↔
      (∀ members, IsList isWhiteSpace s members → (∀ member ∈ members, Supported member) →
          ∀ u ∈ s, isWhiteSpace u = true → isOws u = true) ∧
        ∀ members, IsList isOws s members → ∀ member ∈ members, Supported member := by
  have space : isOws 0x20 = true := rfl
  rw [isValidTracestate_iff]
  constructor
  · intro agree
    constructor
    · intro members list known
      obtain ⟨others, w3c⟩ := agree.mp ⟨members, list, known⟩
      exact listed_blank space w3c.listed
    · intro members list
      obtain ⟨others, lax, known⟩ := agree.mpr ⟨members, list⟩
      exact members_known list.listed lax.listed known
  · rintro ⟨narrow, known⟩
    constructor
    · rintro ⟨members, list, all⟩
      exact ⟨members, listed_mono list.listed (narrow members list all), list.short, list.few, list.unique⟩
    · rintro ⟨members, list⟩
      have lax := listed_mono list.listed fun u _ => isOws_blank
      exact ⟨members, ⟨lax, list.short, list.few, list.unique⟩, known members list⟩

/-- A key with a slash is one of the grammar. -/
theorem slash_refused : ¬∀ s, isValidTracestate s = true ↔ W3c s := by
  intro agree
  have list : W3c (js "a/b=1") := by
    refine ⟨[some (js "a/b", js "1")], ?_, by decide, by decide, by decide⟩
    have key : Key (js "a/b") := @Key.simple 0x61 [0x2F, 0x62] (by decide) (by decide)
      (List.forall_mem_cons.mpr ⟨.inr (.inr rfl), List.forall_mem_singleton.mpr (.inl (by decide))⟩)
    have value : Value (js "1") := ((isValidTracestateValue_iff (js "1")).mp (by decide)).1
    exact .one (.item key value)
  have refused : isValidTracestate (js "a/b=1") = false := by decide
  have accepted := (agree _).mpr list
  rw [refused] at accepted
  cases accepted

end ForgeDeno
