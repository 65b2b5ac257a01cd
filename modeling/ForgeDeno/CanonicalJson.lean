import ForgeDeno.AbiRoundTrip
import ForgeDeno.IsoTime
import ForgeDeno.MemberRules

namespace JsString

open JsNumber

theorem unitsLe_iff (a b : JsString) : unitsLe a b = true ↔ ¬units b < units a := by
  induction a generalizing b with
  | nil => exact iff_of_true rfl (List.not_lt_nil _)
  | cons u a ih =>
    cases b with
    | nil => exact iff_of_false Bool.false_ne_true fun h => h (List.nil_lt_cons _ _)
    | cons v b =>
      have heads : units (v :: b) < units (u :: a) ↔
          v.toNat < u.toNat ∨ v.toNat = u.toNat ∧ units b < units a := List.cons_lt_cons_iff
      rw [heads, unitsLe]
      by_cases same : u = v
      · rw [if_pos same, ih b, same]
        simp
      · have differ : u.toNat ≠ v.toNat := fun eq => same (UInt16.toNat_inj.mp eq)
        rw [if_neg same, decide_eq_true_iff, UInt16.lt_iff_toNat_lt]
        omega

theorem unitsLe_total (a b : JsString) : unitsLe a b = true ∨ unitsLe b a = true := by
  rw [unitsLe_iff, unitsLe_iff]
  exact (le_total (units a) (units b)).imp not_lt.mpr not_lt.mpr

theorem unitsLe_trans {a b c : JsString} (first : unitsLe a b = true) (second : unitsLe b c = true) :
    unitsLe a c = true := by
  rw [unitsLe_iff] at first second ⊢
  exact not_lt.mpr (le_trans (not_lt.mp first) (not_lt.mp second))

theorem unitsLe_antisymm {a b : JsString} (le : unitsLe a b = true) (ge : unitsLe b a = true) : a = b := by
  rw [unitsLe_iff] at le ge
  exact units_injective (le_antisymm (not_lt.mp le) (not_lt.mp ge))

end JsString

namespace Double

theorem magnitude_pos {x : Double} (ne : x.mantissa ≠ 0) : 0 < x.magnitude :=
  mul_pos (by exact_mod_cast Nat.pos_of_ne_zero ne) (scale_pos _)

theorem toRat_zero {x : Double} : x.toRat = 0 ↔ x.mantissa = 0 := by
  constructor
  · intro zero
    by_contra ne
    have positive := magnitude_pos ne
    have size := abs_toRat x
    rw [zero, abs_zero] at size
    exact absurd size positive.ne
  · intro zero
    simp [toRat, magnitude, zero]

theorem eq_of_toRat {x y : Double} (ne : x.mantissa ≠ 0) (same : x.toRat = y.toRat) : x = y := by
  have ne' : y.mantissa ≠ 0 := by
    rw [Ne, ← toRat_zero, ← same, toRat_zero]
    exact ne
  have size : x.magnitude = y.magnitude := by rw [← abs_toRat, ← abs_toRat, same]
  have sign : x.negative = y.negative := by
    have positive := magnitude_pos ne
    have positive' := magnitude_pos ne'
    simp only [toRat] at same
    cases negative : x.negative <;> cases negative' : y.negative
    · rfl
    · simp only [negative, negative', Bool.false_eq_true, if_true, if_false] at same
      linarith
    · simp only [negative, negative', Bool.false_eq_true, if_true, if_false] at same
      linarith
    · rfl
  have reads : ∀ z : Double, z.mantissa ≠ 0 →
      JsNumber.ofRat z.magnitude false = .finite { z with negative := false } := by
    intro z hz
    have positive := magnitude_pos hz
    refine JsNumber.ofRat_near (x := { z with negative := false }) rfl hz ?_ false
    have distance : z.magnitude - ({ z with negative := false } : Double).magnitude = 0 := sub_self _
    rw [distance, abs_zero, mul_zero]
    exact positive
  have whole := reads x ne
  rw [size, reads y ne'] at whole
  have parts := JsNumber.finite.inj whole
  obtain ⟨negative, mantissa, exponent, canonical⟩ := x
  obtain ⟨negative', mantissa', exponent', canonical'⟩ := y
  cases sign
  cases parts
  rfl

end Double

theorem JsNumber.plusZero_eq_iff {m n : JsNumber} (hm : m.isFinite = true) (hn : n.isFinite = true) :
    m.plusZero = n.plusZero ↔ m.eq n = true := by
  obtain ⟨x, rfl⟩ := JsonText.finite_of_isFinite hm
  obtain ⟨y, rfl⟩ := JsonText.finite_of_isFinite hn
  have numeric : (finite x).eq (.finite y) = true ↔ x.toRat = y.toRat := decide_eq_true_iff
  rw [numeric, plusZero, plusZero]
  by_cases zero : x.mantissa = 0
  · have value := Double.toRat_zero.mpr zero
    rw [if_pos zero, value, eq_comm (a := (0 : ℚ)), Double.toRat_zero]
    by_cases zero' : y.mantissa = 0
    · rw [if_pos zero']
      exact iff_of_true rfl zero'
    · rw [if_neg zero']
      refine iff_of_false (fun h => zero' ?_) zero'
      rw [← finite.inj h]
      rfl
  · rw [if_neg zero]
    by_cases zero' : y.mantissa = 0
    · rw [if_pos zero']
      refine iff_of_false (fun h => zero ?_) (fun h => zero ?_)
      · rw [finite.inj h]
        rfl
      · rw [Double.toRat_zero.mpr zero', Double.toRat_zero] at h
        exact h
    · rw [if_neg zero', finite.injEq]
      exact ⟨congrArg Double.toRat, Double.eq_of_toRat zero⟩

namespace ForgeDeno

section entries

variable {α β : Type}

def fromEntries (entries : List (JsString × α)) : List (JsString × α) :=
  entries.foldl (fun acc entry => setMember acc entry.1 entry.2) []

def sortEntries (entries : List (JsString × α)) : List (JsString × α) :=
  entries.insertionSort fun a b => JsString.unitsLe a.1 b.1

theorem lookupMember_iff {members : List (JsString × α)} (unique : (members.map Prod.fst).Nodup)
    {key : JsString} {item : α} : lookupMember members key = some item ↔ (key, item) ∈ members := by
  induction members with
  | nil => exact iff_of_false nofun List.not_mem_nil
  | cons member members ih =>
    obtain ⟨fresh, rest⟩ := List.nodup_cons.mp unique
    rw [lookupMember_cons, List.mem_cons]
    by_cases here : member.1 = key
    · rw [if_pos here]
      constructor
      · intro found
        rw [← Option.some.inj found, ← here]
        exact .inl rfl
      · rintro (rfl | later)
        · rfl
        · exact absurd (List.mem_map_of_mem later) (here ▸ fresh)
    · rw [if_neg here, ih rest, or_iff_right]
      rintro rfl
      exact here rfl

theorem sortEntries_perm (entries : List (JsString × α)) : (sortEntries entries).Perm entries :=
  List.perm_insertionSort _ entries

theorem sortEntries_sorted (entries : List (JsString × α)) :
    (sortEntries entries).Pairwise fun a b => JsString.unitsLe a.1 b.1 = true := by
  have total : Std.Total fun a b : JsString × α => JsString.unitsLe a.1 b.1 = true :=
    ⟨fun a b => JsString.unitsLe_total a.1 b.1⟩
  have transitive : IsTrans _ fun a b : JsString × α => JsString.unitsLe a.1 b.1 = true :=
    ⟨fun _ _ _ => JsString.unitsLe_trans⟩
  exact List.pairwise_insertionSort _ entries

theorem sortEntries_congr {a b : List (JsString × α)} (ha : (a.map Prod.fst).Nodup)
    (hb : (b.map Prod.fst).Nodup) (same : ∀ key, lookupMember a key = lookupMember b key) :
    sortEntries a = sortEntries b := by
  have members : ∀ entry, entry ∈ a ↔ entry ∈ b := by
    rintro ⟨key, item⟩
    rw [← lookupMember_iff ha, ← lookupMember_iff hb, same]
  have perm : a.Perm b :=
    (List.perm_ext_iff_of_nodup (List.Nodup.of_map _ ha) (List.Nodup.of_map _ hb)).mpr members
  apply List.Perm.eq_of_pairwise _ (sortEntries_sorted a) (sortEntries_sorted b)
    ((sortEntries_perm a).trans (perm.trans (sortEntries_perm b).symm))
  rintro ⟨key, item⟩ ⟨key', item'⟩ first second le ge
  have keys : key = key' := JsString.unitsLe_antisymm le ge
  have found := (lookupMember_iff ha).mpr ((sortEntries_perm a).subset first)
  have found' := (lookupMember_iff hb).mpr ((sortEntries_perm b).subset second)
  rw [← keys, ← same, found] at found'
  rw [keys, Option.some.inj found']

theorem lookupMember_foldl (entries done : List (JsString × α))
    (unique : (entries.map Prod.fst).Nodup) (key : JsString) :
    lookupMember (entries.foldl (fun acc entry => setMember acc entry.1 entry.2) done) key =
      (lookupMember entries key).or (lookupMember done key) := by
  induction entries generalizing done with
  | nil => rfl
  | cons entry entries ih =>
    obtain ⟨fresh, rest⟩ := List.nodup_cons.mp unique
    rw [List.foldl_cons, ih _ rest, lookupMember_setMember, lookupMember_cons]
    by_cases here : entry.1 = key
    · have missing : lookupMember entries key = none := by
        cases found : lookupMember entries key with
        | none => rfl
        | some item =>
          have mem := List.mem_map_of_mem (f := Prod.fst) ((lookupMember_iff rest).mp found)
          exact absurd mem (here ▸ fresh)
      rw [if_pos here.symm, if_pos here, missing]
      rfl
    · rw [if_neg (Ne.symm here), if_neg here]

theorem lookupMember_sorted {entries : List (JsString × α)}
    (unique : (entries.map Prod.fst).Nodup) (key : JsString) :
    lookupMember (fromEntries (sortEntries entries)) key = lookupMember entries key := by
  have sorted : ((sortEntries entries).map Prod.fst).Nodup :=
    ((sortEntries_perm entries).map Prod.fst).nodup_iff.mpr unique
  rw [fromEntries, lookupMember_foldl _ _ sorted]
  have absent : lookupMember ([] : List (JsString × α)) key = none := rfl
  rw [absent, Option.or_none]
  apply Option.ext
  intro item
  rw [lookupMember_iff sorted, lookupMember_iff unique, (sortEntries_perm entries).mem_iff]

def mapValues (f : α → β) (members : List (JsString × α)) : List (JsString × β) :=
  members.map fun member => (member.1, f member.2)

theorem mapValues_keys (f : α → β) (members : List (JsString × α)) :
    (mapValues f members).map Prod.fst = members.map Prod.fst := by
  rw [mapValues, List.map_map]
  rfl

theorem lookupMember_mapValues (f : α → β) (members : List (JsString × α)) (key : JsString) :
    lookupMember (mapValues f members) key = (lookupMember members key).map f := by
  induction members with
  | nil => rfl
  | cons member members ih =>
    have front : mapValues f (member :: members) = (member.1, f member.2) :: mapValues f members := rfl
    rw [front, lookupMember_cons, lookupMember_cons, ih]
    split <;> rfl

theorem sortEntries_mapValues (f : α → β) (entries : List (JsString × α)) :
    sortEntries (mapValues f entries) = mapValues f (sortEntries entries) :=
  (List.map_insertionSort (fun a b : JsString × α => JsString.unitsLe a.1 b.1 = true)
    (fun a b : JsString × β => JsString.unitsLe a.1 b.1 = true) (fun entry => (entry.1, f entry.2))
    entries fun _ _ _ _ => Iff.rfl).symm

theorem setMember_mapValues (f : α → β) (members : List (JsString × α)) (key : JsString) (item : α) :
    setMember (mapValues f members) key (f item) = mapValues f (setMember members key item) := by
  unfold setMember
  rw [lookupMember_mapValues, Option.isSome_map]
  split
  next =>
    rw [mapValues, mapValues, List.map_map, List.map_map]
    apply List.map_congr_left
    intro member _
    by_cases here : member.1 = key
    · simp [here]
    · simp [here]
  next =>
    split
    next => rw [mapValues, mapValues, List.map_append]; rfl
    next index _ =>
      have front : ((mapValues f members).takeWhile (numberedBelow index)) =
          mapValues f (members.takeWhile (numberedBelow index)) := by
        rw [mapValues, List.takeWhile_map]
        rfl
      change (mapValues f members).takeWhile (numberedBelow index) ++ (key, f item) ::
        (mapValues f members).drop ((mapValues f members).takeWhile (numberedBelow index)).length =
          mapValues f (members.takeWhile (numberedBelow index) ++ (key, item) ::
            members.drop (members.takeWhile (numberedBelow index)).length)
      rw [front]
      simp [mapValues]

theorem fromEntries_mapValues (f : α → β) (entries : List (JsString × α)) :
    fromEntries (mapValues f entries) = mapValues f (fromEntries entries) := by
  have go : ∀ done : List (JsString × α),
      (mapValues f entries).foldl (fun acc entry => setMember acc entry.1 entry.2) (mapValues f done)
        = mapValues f (entries.foldl (fun acc entry => setMember acc entry.1 entry.2) done) := by
    induction entries with
    | nil => exact fun done => rfl
    | cons entry entries ih =>
      intro done
      have front : mapValues f (entry :: entries) = (entry.1, f entry.2) :: mapValues f entries := rfl
      rw [front, List.foldl_cons, List.foldl_cons, setMember_mapValues, ih]
  exact go []

end entries

open JsonValue

mutual

/-- What the replacer of `canonical` leaves of a value, at every level. -/
def replaced : JsonValue → JsonValue
  | .null => .null
  | .bool b => .bool b
  | .number n => .number n
  | .string s => .string s
  | .array items => .array (replacedItems items)
  | .object members => .object (fromEntries (sortEntries (replacedMembers members)))

def replacedItems : List JsonValue → List JsonValue
  | [] => []
  | item :: items => replaced item :: replacedItems items

def replacedMembers : List (JsString × JsonValue) → List (JsString × JsonValue)
  | [] => []
  | member :: members => replacedMember member :: replacedMembers members

def replacedMember : JsString × JsonValue → JsString × JsonValue
  | (key, item) => (key, replaced item)

end

def canonical (value : JsonValue) : JsString :=
  (JsonText.stringify (replaced value).toJs).getD []

inductive SameJson : JsonValue → JsonValue → Prop
  | null : SameJson .null .null
  | bool (b : Bool) : SameJson (.bool b) (.bool b)
  | number {m n : JsNumber} : m.eq n = true → SameJson (.number m) (.number n)
  | string (s : JsString) : SameJson (.string s) (.string s)
  | array {items others : List JsonValue} : items.length = others.length →
      (∀ (i : Nat) v w, items[i]? = some v → others[i]? = some w → SameJson v w) →
        SameJson (.array items) (.array others)
  | object {members others : List (JsString × JsonValue)} :
      (∀ key, (lookupMember members key).isSome = (lookupMember others key).isSome) →
        (∀ key v w, lookupMember members key = some v → lookupMember others key = some w →
          SameJson v w) → SameJson (.object members) (.object others)

theorem replacedItems_map (items : List JsonValue) : replacedItems items = items.map replaced := by
  induction items with
  | nil => rfl
  | cons item items ih => rw [replacedItems, ih, List.map_cons]

theorem replacedMembers_map (members : List (JsString × JsonValue)) :
    replacedMembers members = mapValues replaced members := by
  induction members with
  | nil => rfl
  | cons member members ih =>
    obtain ⟨key, item⟩ := member
    rw [replacedMembers, ih]
    rfl

def denoted (v : JsonValue) : JsonValue := (replaced v).plusZero

theorem denoted_array (items : List JsonValue) : denoted (.array items) = .array (items.map denoted) := by
  show JsonValue.array (itemsPlusZero (replacedItems items)) = _
  rw [replacedItems_map, itemsPlusZero_map, List.map_map]
  rfl

theorem denoted_object (members : List (JsString × JsonValue)) :
    denoted (.object members) = .object (fromEntries (sortEntries (mapValues denoted members))) := by
  show JsonValue.object (membersPlusZero (fromEntries (sortEntries (replacedMembers members)))) = _
  have zeros : ∀ l : List (JsString × JsonValue), membersPlusZero l = mapValues plusZero l :=
    membersPlusZero_map
  rw [zeros, replacedMembers_map, ← fromEntries_mapValues, ← sortEntries_mapValues]
  have both : mapValues plusZero (mapValues replaced members) = mapValues denoted members := by
    rw [mapValues, mapValues, List.map_map]
    rfl
  rw [both]

theorem nodup_of_ordered {names : List JsString}
    (ordered : names.Pairwise fun a b => precedes a b = true) : names.Nodup := by
  refine ordered.imp ?_
  intro a b before
  exact of_decide_eq_true (Bool.and_eq_true_iff.mp before).1

theorem fromEntries_ordered {α : Type} (entries : List (JsString × α)) :
    ((fromEntries entries).map Prod.fst).Pairwise fun a b => precedes a b = true := by
  have go : ∀ done : List (JsString × α),
      ((done.map Prod.fst).Pairwise fun a b => precedes a b = true) →
        ((entries.foldl (fun acc entry => setMember acc entry.1 entry.2) done).map
          Prod.fst).Pairwise fun a b => precedes a b = true := by
    induction entries with
    | nil => exact fun done h => h
    | cons entry entries ih => exact fun done h => ih _ (setMember_ordered h entry.2)
  exact go [] .nil

theorem mem_fromEntries {α : Type} {entries : List (JsString × α)} {entry : JsString × α}
    (mem : entry ∈ fromEntries entries) : entry ∈ entries := by
  have go : ∀ done : List (JsString × α),
      entry ∈ entries.foldl (fun acc entry => setMember acc entry.1 entry.2) done →
        entry ∈ entries ∨ entry ∈ done := by
    clear mem
    induction entries with
    | nil => exact fun done h => .inr h
    | cons first entries ih =>
      intro done h
      rcases ih _ h with later | set
      · exact .inl (List.mem_cons_of_mem first later)
      · rcases mem_setMember set with before | rfl
        · exact .inr before
        · exact .inl List.mem_cons_self
  rcases go [] mem with inside | none
  · exact inside
  · cases none

mutual

theorem replaced_wellFormed : ∀ v : JsonValue, v.WellFormed → (replaced v).WellFormed
  | .null, _ => trivial
  | .bool _, _ => trivial
  | .number _, finite => finite
  | .string _, _ => trivial
  | .array items, wf => by
    show ItemsWellFormed (replacedItems items)
    rw [replacedItems_map, itemsWellFormed_iff, List.forall_mem_map]
    exact replacedItems_wellFormed items wf
  | .object members, wf => by
    refine ⟨fromEntries_ordered _, ?_⟩
    rw [membersWellFormed_iff, replacedMembers_map]
    intro member mem
    have inside := (sortEntries_perm _).subset (mem_fromEntries mem)
    obtain ⟨origin, before, rfl⟩ := List.mem_map.mp inside
    exact replacedMembers_wellFormed members wf.2 origin before

theorem replacedItems_wellFormed : ∀ items : List JsonValue, ItemsWellFormed items →
    ∀ item ∈ items, (replaced item).WellFormed
  | [], _, _, mem => absurd mem List.not_mem_nil
  | first :: items, wf, item, mem => by
    rcases List.mem_cons.mp mem with same | later
    · rw [same]
      exact replaced_wellFormed first wf.1
    · exact replacedItems_wellFormed items wf.2 item later

theorem replacedMembers_wellFormed : ∀ members : List (JsString × JsonValue),
    MembersWellFormed members → ∀ member ∈ members, (replaced member.2).WellFormed
  | [], _, _, mem => absurd mem List.not_mem_nil
  | (key, item) :: members, wf, member, mem => by
    rcases List.mem_cons.mp mem with same | later
    · rw [same]
      exact replaced_wellFormed item wf.1
    · exact replacedMembers_wellFormed members wf.2 member later

end

theorem canonical_eq_iff {x y : JsonValue} (hx : x.WellFormed) (hy : y.WellFormed) :
    canonical x = canonical y ↔ denoted x = denoted y := by
  have text_of : ∀ v : JsonValue, canonical v = (replaced v).text := by
    intro v
    rw [canonical, JsonText.stringify_toJs]
    rfl
  rw [text_of, text_of]
  constructor
  · intro same
    have read := JsonText.parse_text (replaced_wellFormed x hx)
    rw [same, JsonText.parse_text (replaced_wellFormed y hy)] at read
    exact (Option.some.inj read).symm
  · intro same
    rw [← text_plusZero (replaced x), ← text_plusZero (replaced y)]
    exact congrArg JsonValue.text same

theorem denoted_lookup {members : List (JsString × JsonValue)}
    (unique : (members.map Prod.fst).Nodup) (key : JsString) :
    lookupMember (fromEntries (sortEntries (mapValues denoted members))) key =
      (lookupMember members key).map denoted := by
  rw [lookupMember_sorted (by rwa [mapValues_keys]), lookupMember_mapValues]

mutual

theorem same_of_denoted : ∀ x y : JsonValue, x.WellFormed → y.WellFormed → denoted x = denoted y → SameJson x y
  | .null, y, _, _, eq => by
    cases y with
    | null => exact .null
    | bool _ | number _ | string _ | array _ | object _ => cases eq
  | .bool b, y, _, _, eq => by
    cases y with
    | bool _ => cases eq; exact .bool b
    | null | number _ | string _ | array _ | object _ => cases eq
  | .number n, y, wf, wf', eq => by
    cases y with
    | number m => exact .number ((JsNumber.plusZero_eq_iff wf wf').mp (JsonValue.number.inj eq))
    | null | bool _ | string _ | array _ | object _ => cases eq
  | .string s, y, _, _, eq => by
    cases y with
    | string _ => cases eq; exact .string s
    | null | bool _ | number _ | array _ | object _ => cases eq
  | .array items, y, wf, wf', eq => by
    cases y with
    | array others =>
      rw [denoted_array, denoted_array] at eq
      have maps := JsonValue.array.inj eq
      refine .array (by simpa using congrArg List.length maps) ?_
      intro i v w at_left at_right
      have here := congrArg (fun l : List JsonValue => l[i]?) maps
      simp only [List.getElem?_map, at_left, at_right, Option.map_some] at here
      exact same_of_denoted_items items wf v (List.mem_of_getElem? at_left) w
        ((itemsWellFormed_iff others).mp wf' w (List.mem_of_getElem? at_right)) (Option.some.inj here)
    | null | bool _ | number _ | string _ | object _ => cases eq
  | .object members, y, wf, wf', eq => by
    cases y with
    | object others =>
      rw [denoted_object, denoted_object] at eq
      have lookups : ∀ key, (lookupMember members key).map denoted =
          (lookupMember others key).map denoted := by
        intro key
        rw [← denoted_lookup (nodup_of_ordered wf.1), ← denoted_lookup (nodup_of_ordered wf'.1),
          JsonValue.object.inj eq]
      refine .object (fun key => by simpa using congrArg Option.isSome (lookups key)) ?_
      intro key v w at_left at_right
      have here := lookups key
      rw [at_left, at_right] at here
      exact same_of_denoted_members members wf.2 (key, v) (lookupMember_mem at_left) w
        ((membersWellFormed_iff others).mp wf'.2 (key, w) (lookupMember_mem at_right))
        (Option.some.inj here)
    | null | bool _ | number _ | string _ | array _ => cases eq

theorem same_of_denoted_items : ∀ items : List JsonValue, ItemsWellFormed items →
    ∀ item ∈ items, ∀ y : JsonValue, y.WellFormed → denoted item = denoted y → SameJson item y
  | [], _, _, mem, _, _, _ => absurd mem List.not_mem_nil
  | first :: items, wf, item, mem, y, wf', eq => by
    rcases List.mem_cons.mp mem with same | later
    · rw [same] at eq ⊢
      exact same_of_denoted first y wf.1 wf' eq
    · exact same_of_denoted_items items wf.2 item later y wf' eq

theorem same_of_denoted_members : ∀ members : List (JsString × JsonValue),
    MembersWellFormed members → ∀ member ∈ members, ∀ y : JsonValue, y.WellFormed →
      denoted member.2 = denoted y → SameJson member.2 y
  | [], _, _, mem, _, _, _ => absurd mem List.not_mem_nil
  | (key, item) :: members, wf, member, mem, y, wf', eq => by
    rcases List.mem_cons.mp mem with same | later
    · rw [same] at eq ⊢
      exact same_of_denoted item y wf.1 wf' eq
    · exact same_of_denoted_members members wf.2 member later y wf' eq

end

theorem denoted_of_same {x y : JsonValue} (same : SameJson x y) (hx : x.WellFormed)
    (hy : y.WellFormed) : denoted x = denoted y := by
  induction same with
  | null => rfl
  | bool b => rfl
  | number eq => exact congrArg JsonValue.number ((JsNumber.plusZero_eq_iff hx hy).mpr eq)
  | string s => rfl
  | @array items others length _ ih =>
    rw [denoted_array, denoted_array]
    have wf := (itemsWellFormed_iff items).mp hx
    have wf' := (itemsWellFormed_iff others).mp hy
    congr 1
    apply List.ext_getElem?
    intro i
    rw [List.getElem?_map, List.getElem?_map]
    rcases Nat.lt_or_ge i items.length with inside | outside
    · have left := List.getElem?_eq_getElem inside
      have right := List.getElem?_eq_getElem (length ▸ inside)
      rw [left, right]
      exact congrArg some (ih i _ _ left right (wf _ (List.mem_of_getElem? left))
        (wf' _ (List.mem_of_getElem? right)))
    · rw [List.getElem?_eq_none outside, List.getElem?_eq_none (length ▸ outside)]
  | @object members others names _ ih =>
    rw [denoted_object, denoted_object]
    have wf := (membersWellFormed_iff members).mp hx.2
    have wf' := (membersWellFormed_iff others).mp hy.2
    have unique : ((mapValues denoted members).map Prod.fst).Nodup := by
      rw [mapValues_keys]
      exact nodup_of_ordered hx.1
    have unique' : ((mapValues denoted others).map Prod.fst).Nodup := by
      rw [mapValues_keys]
      exact nodup_of_ordered hy.1
    have sorted : sortEntries (mapValues denoted members) = sortEntries (mapValues denoted others) := by
      apply sortEntries_congr unique unique'
      intro key
      rw [lookupMember_mapValues, lookupMember_mapValues]
      have present := names key
      cases left : lookupMember members key with
      | none =>
        rw [left] at present
        have right : lookupMember others key = none := by simpa using present.symm
        rw [right]
      | some v =>
        rw [left] at present
        obtain ⟨w, right⟩ := Option.isSome_iff_exists.mp present.symm
        rw [right]
        exact congrArg some (ih key v w left right (wf _ (lookupMember_mem left))
          (wf' _ (lookupMember_mem right)))
    rw [sorted]

theorem canonical_same {x y : JsonValue} (hx : x.WellFormed) (hy : y.WellFormed) :
    canonical x = canonical y ↔ SameJson x y := by
  rw [canonical_eq_iff hx hy]
  exact ⟨same_of_denoted x y hx hy, fun same => denoted_of_same same hx hy⟩

end ForgeDeno
