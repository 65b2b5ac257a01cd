import ForgeDeno.ConfigLoader
import ForgeDeno.MemberRules

namespace ForgeDeno

open List

section members

variable {α : Type} {members : List (JsString × α)} {key other : JsString}

theorem lookupMember_isSome : (lookupMember members key).isSome ↔ key ∈ members.map Prod.fst := by
  unfold lookupMember
  rw [Option.isSome_map, find?_isSome, mem_map]
  constructor
  · rintro ⟨member, inside, same⟩
    exact ⟨member, inside, beq_iff_eq.mp same⟩
  · rintro ⟨member, inside, same⟩
    exact ⟨member, inside, beq_iff_eq.mpr same⟩

theorem setMember_perm (fresh : key ∉ members.map Prod.fst) (item : α) :
    (setMember members key item).Perm ((key, item) :: members) := by
  unfold setMember
  rw [if_neg fun present => fresh (lookupMember_isSome.mp present)]
  split
  next => exact perm_append_singleton _ _
  next index _ =>
    change (members.takeWhile (numberedBelow index) ++ (key, item) ::
      members.drop (members.takeWhile (numberedBelow index)).length).Perm _
    generalize (numberedBelow index : JsString × α → Bool) = p
    have whole := prefix_iff_eq_append.mp (List.takeWhile_prefix (l := members) p)
    have moved : (members.takeWhile p ++ (key, item) ::
        members.drop (members.takeWhile p).length).Perm ((key, item) ::
          (members.takeWhile p ++ members.drop (members.takeWhile p).length)) := perm_middle
    rwa [whole] at moved

theorem setMember_keys (item : α) (distinct : (members.map Prod.fst).Nodup) :
    ((setMember members key item).map Prod.fst).Nodup := by
  by_cases present : key ∈ members.map Prod.fst
  · have keys : (members.map fun member => if member.1 == key then (key, item) else member).map
        Prod.fst = members.map Prod.fst := by
      rw [map_map]
      apply map_congr_left
      intro member _
      show (if member.1 == key then (key, item) else member).1 = member.1
      split
      next same => exact (beq_iff_eq.mp same).symm
      next => rfl
    unfold setMember
    rw [if_pos (lookupMember_isSome.mpr present), keys]
    exact distinct
  · have last : ((key, item) :: members).map Prod.fst |>.Nodup :=
      nodup_cons.mpr ⟨present, distinct⟩
    exact ((setMember_perm present item).map Prod.fst).nodup_iff.mpr last

end members

/-- What a settings tree tells about a key path: it gives a value, it has a section there, it has a
value where the path goes on, or nothing. -/
inductive Tells where
  | value (value : ConfigValue)
  | table
  | blocked
  | silent

def tells : ConfigValue → List JsString → Tells
  | .record _, [] => .table
  | node, [] => .value node
  | .record members, part :: path =>
    match lookupMember members part with
    | none => .silent
    | some child => tells child path
  | _, _ :: _ => .blocked

def Tells.value? : Tells → Option ConfigValue
  | .value node => some node
  | _ => none

def leafAt (node : ConfigValue) (path : List JsString) : Option ConfigValue := (tells node path).value?

theorem tells_record (members : Settings) (part : JsString) (path : List JsString) :
    tells (.record members) (part :: path) = match lookupMember members part with
      | none => .silent
      | some child => tells child path := rfl

theorem tells_leaf {node : ConfigValue} (leaf : node.isRecord = false) (part : JsString)
    (path : List JsString) : tells node [] = .value node ∧ tells node (part :: path) = .blocked := by
  cases node with
  | record => cases leaf
  | _ => exact ⟨rfl, rfl⟩

theorem leafAt_iff {node value : ConfigValue} {path : List JsString} : leafAt node path = some value ↔
    readPath node path = some value ∧ value.isRecord = false := by
  induction path generalizing node with
  | nil =>
    cases node with
    | record members =>
      constructor
      · intro h
        cases h
      · rintro ⟨h, leaf⟩
        cases h
        cases leaf
    | _ =>
      constructor
      · intro h
        cases h
        exact ⟨rfl, rfl⟩
      · exact fun h => h.1
  | cons part path ih =>
    cases node with
    | record members =>
      unfold leafAt
      rw [tells_record]
      have read : readPath (.record members) (part :: path) =
          (lookupMember members part).bind fun child => readPath child path := rfl
      rw [read]
      cases lookupMember members part with
      | none => simp [Tells.value?]
      | some child => exact ih
    | _ => exact ⟨nofun, fun h => (by cases h.1)⟩

inductive Distinct : ConfigValue → Prop
  | leaf {node : ConfigValue} : node.isRecord = false → Distinct node
  | record {members : Settings} : (members.map Prod.fst).Nodup →
    (∀ member ∈ members, Distinct member.2) → Distinct (.record members)

theorem lookup_mergeSettings {source : Settings} (distinct : (source.map Prod.fst).Nodup)
    (target : Settings) (key : JsString) :
    lookupMember (mergeSettings target source) key = match lookupMember source key with
      | none => lookupMember target key
      | some value => some (merged (lookupMember target key) value) := by
  induction source generalizing target with
  | nil => rfl
  | cons member source ih =>
    obtain ⟨name, value⟩ := member
    obtain ⟨fresh, rest⟩ := nodup_cons.mp distinct
    show lookupMember (mergeSettings (mergeMember target (name, value)) source) key = _
    have first : mergeMember target (name, value) =
        setMember target name (merged (lookupMember target name) value) := rfl
    rw [ih rest, first, lookupMember_setMember, lookupMember_cons]
    by_cases same : name = key
    · subst same
      have gone : lookupMember source name = none := by
        cases found : lookupMember source name with
        | none => rfl
        | some other => exact absurd (mem_map_of_mem (lookupMember_mem found)) fresh
      rw [gone, if_pos rfl, if_pos rfl]
    · rw [if_neg same, if_neg (Ne.symm same)]

theorem leafAt_merge {source : Settings} (distinct : Distinct (.record source)) (target : Settings)
    (path : List JsString) : leafAt (.record (mergeSettings target source)) path =
      match tells (.record source) path with
      | .silent => leafAt (.record target) path
      | other => other.value? := by
  induction path generalizing target source with
  | nil => rfl
  | cons part path ih =>
    cases distinct with
    | leaf impossible => cases impossible
    | record keys children =>
      unfold leafAt
      rw [tells_record, tells_record, tells_record, lookup_mergeSettings keys]
      cases found : lookupMember source part with
      | none => rfl
      | some value =>
        have child := children _ (lookupMember_mem found)
        dsimp only at child
        have replaced : ∀ (inner : Settings) (rest : Option ConfigValue),
            (tells (.record inner) path = .silent → rest = none) →
              (tells (.record inner) path).value? = match tells (.record inner) path with
                | .silent => rest
                | other => other.value? := by
          intro inner rest nothing
          cases told : tells (.record inner) path with
          | silent => exact (nothing told).symm
          | _ => rfl
        cases value with
        | record inner =>
          cases below : lookupMember target part with
          | none => exact replaced inner none fun _ => rfl
          | some existing =>
            have leaf : existing.isRecord = false → tells (.record inner) path = .silent →
                (tells existing path).value? = none := by
              intro other told
              cases path with
              | nil => cases told
              | cons next path => rw [(tells_leaf other next path).2]; rfl
            cases existing with
            | record existing => exact ih child existing
            | _ => exact replaced inner _ (leaf rfl)
        | _ => cases path <;> rfl

theorem leafAt_mapLeaves {visit : List JsString → ConfigValue → ConfigValue}
    (keeps : ∀ path value, value.isRecord = false → (visit path value).isRecord = false)
    (path before : List JsString) (settings : Settings) :
    leafAt (.record (mapLeaves visit before settings)) path =
      (leafAt (.record settings) path).map (visit (before ++ path)) := by
  have found : ∀ (before : List JsString) (settings : Settings) (part : JsString),
      lookupMember (mapLeaves visit before settings) part =
        (lookupMember settings part).map (mapLeaf visit (before ++ [part])) := by
    intro before settings part
    induction settings with
    | nil => rfl
    | cons member settings ih =>
      obtain ⟨key, value⟩ := member
      show lookupMember ((key, mapLeaf visit (before ++ [key]) value) :: mapLeaves visit before settings) part = _
      rw [lookupMember_cons, lookupMember_cons, ih]
      by_cases same : key = part
      · subst same
        rw [if_pos rfl, if_pos rfl]
        rfl
      · rw [if_neg same, if_neg same]
  induction path generalizing before settings with
  | nil => rfl
  | cons part path ih =>
    unfold leafAt
    rw [tells_record, tells_record, found]
    cases lookupMember settings part with
    | none => rfl
    | some value =>
      have leaf : ∀ node : ConfigValue, node.isRecord = false →
          (tells (visit (before ++ [part]) node) path).value? =
            (tells node path).value?.map (visit (before ++ part :: path)) := by
        intro node other
        have kept := keeps (before ++ [part]) node other
        cases path with
        | nil => rw [(tells_leaf kept part []).1, (tells_leaf other part []).1]; rfl
        | cons next path => rw [(tells_leaf kept next path).2, (tells_leaf other next path).2]; rfl
      cases value with
      | record members =>
        have inside := ih (before ++ [part]) members
        rw [append_assoc, singleton_append] at inside
        exact inside
      | _ => exact leaf _ rfl

section ini

variable {casing : Casing}

theorem distinct_empty : Distinct (.record []) :=
  .record nodup_nil nofun

variable {settings : Settings}

theorem distinct_setMember (h : Distinct (.record settings)) (key : JsString)
    {value : ConfigValue} (distinct : Distinct value) : Distinct (.record (setMember settings key value)) := by
  cases h with
  | leaf impossible => cases impossible
  | record keys children =>
    apply Distinct.record (setMember_keys value keys)
    intro member mem
    rcases mem_setMember mem with old | rfl
    · exact children member old
    · exact distinct

theorem distinct_writePath {value : ConfigValue} (leaf : value.isRecord = false)
    (path : List JsString) (h : Distinct (.record settings)) :
    Distinct (.record (writePath settings path value)) := by
  induction path generalizing settings with
  | nil => exact h
  | cons part path ih =>
    cases path with
    | nil => exact distinct_setMember h part (.leaf leaf)
    | cons next path =>
      apply distinct_setMember h part
      apply ih
      split
      next members found =>
        cases h with
        | leaf impossible => cases impossible
        | record _ children => exact children _ (lookupMember_mem found)
      next => exact distinct_empty

theorem parseEnvValue_leaf (raw : JsString) (template : ConfigValue) :
    (parseEnvValue casing raw template).isRecord = false := by
  unfold parseEnvValue
  dsimp only
  split
  · split <;> rfl
  · split <;> rfl
  · rfl
  · rfl

theorem inferScalar_leaf (raw : JsString) : (inferScalar casing raw).isRecord = false := by
  unfold inferScalar
  dsimp only
  split
  · rfl
  · split
    · rfl
    · split
      · rfl
      · split
        · split <;> rfl
        · rfl

theorem parseIniValue_leaf (raw : JsString) (template : Option ConfigValue) :
    (parseIniValue casing raw template).isRecord = false := by
  unfold parseIniValue
  dsimp only
  split
  · rfl
  · split
    · rfl
    · split
      · exact inferScalar_leaf _
      · exact inferScalar_leaf _
      · exact parseEnvValue_leaf _ _

theorem distinct_setIniValue (h : Distinct (.record settings))
    (path : List JsString) {value : ConfigValue} (leaf : value.isRecord = false) :
    Distinct (.record (setIniValue settings path value)) := by
  unfold setIniValue
  split
  · exact distinct_writePath leaf path h
  · exact distinct_writePath rfl path h

theorem distinct_parseIniLines {declared : JsString → Option ConfigValue} (lines : List JsString)
    {index : Nat} {path : List JsString} {result : Settings} (h : Distinct (.record settings))
    (parsed : parseIniLines casing declared lines index path settings = .ok result) :
    Distinct (.record result) := by
  induction lines generalizing index path settings with
  | nil => cases parsed; exact h
  | cons line lines ih =>
    unfold parseIniLines at parsed
    dsimp only at parsed
    split at parsed
    · exact ih h parsed
    · split at parsed
      · split at parsed
        · exact ih h parsed
        · cases parsed
      · split at parsed
        · cases parsed
        · split at parsed
          · cases parsed
          · exact ih (distinct_setIniValue h _ (parseIniValue_leaf _ _)) parsed

theorem distinct_parseIni {content : JsString} {declared : JsString → Option ConfigValue}
    {source : Option JsString}
    (parsed : parseIni casing content declared source = .ok settings) : Distinct (.record settings) := by
  unfold parseIni at parsed
  split at parsed
  next result lines =>
    cases parsed
    exact distinct_parseIniLines _ distinct_empty lines
  next => cases parsed

end ini

end ForgeDeno
