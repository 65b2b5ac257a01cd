import ForgeDeno.ConfigPrecedence

namespace ForgeDeno

open List

/-- A value that a YAML or JSON parser returns. `members` are the own enumerable properties. -/
inductive ParsedValue where
  | null
  | bool (value : Bool)
  | number (value : JsNumber)
  | string (value : JsString)
  | list (items : List ParsedValue)
  | record (members : List (JsString × ParsedValue))
  /-- a `Date`, which has no property of its own -/
  | date (time : JsNumber)
  /-- an object of another class, such as the bytes of a binary value -/
  | object (className : JsString) (members : List (JsString × ParsedValue))
  /-- a reference to an enclosing value, so many levels up -/
  | enclosing (levels : Nat)

namespace ParsedValue

@[elab_as_elim]
theorem inside {motive : ParsedValue → Prop} (null : motive .null) (bool : ∀ b, motive (.bool b))
    (number : ∀ n, motive (.number n)) (string : ∀ s, motive (.string s))
    (list : ∀ items, (∀ item ∈ items, motive item) → motive (.list items))
    (record : ∀ members, (∀ member ∈ members, motive member.2) → motive (.record members))
    (date : ∀ time, motive (.date time)) (object : ∀ className members, (∀ member ∈ members, motive member.2) →
      motive (.object className members))
    (enclosing : ∀ levels, motive (.enclosing levels)) (value : ParsedValue) : motive value := by
  refine @ParsedValue.rec motive (fun items => ∀ item ∈ items, motive item)
    (fun members => ∀ member ∈ members, motive member.2) (fun member => motive member.2)
    null bool number string list record date object enclosing ?_ ?_ ?_ ?_ ?_ value
  · exact nofun
  · intro item items first later
    exact forall_mem_cons.mpr ⟨first, later⟩
  · exact nofun
  · intro member members first later
    exact forall_mem_cons.mpr ⟨first, later⟩
  · exact fun _ _ value => value

/-- `result[key] = nested` for these entries, in order. -/
def assigned (entries : List (JsString × ParsedValue)) : List (JsString × ParsedValue) :=
  entries.foldl (fun result entry => setMember result entry.1 entry.2) []

mutual

/-- `insensitive`; a value that contains itself makes it recurse without end. -/
def insensitive (casing : Casing) : ParsedValue → Option ParsedValue
  | .list items => (insensitiveItems casing items).map .list
  | .record members => (loweredEntries casing members).map fun entries => .record (assigned entries)
  | .date _ => some (.record [])
  | .object _ members => (loweredEntries casing members).map fun entries => .record (assigned entries)
  | .enclosing _ => none
  | value => some value

def insensitiveItems (casing : Casing) : List ParsedValue → Option (List ParsedValue)
  | [] => some []
  | item :: items => do
    let first ← insensitive casing item
    let later ← insensitiveItems casing items
    some (first :: later)

def loweredEntries (casing : Casing) : List (JsString × ParsedValue) → Option (List (JsString × ParsedValue))
  | [] => some []
  | member :: members => do
    let first ← loweredEntry casing member
    let later ← loweredEntries casing members
    some (first :: later)

def loweredEntry (casing : Casing) : JsString × ParsedValue → Option (JsString × ParsedValue)
  | (key, nested) => (insensitive casing nested).map fun value => (casing.toLowerCase key, value)

end

mutual

/-- Only keys of records differ, by their case: a list has the same number of items in the same order, a
record has a member for every member, and every other value is the same. -/
def KeepsValue (casing : Casing) : ParsedValue → ParsedValue → Prop
  | .list items => fun now => ∃ items', now = .list items' ∧ KeepsItems casing items items'
  | .record members => fun now => ∃ members' entries, now = .record members' ∧ entries.Perm members' ∧
      KeepsEntries casing members entries
  | value => fun now => now = value

def KeepsItems (casing : Casing) : List ParsedValue → List ParsedValue → Prop
  | [] => fun items' => items' = []
  | item :: items => fun items' => ∃ first later, items' = first :: later ∧ KeepsValue casing item first ∧
      KeepsItems casing items later

def KeepsEntries (casing : Casing) : List (JsString × ParsedValue) → List (JsString × ParsedValue) → Prop
  | [] => fun entries => entries = []
  | member :: members => fun entries => ∃ first later, entries = first :: later ∧
      KeepsEntry casing member first ∧ KeepsEntries casing members later

def KeepsEntry (casing : Casing) : JsString × ParsedValue → JsString × ParsedValue → Prop
  | (key, nested) => fun entry => entry.1 = casing.toLowerCase key ∧ KeepsValue casing nested entry.2

end

mutual

/-- The value is made of lists, records and simple values, and no record has two keys that differ only
by case. -/
def Plain (casing : Casing) : ParsedValue → Prop
  | .list items => PlainItems casing items
  | .record members => (members.map fun member => casing.toLowerCase member.1).Nodup ∧ PlainEntries casing members
  | .date _ => False
  | .object _ _ => False
  | .enclosing _ => False
  | _ => True

def PlainItems (casing : Casing) : List ParsedValue → Prop
  | [] => True
  | item :: items => Plain casing item ∧ PlainItems casing items

def PlainEntries (casing : Casing) : List (JsString × ParsedValue) → Prop
  | [] => True
  | member :: members => PlainEntry casing member ∧ PlainEntries casing members

def PlainEntry (casing : Casing) : JsString × ParsedValue → Prop
  | (_, nested) => Plain casing nested

end

section assigning

variable {entries : List (JsString × ParsedValue)}

theorem foldl_setMember_perm {result : List (JsString × ParsedValue)}
    (distinct : ((entries ++ result).map Prod.fst).Nodup) :
    (entries.foldl (fun result entry => setMember result entry.1 entry.2) result).Perm (entries ++ result) := by
  induction entries generalizing result with
  | nil => exact List.Perm.refl _
  | cons entry entries ih =>
    have fresh : entry.1 ∉ result.map Prod.fst := by
      intro mem
      rw [cons_append, map_cons, nodup_cons, map_append] at distinct
      exact distinct.1 (mem_append_right _ mem)
    have first : (setMember result entry.1 entry.2).Perm (entry :: result) :=
      setMember_perm fresh entry.2
    have moved : (entries ++ setMember result entry.1 entry.2).Perm (entry :: entries ++ result) :=
      (first.append_left entries).trans perm_middle
    rw [foldl_cons]
    exact (ih ((moved.map Prod.fst).nodup_iff.mpr distinct)).trans moved

theorem assigned_perm (distinct : (entries.map Prod.fst).Nodup) : (assigned entries).Perm entries := by
  have whole := @foldl_setMember_perm entries [] (by rwa [append_nil])
  rwa [append_nil] at whole

theorem assigned_keys : ((assigned entries).map Prod.fst).Nodup := by
  have kept : ∀ result : List (JsString × ParsedValue), (result.map Prod.fst).Nodup →
      ((entries.foldl (fun result entry => setMember result entry.1 entry.2) result).map Prod.fst).Nodup := by
    induction entries with
    | nil => exact fun _ distinct => distinct
    | cons entry entries ih => exact fun result distinct => ih _ (setMember_keys entry.2 distinct)
  exact kept [] nodup_nil

theorem entries_eq {others : List (JsString × ParsedValue)} (perm : entries.Perm others)
    (keys : entries.map Prod.fst = others.map Prod.fst) (distinct : (entries.map Prod.fst).Nodup) :
    entries = others := by
  induction entries generalizing others with
  | nil => exact (nil_perm.mp perm).symm
  | cons entry entries ih =>
    cases others with
    | nil => cases keys
    | cons other others =>
      obtain ⟨same, later⟩ := List.cons.inj keys
      have fresh := (nodup_cons.mp distinct).1
      have first : entry = other := by
        have mem : other ∈ entry :: entries := perm.symm.subset mem_cons_self
        rcases mem_cons.mp mem with here | inside
        · exact here.symm
        · have again : other.1 ∈ entries.map Prod.fst := mem_map_of_mem inside
          rw [← show entry.1 = other.1 from same] at again
          exact absurd again fresh
      rw [first] at perm ⊢
      rw [ih (List.Perm.cons_inv perm) later (nodup_cons.mp distinct).2]

end assigning

variable {casing : Casing}

theorem loweredEntries_keys {members entries : List (JsString × ParsedValue)}
    (lowered : loweredEntries casing members = some entries) :
    entries.map Prod.fst = members.map fun member => casing.toLowerCase member.1 := by
  induction members generalizing entries with
  | nil =>
    cases lowered
    rfl
  | cons member members ih =>
    obtain ⟨first, entry, lowered⟩ := Option.bind_eq_some_iff.mp lowered
    obtain ⟨later, rest, whole⟩ := Option.bind_eq_some_iff.mp lowered
    obtain ⟨key, nested⟩ := member
    obtain ⟨value, _, rfl⟩ := Option.map_eq_some_iff.mp entry
    cases whole
    rw [map_cons, map_cons, ih rest]

theorem keptEntries_keys {members entries : List (JsString × ParsedValue)}
    (kept : KeepsEntries casing members entries) :
    entries.map Prod.fst = members.map fun member => casing.toLowerCase member.1 := by
  induction members generalizing entries with
  | nil =>
    rw [show entries = [] from kept]
    rfl
  | cons member members ih =>
    obtain ⟨key, nested⟩ := member
    obtain ⟨first, later, rfl, entry, rest⟩ := kept
    rw [map_cons, map_cons, ih rest, entry.1]

theorem kept_of_plain (value : ParsedValue) (plain : Plain casing value) :
    ∃ now, insensitive casing value = some now ∧ KeepsValue casing value now := by
  induction value using inside with
  | null | bool b | number n | string s => exact ⟨_, rfl, rfl⟩
  | date time | object className members ih | enclosing levels => exact plain.elim
  | list items ih =>
    have all : ∀ rest : List ParsedValue, (∀ item ∈ rest, item ∈ items) → PlainItems casing rest →
        ∃ items', insensitiveItems casing rest = some items' ∧ KeepsItems casing rest items' := by
      intro rest
      induction rest with
      | nil => exact fun _ _ => ⟨[], rfl, rfl⟩
      | cons item rest again =>
        intro subset plain
        obtain ⟨here, later⟩ := forall_mem_cons.mp subset
        obtain ⟨first, lowered, kept⟩ := ih item here plain.1
        obtain ⟨others, loweredRest, keptRest⟩ := again later plain.2
        refine ⟨first :: others, ?_, first, others, rfl, kept, keptRest⟩
        unfold insensitiveItems
        rw [lowered, loweredRest]
        rfl
    obtain ⟨items', lowered, kept⟩ := all items (fun _ mem => mem) plain
    refine ⟨.list items', ?_, items', rfl, kept⟩
    unfold insensitive
    rw [lowered]
    rfl
  | record members ih =>
    have all : ∀ rest : List (JsString × ParsedValue), (∀ member ∈ rest, member ∈ members) →
        PlainEntries casing rest →
        ∃ entries, loweredEntries casing rest = some entries ∧ KeepsEntries casing rest entries := by
      intro rest
      induction rest with
      | nil => exact fun _ _ => ⟨[], rfl, rfl⟩
      | cons member rest again =>
        intro subset plain
        obtain ⟨key, nested⟩ := member
        obtain ⟨here, later⟩ := forall_mem_cons.mp subset
        obtain ⟨first, lowered, kept⟩ := ih (key, nested) here plain.1
        obtain ⟨others, loweredRest, keptRest⟩ := again later plain.2
        refine ⟨(casing.toLowerCase key, first) :: others, ?_, _, others, rfl, ⟨rfl, kept⟩, keptRest⟩
        unfold loweredEntries loweredEntry
        dsimp only at lowered
        rw [lowered, loweredRest]
        rfl
    obtain ⟨distinct, inner⟩ := plain
    obtain ⟨entries, lowered, kept⟩ := all members (fun _ mem => mem) inner
    rw [← loweredEntries_keys lowered] at distinct
    refine ⟨.record (assigned entries), ?_, _, entries, rfl, (assigned_perm distinct).symm, kept⟩
    unfold insensitive
    rw [lowered]
    rfl

theorem plain_of_kept (value : ParsedValue) {now : ParsedValue}
    (lowered : insensitive casing value = some now) (kept : KeepsValue casing value now) :
    Plain casing value := by
  induction value using inside generalizing now with
  | null | bool b | number n | string s => trivial
  | date time =>
    cases lowered
    cases kept
  | object className members ih =>
    obtain ⟨entries, _, rfl⟩ := Option.map_eq_some_iff.mp lowered
    cases kept
  | enclosing levels => cases lowered
  | list items ih =>
    obtain ⟨items', loweredItems, rfl⟩ := Option.map_eq_some_iff.mp lowered
    obtain ⟨others, same, keptItems⟩ := kept
    cases same
    clear lowered
    show PlainItems casing items
    induction items generalizing items' with
    | nil => trivial
    | cons item items again =>
      obtain ⟨here, later⟩ := forall_mem_cons.mp ih
      obtain ⟨first, loweredFirst, rest⟩ := Option.bind_eq_some_iff.mp loweredItems
      obtain ⟨remaining, loweredRest, whole⟩ := Option.bind_eq_some_iff.mp rest
      obtain ⟨_, _, same, keptFirst, keptRest⟩ := keptItems
      cases whole
      cases same
      exact ⟨here loweredFirst keptFirst, again later _ loweredRest keptRest⟩
  | record members ih =>
    obtain ⟨entries, loweredMembers, rfl⟩ := Option.map_eq_some_iff.mp lowered
    obtain ⟨others, arranged, same, perm, keptMembers⟩ := kept
    cases same
    have distinct : (arranged.map Prod.fst).Nodup :=
      (perm.map Prod.fst).nodup_iff.mpr assigned_keys
    have keys : arranged.map Prod.fst = entries.map Prod.fst := by
      rw [keptEntries_keys keptMembers, loweredEntries_keys loweredMembers]
    have equal : arranged = entries := by
      have whole := perm.trans (assigned_perm (keys ▸ distinct))
      exact entries_eq whole keys distinct
    rw [equal] at keptMembers distinct
    rw [loweredEntries_keys loweredMembers] at distinct
    refine ⟨distinct, ?_⟩
    clear lowered perm distinct keys equal
    induction members generalizing entries with
    | nil => trivial
    | cons member members again =>
      obtain ⟨key, inner⟩ := member
      obtain ⟨here, later⟩ := forall_mem_cons.mp ih
      obtain ⟨first, loweredFirst, rest⟩ := Option.bind_eq_some_iff.mp loweredMembers
      obtain ⟨remaining, loweredRest, whole⟩ := Option.bind_eq_some_iff.mp rest
      obtain ⟨value, nested, rfl⟩ := Option.map_eq_some_iff.mp loweredFirst
      obtain ⟨_, _, same, keptFirst, keptRest⟩ := keptMembers
      cases whole
      cases same
      exact ⟨here nested keptFirst.2, again later _ loweredRest keptRest⟩

/-- Lower-casing the keys changes nothing else exactly when the value is made of lists, records and simple
values, and no two keys of a record differ only by case. -/
theorem insensitive_keeps_iff (casing : Casing) (value : ParsedValue) :
    (∃ now, insensitive casing value = some now ∧ KeepsValue casing value now) ↔ Plain casing value :=
  ⟨fun ⟨_, lowered, kept⟩ => plain_of_kept value lowered kept, kept_of_plain value⟩

/-- The date of a release is lost. -/
theorem date_becomes_empty :
    ¬ ∃ now, insensitive asciiCasing (.record [(js "released", .date (.ofRat 0 false))]) = some now ∧
      KeepsValue asciiCasing (.record [(js "released", .date (.ofRat 0 false))]) now := by
  rintro ⟨now, lowered, members, entries, rfl, perm, first, later, rfl, ⟨_, date⟩, rest⟩
  have empty : (ParsedValue.record [(js "released", .record [])]) = .record members :=
    Option.some.inj lowered
  have there : first ∈ members := perm.subset List.mem_cons_self
  rw [← ParsedValue.record.inj empty] at there
  rw [List.mem_singleton.mp there] at date
  cases date

section settings

def ofConfigEntry (ofConfig : ConfigValue → ParsedValue) (member : JsString × ConfigValue) :
    JsString × ParsedValue := (member.1, ofConfig member.2)

theorem setMember_ofConfig (f : ConfigValue → ParsedValue) (members : Settings) (key : JsString)
    (item : ConfigValue) : setMember (members.map (ofConfigEntry f)) key (f item) =
      (setMember members key item).map (ofConfigEntry f) := by
  have found : (lookupMember (members.map (ofConfigEntry f)) key).isSome =
      (lookupMember members key).isSome := by
    rw [Bool.eq_iff_iff, lookupMember_isSome, lookupMember_isSome, map_map]
    rfl
  unfold setMember
  rw [found]
  split
  next =>
    rw [map_map, map_map]
    apply map_congr_left
    intro member _
    show (if member.1 == key then (key, f item) else ofConfigEntry f member) =
      ofConfigEntry f (if member.1 == key then (key, item) else member)
    split
    · rfl
    · rfl
  next =>
    split
    next => rw [map_append]; rfl
    next index _ =>
      change (members.map (ofConfigEntry f)).takeWhile (numberedBelow index) ++ (key, f item) ::
          (members.map (ofConfigEntry f)).drop
            ((members.map (ofConfigEntry f)).takeWhile (numberedBelow index)).length =
        (members.takeWhile (numberedBelow index) ++ (key, item) ::
          members.drop (members.takeWhile (numberedBelow index)).length).map (ofConfigEntry f)
      have same : (numberedBelow index : JsString × ParsedValue → Bool) ∘ ofConfigEntry f =
          numberedBelow index := rfl
      rw [takeWhile_map, same, length_map, ← map_drop, map_append, map_cons]
      rfl

mutual

def ofConfig : ConfigValue → ParsedValue
  | .null => .null
  | .bool b => .bool b
  | .number n => .number n
  | .string s => .string s
  | .list items => .list (itemsOfConfig items)
  | .record members => .record (entriesOfConfig members)

def itemsOfConfig : List ConfigValue → List ParsedValue
  | [] => []
  | item :: items => ofConfig item :: itemsOfConfig items

def entriesOfConfig : Settings → List (JsString × ParsedValue)
  | [] => []
  | member :: members => entryOfConfig member :: entriesOfConfig members

def entryOfConfig : JsString × ConfigValue → JsString × ParsedValue
  | (key, nested) => (key, ofConfig nested)

end

theorem entriesOfConfig_eq (members : Settings) :
    entriesOfConfig members = members.map (ofConfigEntry ofConfig) := by
  induction members with
  | nil => rfl
  | cons member members ih =>
    obtain ⟨key, nested⟩ := member
    rw [entriesOfConfig, ih]
    rfl

mutual

theorem insensitive_ofConfig : ∀ value : ConfigValue,
    insensitive casing (ofConfig value) = some (ofConfig (ForgeDeno.insensitive casing value))
  | .null | .bool _ | .number _ | .string _ => rfl
  | .list items => by
    unfold ofConfig insensitive ForgeDeno.insensitive
    rw [insensitiveItems_ofConfig items]
    rfl
  | .record members => by
    unfold ofConfig insensitive ForgeDeno.insensitive
    obtain ⟨entries, lowered, all⟩ := loweredEntries_ofConfig members
    rw [lowered]
    have whole := all []
    show some (ParsedValue.record (assigned entries)) = some (ParsedValue.record _)
    rw [entriesOfConfig_eq, ← whole]
    rfl

theorem insensitiveItems_ofConfig : ∀ items : List ConfigValue, insensitiveItems casing (itemsOfConfig items) =
      some (itemsOfConfig (ForgeDeno.insensitiveItems casing items))
  | [] => rfl
  | item :: items => by
    unfold itemsOfConfig insensitiveItems ForgeDeno.insensitiveItems
    rw [insensitive_ofConfig item, insensitiveItems_ofConfig items]
    rfl

theorem loweredEntries_ofConfig : ∀ members : Settings, ∃ entries,
    loweredEntries casing (entriesOfConfig members) = some entries ∧ ∀ result : Settings,
      entries.foldl (fun result entry => setMember result entry.1 entry.2) (result.map (ofConfigEntry ofConfig)) =
        (insensitiveMembers casing result members).map (ofConfigEntry ofConfig)
  | [] => ⟨[], rfl, fun _ => rfl⟩
  | (key, nested) :: members => by
    obtain ⟨entries, lowered, all⟩ := loweredEntries_ofConfig members
    refine ⟨(casing.toLowerCase key, ofConfig (ForgeDeno.insensitive casing nested)) :: entries, ?_, ?_⟩
    · unfold entriesOfConfig entryOfConfig loweredEntries loweredEntry
      rw [insensitive_ofConfig nested, lowered]
      rfl
    · intro result
      rw [foldl_cons, setMember_ofConfig]
      exact all _

end

end settings

end ParsedValue

end ForgeDeno
