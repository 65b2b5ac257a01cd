import ForgeDeno.EntryRules

namespace ForgeDeno

open List

structure HeaderFilter where
  toLowerCase : JsString → JsString
  ignoredHeaders : List JsString

def normalizeIgnoredHeaders (toLowerCase : JsString → JsString) (headers : List JsString) : List JsString :=
  ((headers.map fun header => toLowerCase header.trim).filter fun header => header ≠ []).eraseDups

namespace HeaderFilter

def new (toLowerCase : JsString → JsString) (headers : List JsString) : HeaderFilter :=
  ⟨toLowerCase, normalizeIgnoredHeaders toLowerCase headers⟩

variable (f : HeaderFilter) (protoAccessor : Bool)

def ignores (key : JsString) : Bool := decide (f.toLowerCase key ∈ f.ignoredHeaders)

def isHeaders (key : JsString) : Bool := decide (f.toLowerCase key = js "headers")

def filterHeaderEntries {α : Type} (entries : List (JsString × α)) : List (JsString × α) :=
  entries.filter fun entry => !f.ignores entry.1

/-- The entries of a `Headers`, as an object has them. -/
def headersRecord (entries : List (JsString × JsString)) : Details LoggedValue :=
  assignAll protoAccessor [] ((f.filterHeaderEntries entries).map fun entry => (entry.1, .string entry.2))

mutual

/-- Copies a value without ignored headers; members are assigned in property order. -/
def omitIgnoredHeadersValue : LoggedValue → Bool → LoggedValue
  | .headers entries, _ => .record (f.headersRecord protoAccessor entries)
  | .array items, _ => .array (omitFromItems items)
  | .record members, isHeadersAttribute =>
    if isHeadersAttribute then
      .record ((f.filterHeaderEntries members).filter fun member => assigns protoAccessor member.1)
    else .record ((omitFromMembers members).filter fun member => assigns protoAccessor member.1)
  | other, _ => other

def omitFromItems : List LoggedValue → List LoggedValue
  | [] => []
  | item :: items => omitIgnoredHeadersValue item false :: omitFromItems items

def omitFromMembers : List (JsString × LoggedValue) → List (JsString × LoggedValue)
  | [] => []
  | member :: members => omitFromMember member :: omitFromMembers members

def omitFromMember : JsString × LoggedValue → JsString × LoggedValue
  | (key, value) => (key, omitIgnoredHeadersValue value (f.isHeaders key))

end

def omitIgnoredHeaders (value : LoggedValue) : LoggedValue :=
  if f.ignoredHeaders = [] then value else f.omitIgnoredHeadersValue protoAccessor value false

/-- Of a value, in a place for headers or not, the second one is left where the ignored members of every
`Headers` and of every record of headers are omitted, at any depth, and all else is kept in its order. A
`Headers` may become a record. -/
inductive Omits : Bool → LoggedValue → LoggedValue → Prop
  | undefined (place : Bool) : Omits place .undefined .undefined
  | null (place : Bool) : Omits place .null .null
  | bool (place : Bool) (b : Bool) : Omits place (.bool b) (.bool b)
  | number (place : Bool) (n : JsNumber) : Omits place (.number n) (.number n)
  | string (place : Bool) (s : JsString) : Omits place (.string s) (.string s)
  | other (place : Bool) (typeName : JsString) : Omits place (.other typeName) (.other typeName)
  | object (place : Bool) (className : JsString) (members : List (JsString × LoggedValue)) :
    Omits place (.object className members) (.object className members)
  | array (place : Bool) {items outs : List LoggedValue} : items.length = outs.length →
    (∀ (i : Nat) item out, items[i]? = some item → outs[i]? = some out → Omits false item out) →
      Omits place (.array items) (.array outs)
  | record (place : Bool) {members kept outs : List (JsString × LoggedValue)} :
    kept = members.filter (fun member => !(place && f.ignores member.1)) →
      kept.map Prod.fst = outs.map Prod.fst →
        (∀ (i : Nat) member out, kept[i]? = some member → outs[i]? = some out →
          Omits (f.isHeaders member.1) member.2 out.2) → Omits place (.record members) (.record outs)
  | headers (place : Bool) (entries : List (JsString × JsString)) :
    Omits place (.headers entries) (.headers (f.filterHeaderEntries entries))
  | headersRecord (place : Bool) (entries : List (JsString × JsString)) :
    Omits place (.headers entries)
      (.record ((f.filterHeaderEntries entries).map fun entry => (entry.1, .string entry.2)))

inductive Clean : Bool → LoggedValue → Prop
  | undefined (place : Bool) : Clean place .undefined
  | null (place : Bool) : Clean place .null
  | bool (place : Bool) (b : Bool) : Clean place (.bool b)
  | number (place : Bool) (n : JsNumber) : Clean place (.number n)
  | string (place : Bool) (s : JsString) : Clean place (.string s)
  | other (place : Bool) (typeName : JsString) : Clean place (.other typeName)
  | object (place : Bool) (className : JsString) (members : List (JsString × LoggedValue)) :
    Clean place (.object className members)
  | array (place : Bool) {items : List LoggedValue} : (∀ item ∈ items, Clean false item) →
    Clean place (.array items)
  | record (place : Bool) {members : List (JsString × LoggedValue)} :
    (∀ member ∈ members, (place && f.ignores member.1) = false) →
      (∀ member ∈ members, Clean (f.isHeaders member.1) member.2) → Clean place (.record members)
  | headers (place : Bool) {entries : List (JsString × JsString)} :
    (∀ entry ∈ entries, f.ignores entry.1 = false) → Clean place (.headers entries)

/-- What the filter does in full. The entries that are left of a `Headers` have different names, in property
order. Under the members that are left of a record of headers nothing is to be omitted. -/
inductive Handled : Bool → LoggedValue → Prop
  | undefined (place : Bool) : Handled place .undefined
  | null (place : Bool) : Handled place .null
  | bool (place : Bool) (b : Bool) : Handled place (.bool b)
  | number (place : Bool) (n : JsNumber) : Handled place (.number n)
  | string (place : Bool) (s : JsString) : Handled place (.string s)
  | other (place : Bool) (typeName : JsString) : Handled place (.other typeName)
  | object (place : Bool) (className : JsString) (members : List (JsString × LoggedValue)) :
    Handled place (.object className members)
  | array (place : Bool) {items : List LoggedValue} : (∀ item ∈ items, Handled false item) →
    Handled place (.array items)
  | record {members : List (JsString × LoggedValue)} :
    (∀ member ∈ members, assigns protoAccessor member.1 = true) →
      (∀ member ∈ members, Handled (f.isHeaders member.1) member.2) → Handled false (.record members)
  | headerRecord {members : List (JsString × LoggedValue)} :
    (∀ member ∈ members, f.ignores member.1 = false → assigns protoAccessor member.1 = true) →
      (∀ member ∈ members, f.ignores member.1 = false → f.Clean (f.isHeaders member.1) member.2) →
        Handled true (.record members)
  | headers (place : Bool) {entries : List (JsString × JsString)} :
    InOrder (f.filterHeaderEntries entries) →
      (∀ entry ∈ f.filterHeaderEntries entries, assigns protoAccessor entry.1 = true) →
        Handled place (.headers entries)

section lists

variable {f : HeaderFilter} {protoAccessor : Bool}

theorem omitFromItems_map (items : List LoggedValue) : f.omitFromItems protoAccessor items =
      items.map fun item => f.omitIgnoredHeadersValue protoAccessor item false := by
  induction items with
  | nil => rfl
  | cons item items ih => exact congrArg _ ih

theorem omitFromMembers_map (members : List (JsString × LoggedValue)) :
    f.omitFromMembers protoAccessor members = members.map fun member =>
      (member.1, f.omitIgnoredHeadersValue protoAccessor member.2 (f.isHeaders member.1)) := by
  induction members with
  | nil => rfl
  | cons member members ih =>
    obtain ⟨key, value⟩ := member
    exact congrArg _ ih

section

variable {motive : LoggedValue → Prop}
  (leaf : ∀ v, (∀ items, v ≠ .array items) → (∀ members, v ≠ .record members) → motive v)
  (array : ∀ items, (∀ item ∈ items, motive item) → motive (.array items))
  (record : ∀ members, (∀ member ∈ members, motive member.2) → motive (.record members))

include leaf array record

mutual

theorem value_induction : ∀ v, motive v
  | .array items => array items (items_induction items)
  | .record members => record members (members_induction members)
  | .undefined | .null | .bool _ | .number _ | .string _ | .other _ | .headers _ | .object _ _ =>
    leaf _ nofun nofun

theorem items_induction : ∀ (items : List LoggedValue), ∀ item ∈ items, motive item
  | first :: items, item, mem => by
    rcases mem_cons.mp mem with same | later
    · rw [same]
      exact value_induction first
    · exact items_induction items item later

theorem members_induction : ∀ (members : List (JsString × LoggedValue)), ∀ member ∈ members, motive member.2
  | (key, value) :: members, member, mem => by
    rcases mem_cons.mp mem with same | later
    · rw [same]
      exact value_induction value
    · exact members_induction members member later

end

end

theorem forall_map_iff {α β : Type} {R : α → β → Prop} {l : List α} {g : α → β} :
    (∀ (i : Nat) a b, l[i]? = some a → (l.map g)[i]? = some b → R a b) ↔ ∀ a ∈ l, R a (g a) := by
  constructor
  · intro all a mem
    obtain ⟨i, found⟩ := mem_iff_getElem?.mp mem
    exact all i a (g a) found (by rw [getElem?_map, found]; rfl)
  · intro all i a b found changed
    rw [getElem?_map, found] at changed
    rw [← Option.some.inj changed]
    exact all a (mem_of_getElem? found)

theorem omits_array {place : Bool} {items : List LoggedValue} {g : LoggedValue → LoggedValue} :
    f.Omits place (.array items) (.array (items.map g)) ↔ ∀ item ∈ items, f.Omits false item (g item) := by
  rw [← forall_map_iff]
  constructor
  · intro omits
    cases omits with
    | array _ _ each => exact each
  · exact fun each => .array place (length_map g).symm each

theorem omits_record {place : Bool} {members kept : List (JsString × LoggedValue)}
    {g : JsString × LoggedValue → LoggedValue}
    (left : kept = members.filter fun member => !(place && f.ignores member.1)) :
    f.Omits place (.record members) (.record (kept.map fun member => (member.1, g member))) ↔
      ∀ member ∈ kept, f.Omits (f.isHeaders member.1) member.2 (g member) := by
  have pointwise := @forall_map_iff _ _ (fun (member out : JsString × LoggedValue) =>
    f.Omits (f.isHeaders member.1) member.2 out.2) kept fun member => (member.1, g member)
  rw [← pointwise]
  constructor
  · intro omits
    cases omits with
    | record _ same _ each =>
      rw [← left] at same
      rw [same] at each
      exact each
  · intro each
    refine .record place left ?_ each
    rw [map_map]
    rfl

theorem omits_headers {place : Bool} {entries : List (JsString × JsString)} {out : LoggedValue} :
    f.Omits place (.headers entries) out ↔ out = .headers (f.filterHeaderEntries entries) ∨
      out = .record ((f.filterHeaderEntries entries).map fun entry => (entry.1, .string entry.2)) := by
  constructor
  · intro omits
    cases omits with
    | headers => exact .inl rfl
    | headersRecord => exact .inr rfl
  · intro either
    rcases either with same | same
    · rw [same]
      exact .headers place entries
    · rw [same]
      exact .headersRecord place entries

theorem keeps_members {place : Bool} {members : List (JsString × LoggedValue)}
    (omits : f.Omits place (.record members) (.record members)) :
    ∀ member ∈ members, (place && f.ignores member.1) = false := by
  cases omits with
  | record _ left same _ =>
    have lengths := congrArg length same
    rw [length_map, length_map, left] at lengths
    have all := length_filter_eq_length_iff.mp lengths
    intro member mem
    have kept := all member mem
    rw [Bool.not_eq_true'] at kept
    exact kept

theorem omits_assigned {place : Bool} {members kept : List (JsString × LoggedValue)}
    {g : JsString × LoggedValue → LoggedValue}
    (left : kept = members.filter fun member => !(place && f.ignores member.1)) : f.Omits place (.record members)
        (.record ((kept.filter fun member => assigns protoAccessor member.1).map fun member => (member.1, g member))) ↔
      (∀ member ∈ kept, assigns protoAccessor member.1 = true) ∧
        ∀ member ∈ kept, f.Omits (f.isHeaders member.1) member.2 (g member) := by
  constructor
  · intro omits
    have all : ∀ member ∈ kept, assigns protoAccessor member.1 = true := by
      cases omits with
      | record _ other same _ =>
        rw [← left] at other
        have lengths := congrArg length same
        rw [other, length_map, length_map, length_map] at lengths
        exact length_filter_eq_length_iff.mp lengths.symm
    rw [filter_eq_self.mpr all] at omits
    exact ⟨all, (omits_record left).mp omits⟩
  · rintro ⟨all, each⟩
    rw [filter_eq_self.mpr all]
    exact (omits_record left).mpr each

theorem omits_self_iff (v : LoggedValue) : ∀ place, f.Omits place v v ↔ f.Clean place v := by
  induction v using value_induction with
  | leaf v plain unkeyed =>
    intro place
    cases v with
    | undefined => exact iff_of_true (.undefined place) (.undefined place)
    | null => exact iff_of_true (.null place) (.null place)
    | bool b => exact iff_of_true (.bool place b) (.bool place b)
    | number n => exact iff_of_true (.number place n) (.number place n)
    | string s => exact iff_of_true (.string place s) (.string place s)
    | other typeName => exact iff_of_true (.other place typeName) (.other place typeName)
    | object className members => exact iff_of_true (.object place className members) (.object place className members)
    | array items => exact absurd rfl (plain items)
    | record members => exact absurd rfl (unkeyed members)
    | headers entries =>
      have kept : f.filterHeaderEntries entries = entries ↔ ∀ entry ∈ entries, f.ignores entry.1 = false := by
        unfold filterHeaderEntries
        rw [filter_eq_self]
        simp
      constructor
      · intro omits
        rcases omits_headers.mp omits with same | same
        · exact .headers place (kept.mp (LoggedValue.headers.inj same).symm)
        · cases same
      · intro clean
        cases clean with
        | headers _ none =>
          have omits := Omits.headers (f := f) place entries
          rwa [kept.mpr none] at omits
  | array items ih =>
    intro place
    have same : items.map id = items := map_id items
    have each := @omits_array f place items id
    rw [same] at each
    rw [each]
    constructor
    · exact fun all => .array place fun item mem => (ih item mem false).mp (all item mem)
    · intro clean
      cases clean with
      | array _ all => exact fun item mem => (ih item mem false).mpr (all item mem)
  | record members ih =>
    intro place
    have whole : (∀ member ∈ members, (place && f.ignores member.1) = false) →
        members = members.filter fun member => !(place && f.ignores member.1) := by
      intro none
      refine (filter_eq_self.mpr fun member mem => ?_).symm
      rw [none member mem]
      rfl
    have each : members.map (fun member => (member.1, member.2)) = members := map_id members
    constructor
    · intro omits
      have none := keeps_members omits
      have values := @omits_record f place members members (fun member => member.2) (whole none)
      rw [each] at values
      exact .record place none fun member mem => (ih member mem _).mp (values.mp omits member mem)
    · intro clean
      cases clean with
      | record _ none all =>
        have values := @omits_record f place members members (fun member => member.2) (whole none)
        rw [each] at values
        exact values.mpr fun member mem => (ih member mem _).mpr (all member mem)

/-- The entries of a `Headers` all become members of an object where their names are different, in property
order, and can be assigned. -/
theorem headersRecord_eq_iff {entries : List (JsString × JsString)} : f.headersRecord protoAccessor entries =
        (f.filterHeaderEntries entries).map (fun entry => (entry.1, LoggedValue.string entry.2)) ↔
      InOrder (f.filterHeaderEntries entries) ∧
        ∀ entry ∈ f.filterHeaderEntries entries, assigns protoAccessor entry.1 = true := by
  unfold headersRecord
  generalize f.filterHeaderEntries entries = kept
  have keys : (kept.map fun entry => (entry.1, LoggedValue.string entry.2)).map Prod.fst = kept.map Prod.fst := by
    rw [map_map]
    rfl
  have made_iff : Assignable protoAccessor (kept.map fun entry => (entry.1, LoggedValue.string entry.2)) ↔
      ∀ entry ∈ kept, assigns protoAccessor entry.1 = true := forall_mem_map
  have order_iff : InOrder (kept.map fun entry => (entry.1, LoggedValue.string entry.2)) ↔ InOrder kept := by
    unfold InOrder
    rw [keys]
  rw [← made_iff, ← order_iff]
  generalize (kept.map fun entry => (entry.1, LoggedValue.string entry.2)) = members
  constructor
  · intro same
    have none : InOrder ([] : Details LoggedValue) := List.Pairwise.nil
    rw [← same]
    exact ⟨assignAll_ordered none _, assignAll_assignable (fun _ mem => absurd mem not_mem_nil) _⟩
  · rintro ⟨order, made⟩
    rw [assignAll_filter, filter_eq_self.mpr made, setMember_foldl]
    · rfl
    · exact order

theorem omits_iff_handled (v : LoggedValue) : ∀ place,
    f.Omits place v (f.omitIgnoredHeadersValue protoAccessor v place) ↔ f.Handled protoAccessor place v := by
  induction v using value_induction with
  | leaf v plain unkeyed =>
    intro place
    cases v with
    | undefined => exact iff_of_true (.undefined place) (.undefined place)
    | null => exact iff_of_true (.null place) (.null place)
    | bool b => exact iff_of_true (.bool place b) (.bool place b)
    | number n => exact iff_of_true (.number place n) (.number place n)
    | string s => exact iff_of_true (.string place s) (.string place s)
    | other typeName => exact iff_of_true (.other place typeName) (.other place typeName)
    | object className members => exact iff_of_true (.object place className members) (.object place className members)
    | array items => exact absurd rfl (plain items)
    | record members => exact absurd rfl (unkeyed members)
    | headers entries =>
      show f.Omits place (.headers entries) (.record (f.headersRecord protoAccessor entries)) ↔ _
      rw [omits_headers, LoggedValue.record.injEq, headersRecord_eq_iff]
      constructor
      · intro either
        rcases either with same | ⟨order, made⟩
        · cases same
        · exact .headers place order made
      · intro handled
        cases handled with
        | headers _ order made => exact .inr ⟨order, made⟩
  | array items ih =>
    intro place
    show f.Omits place (.array items) (.array (f.omitFromItems protoAccessor items)) ↔ _
    rw [omitFromItems_map, omits_array]
    constructor
    · exact fun all => .array place fun item mem => (ih item mem false).mp (all item mem)
    · intro handled
      cases handled with
      | array _ all => exact fun item mem => (ih item mem false).mpr (all item mem)
  | record members ih =>
    intro place
    cases place with
    | true =>
      have shape : (f.filterHeaderEntries members).filter (fun member => assigns protoAccessor member.1) =
          ((f.filterHeaderEntries members).filter fun member => assigns protoAccessor member.1).map
            fun member => (member.1, member.2) := (map_id _).symm
      have kept : ∀ member, member ∈ f.filterHeaderEntries members ↔
          member ∈ members ∧ f.ignores member.1 = false := by
        intro member
        unfold filterHeaderEntries
        rw [mem_filter, Bool.not_eq_true']
      show f.Omits true (.record members)
        (.record ((f.filterHeaderEntries members).filter fun member => assigns protoAccessor member.1)) ↔ _
      rw [shape]
      refine (@omits_assigned f protoAccessor true members (f.filterHeaderEntries members)
        (fun member => member.2) rfl).trans ?_
      constructor
      · rintro ⟨made, all⟩
        refine .headerRecord (fun member mem unignored => made member ((kept member).mpr ⟨mem, unignored⟩)) ?_
        exact fun member mem unignored => (omits_self_iff _ _).mp (all member ((kept member).mpr ⟨mem, unignored⟩))
      · intro handled
        cases handled with
        | headerRecord made all =>
          refine ⟨fun member mem => ?_, fun member mem => ?_⟩
          · obtain ⟨inside, unignored⟩ := (kept member).mp mem
            exact made member inside unignored
          · obtain ⟨inside, unignored⟩ := (kept member).mp mem
            exact (omits_self_iff _ _).mpr (all member inside unignored)
    | false =>
      have all_kept : members = members.filter fun member => !(false && f.ignores member.1) :=
        (filter_eq_self.mpr fun _ _ => rfl).symm
      show f.Omits false (.record members)
        (.record ((f.omitFromMembers protoAccessor members).filter fun member => assigns protoAccessor member.1)) ↔ _
      rw [omitFromMembers_map, filter_map]
      refine (omits_assigned all_kept).trans ?_
      constructor
      · rintro ⟨made, all⟩
        exact .record made fun member mem => (ih member mem _).mp (all member mem)
      · intro handled
        cases handled with
        | record made all => exact ⟨made, fun member mem => (ih member mem _).mpr (all member mem)⟩

theorem clean_nothing (none : f.ignoredHeaders = []) (v : LoggedValue) : ∀ place, f.Clean place v := by
  have kept : ∀ name, f.ignores name = false := by
    intro name
    unfold ignores
    rw [none]
    rfl
  induction v using value_induction with
  | leaf v plain unkeyed =>
    intro place
    cases v with
    | undefined => exact .undefined place
    | null => exact .null place
    | bool b => exact .bool place b
    | number n => exact .number place n
    | string s => exact .string place s
    | other typeName => exact .other place typeName
    | object className members => exact .object place className members
    | array items => exact absurd rfl (plain items)
    | record members => exact absurd rfl (unkeyed members)
    | headers entries => exact .headers place fun entry _ => kept entry.1
  | array items ih => exact fun place => .array place fun item mem => ih item mem false
  | record members ih =>
    intro place
    refine .record place (fun member _ => ?_) fun member mem => ih member mem _
    rw [kept member.1, Bool.and_false]

end lists

theorem ignores_new (toLowerCase : JsString → JsString) (headers : List JsString) (key : JsString) :
    (new toLowerCase headers).ignores key = true ↔
      toLowerCase key ≠ [] ∧ ∃ header ∈ headers, toLowerCase header.trim = toLowerCase key := by
  have listed : toLowerCase key ∈ normalizeIgnoredHeaders toLowerCase headers ↔
      (∃ header ∈ headers, toLowerCase header.trim = toLowerCase key) ∧ toLowerCase key ≠ [] := by
    unfold normalizeIgnoredHeaders
    rw [mem_eraseDups, mem_filter, mem_map, decide_eq_true_eq]
  show decide (toLowerCase key ∈ normalizeIgnoredHeaders toLowerCase headers) = true ↔ _
  rw [decide_eq_true_eq, listed, and_comm]

end HeaderFilter

/-- The ignored headers are omitted from a value, and nothing else, exactly where the filter handles the
value in full. -/
theorem omits_ignored_iff (toLowerCase : JsString → JsString) (headers : List JsString) (protoAccessor : Bool)
    (v : LoggedValue) : (∀ key, (HeaderFilter.new toLowerCase headers).ignores key = true ↔
        toLowerCase key ≠ [] ∧ ∃ header ∈ headers, toLowerCase header.trim = toLowerCase key) ∧
      ((HeaderFilter.new toLowerCase headers).Omits false v
          ((HeaderFilter.new toLowerCase headers).omitIgnoredHeaders protoAccessor v) ↔
        (HeaderFilter.new toLowerCase headers).ignoredHeaders = [] ∨
          (HeaderFilter.new toLowerCase headers).Handled protoAccessor false v) := by
  refine ⟨HeaderFilter.ignores_new toLowerCase headers, ?_⟩
  generalize HeaderFilter.new toLowerCase headers = f
  unfold HeaderFilter.omitIgnoredHeaders
  by_cases none : f.ignoredHeaders = []
  · rw [if_pos none]
    have omits := (HeaderFilter.omits_self_iff v false).mpr (HeaderFilter.clean_nothing none v false)
    exact iff_of_true omits (.inl none)
  · rw [if_neg none, or_iff_right none]
    exact HeaderFilter.omits_iff_handled v false

def nestedHeaders : LoggedValue :=
  .record [(js "headers", .record [(js "inner", .record [(js "headers", .record [(js "cookie", .string (js "x"))])])])]

/-- The cookie is left, two levels below the headers. -/
theorem nested_cookie_stays : ¬∀ (toLowerCase : JsString → JsString) headers v,
    (HeaderFilter.new toLowerCase headers).Omits false v
      ((HeaderFilter.new toLowerCase headers).omitIgnoredHeaders false v) := by
  intro all
  have omits := all (fun name => name.map fun u => if 0x41 ≤ u ∧ u ≤ 0x5A then u + 0x20 else u)
    [js "Cookie"] nestedHeaders
  generalize made : HeaderFilter.new (fun name => name.map fun u => if 0x41 ≤ u ∧ u ≤ 0x5A then u + 0x20 else u)
    [js "Cookie"] = f at omits
  have same : f.omitIgnoredHeaders false nestedHeaders = nestedHeaders := by
    rw [← made]
    rfl
  have cookie : f.ignores (js "cookie") = true := by
    rw [← made]
    decide
  have outer : f.isHeaders (js "headers") = true := by
    rw [← made]
    decide
  rw [same, HeaderFilter.omits_self_iff] at omits
  cases omits with
  | record _ _ all =>
    have first := all _ (List.mem_singleton.mpr rfl)
    cases first with
    | record _ _ all =>
      have second := all _ (List.mem_singleton.mpr rfl)
      cases second with
      | record _ _ all =>
        have third := all _ (List.mem_singleton.mpr rfl)
        rw [outer] at third
        cases third with
        | record _ none _ =>
          have kept := none _ (List.mem_singleton.mpr rfl)
          rw [cookie] at kept
          cases kept

end ForgeDeno
