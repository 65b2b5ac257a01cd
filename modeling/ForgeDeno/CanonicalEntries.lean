import ForgeDeno.EntryRules
import ForgeDeno.EntryTemplates

namespace ForgeDeno

open EntryValue EntryText JsonValue List

section members

variable {V : Type} {protoAccessor : Bool}

theorem takeWhile_eq_filter {α : Type} {p : α → Bool} {l : List α}
    (closed : l.Pairwise fun a b => p b = true → p a = true) :
    l.takeWhile p = l.filter p ∧ l.dropWhile p = l.filter fun a => !p a := by
  induction l with
  | nil => exact ⟨rfl, rfl⟩
  | cons a l ih =>
    obtain ⟨first, rest⟩ := pairwise_cons.mp closed
    by_cases holds : p a = true
    · obtain ⟨front, back⟩ := ih rest
      simp [holds, front, back]
    · have later : ∀ b ∈ l, p b = false := by
        intro b mem
        by_contra other
        exact holds (first b mem (by simpa using other))
      have none_left : l.filter p = [] := filter_eq_nil_iff.mpr fun b mem => by simp [later b mem]
      have all_left : l.filter (fun a => !p a) = l := filter_eq_self.mpr fun b mem => by simp [later b mem]
      simp [holds, none_left, all_left]

theorem setMember_indexed {m : Details V} (order : InOrder m) {key : JsString} {index : Nat}
    (fresh : lookupMember m key = none) (number : arrayIndex? key = some index) (item : V) :
    setMember m key item =
      m.filter (numberedBelow index) ++ (key, item) :: m.filter fun member => !numberedBelow index member := by
  have closed : m.Pairwise fun a b => numberedBelow index b = true → numberedBelow index a = true := by
    unfold InOrder at order
    rw [pairwise_map] at order
    refine order.imp ?_
    intro a b before below
    have least := (Bool.and_eq_true_iff.mp before).2
    unfold numberedBelow at below ⊢
    cases hb : arrayIndex? b.1 with
    | none =>
      rw [hb] at below
      cases below
    | some j =>
      rw [hb] at least below
      cases ha : arrayIndex? a.1 with
      | none =>
        rw [ha] at least
        cases least
      | some i =>
        rw [ha] at least
        simp only [decide_eq_true_eq] at least below ⊢
        omega
  obtain ⟨front, back⟩ := takeWhile_eq_filter closed
  have rest : m.drop (m.takeWhile (numberedBelow index)).length = m.dropWhile (numberedBelow index) := by
    have cut := @List.drop_left _ (m.takeWhile (numberedBelow index)) (m.dropWhile (numberedBelow index))
    rwa [takeWhile_append_dropWhile] at cut
  unfold setMember
  rw [fresh, number]
  change m.takeWhile (numberedBelow index) ++ (key, item) :: m.drop (m.takeWhile (numberedBelow index)).length = _
  rw [rest, back, front]

theorem filter_setMember {m : Details V} (order : InOrder m) {key : JsString}
    (fresh : lookupMember m key = none) {p : JsString × V → Bool} {item : V} (kept : p (key, item) = true) :
    (setMember m key item).filter p = setMember (m.filter p) key item := by
  have order' : InOrder (m.filter p) := order.sublist (filter_sublist.map Prod.fst)
  have fresh' : lookupMember (m.filter p) key = none := by
    cases found : lookupMember (m.filter p) key with
    | none => rfl
    | some other =>
      have mem := (mem_filter.mp (lookupMember_mem found)).1
      rw [(lookupMember_iff order.nodup).mpr mem] at fresh
      cases fresh
  cases number : arrayIndex? key with
  | none =>
    have last : ∀ l : Details V, lookupMember l key = none → setMember l key item = l ++ [(key, item)] := by
      intro l missing
      unfold setMember
      rw [missing, number]
      rfl
    rw [last m fresh, last _ fresh', filter_append, filter_cons_of_pos kept]
    rfl
  | some index =>
    have swap : ∀ q : JsString × V → Bool, (m.filter q).filter p = (m.filter p).filter q := by
      intro q
      rw [filter_filter, filter_filter]
      exact filter_congr fun member _ => Bool.and_comm _ _
    rw [setMember_indexed order fresh number, setMember_indexed order' fresh' number, filter_append,
      filter_cons_of_pos kept, swap, swap]

theorem filter_foldl_setMember {out added : Details V} (order : InOrder out) (unique : (added.map Prod.fst).Nodup)
    {p : JsString × V → Bool} (kept : ∀ member ∈ added, p member = true)
    (fresh : ∀ member ∈ added, lookupMember out member.1 = none) :
    (added.foldl (fun out member => setMember out member.1 member.2) out).filter p =
      added.foldl (fun out member => setMember out member.1 member.2) (out.filter p) := by
  induction added generalizing out with
  | nil => rfl
  | cons member added ih =>
    obtain ⟨first, rest⟩ := nodup_cons.mp unique
    rw [foldl_cons, foldl_cons, ih (setMember_ordered order member.2) rest
      (fun other mem => kept other (mem_cons_of_mem _ mem)), filter_setMember order
        (fresh member mem_cons_self) (kept member mem_cons_self)]
    intro other mem
    have differs : other.1 ≠ member.1 := by
      intro same
      exact first (same ▸ mem_map_of_mem mem)
    rw [lookupMember_setMember, if_neg differs]
    exact fresh other (mem_cons_of_mem _ mem)

end members

section details

variable {V : Type} [EntryValue V] {protoAccessor : Bool}

def keptExtras (protoAccessor : Bool) (d : Details V) : Details V :=
  (detailExtras d).filter fun member => assigns protoAccessor member.1

theorem marshalDetails_eq (d : Details V) : marshalDetails protoAccessor d = (keptExtras protoAccessor d).foldl
      (fun out member => setMember out member.1 member.2) (writeFields detailFields d) :=
  assignAll_filter _ _

omit [EntryValue V] in
theorem keptExtras_ordered {d : Details V} (order : InOrder d) : InOrder (keptExtras protoAccessor d) :=
  order.sublist ((filter_sublist.trans filter_sublist).map Prod.fst)

omit [EntryValue V] in
theorem keptExtras_extra {d : Details V} {member : JsString × V} (mem : member ∈ keptExtras protoAccessor d) :
    member.1 ∉ DETAIL_SLOTS ∧ assigns protoAccessor member.1 = true := by
  obtain ⟨extra, made⟩ := mem_filter.mp mem
  exact ⟨of_decide_eq_true (mem_filter.mp extra).2, made⟩

theorem slot_of_written {d : Details V} {member : JsString × V} (mem : member ∈ writeFields detailFields d) :
    member.1 ∈ DETAIL_SLOTS := by
  have names : ∀ name ∈ detailFields.map Prod.fst, name ∈ DETAIL_SLOTS := by decide
  exact names _ (mem_writeFields mem)

theorem missing_of_not_slot {d : Details V} {key : JsString} (extra : key ∉ DETAIL_SLOTS) :
    lookupMember (writeFields detailFields d) key = none := by
  cases found : lookupMember (writeFields detailFields d) key with
  | none => rfl
  | some value => exact absurd (slot_of_written (lookupMember_mem found)) extra

theorem detailExtras_marshalDetails {d : Details V} (order : InOrder d) :
    detailExtras (marshalDetails protoAccessor d) = keptExtras protoAccessor d := by
  have slots_only : (writeFields detailFields d).filter (fun member => decide (member.1 ∉ DETAIL_SLOTS)) = [] := by
    apply filter_eq_nil_iff.mpr
    intro member mem
    simp [slot_of_written mem]
  have none_written : ∀ member ∈ keptExtras protoAccessor d,
      lookupMember (writeFields detailFields d) member.1 = none :=
    fun member mem => missing_of_not_slot (keptExtras_extra mem).1
  have all_extra : ∀ member ∈ keptExtras protoAccessor d, decide (member.1 ∉ DETAIL_SLOTS) = true :=
    fun member mem => decide_eq_true (keptExtras_extra mem).1
  unfold detailExtras
  rw [marshalDetails_eq, filter_foldl_setMember (writeFields_ordered _ _) (keptExtras_ordered order).nodup
    all_extra none_written, slots_only, setMember_foldl]
  · rfl
  · exact keptExtras_ordered order

theorem lookup_marshalDetails_slot {d : Details V} (order : InOrder d) {key : JsString}
    (slot : key ∈ DETAIL_SLOTS) :
    lookupMember (marshalDetails protoAccessor d) key = lookupMember (writeFields detailFields d) key := by
  have none_extra : lookupMember (keptExtras protoAccessor d) key = none := by
    cases found : lookupMember (keptExtras protoAccessor d) key with
    | none => rfl
    | some value => exact absurd slot (keptExtras_extra (lookupMember_mem found)).1
  rw [marshalDetails_eq, lookupMember_foldl _ _ (keptExtras_ordered order).nodup, none_extra, Option.none_or]

end details

section reading

theorem plusZero_eq (m n : JsNumber) : m.plusZero.eq n = m.eq n ∧ n.eq m.plusZero = n.eq m := by
  cases m with
  | nan | infinity negative => exact ⟨rfl, rfl⟩
  | finite x =>
    unfold JsNumber.plusZero
    dsimp only
    by_cases zero : x.mantissa = 0
    · have value : x.toRat = 0 := Double.toRat_zero.mpr zero
      rw [if_pos zero]
      cases n with
      | nan | infinity negative => exact ⟨rfl, rfl⟩
      | finite y =>
        unfold JsNumber.eq
        dsimp only
        rw [value, JsNumber.zero_toRat]
        exact ⟨rfl, rfl⟩
    · rw [if_neg zero]
      exact ⟨rfl, rfl⟩

theorem truthy_plusZero (v : JsonValue) : EntryValue.truthy v.plusZero = EntryValue.truthy v := by
  cases v with
  | number n =>
    show (!n.plusZero.eq 0 && n.plusZero.eq n.plusZero) = (!n.eq 0 && n.eq n)
    rw [(plusZero_eq n 0).1, (plusZero_eq n n.plusZero).1, (plusZero_eq n n).2]
  | _ => rfl

theorem nullish_plusZero (v : JsonValue) : nullish v.plusZero = nullish v := by
  cases v with
  | _ => rfl

theorem entries_plusZero (v : JsonValue) : (entries v.plusZero).isEmpty = (entries v).isEmpty := by
  cases v with
  | array items =>
    cases items with
    | nil | cons item items => rfl
  | object members =>
    cases members with
    | nil | cons member members => rfl
  | _ => rfl

theorem latency_plusZero (value : Option JsNumber) :
    (normalizeLatency value).plusZero = normalizeLatency value := by
  rcases normalizeLatency_cases value with zero | ⟨z, same, positive, _⟩
  · rw [zero]
    decide
  · have nonzero : z.mantissa ≠ 0 := fun zero => positive.ne' (Double.toRat_zero.mpr zero)
    rw [same]
    exact if_neg nonzero

theorem filter_settled {p : JsonValue → Bool} (keep : ∀ v, p v.plusZero = p v) (field : Option JsonValue) :
    ((field.filter p).map plusZero).filter p = (field.filter p).map plusZero := by
  cases field with
  | none => rfl
  | some v =>
    by_cases holds : p v = true
    · have again : p v.plusZero = true := (keep v).trans holds
      simp [Option.filter_some, holds, again]
    · have dropped : p v = false := by simpa using holds
      simp [Option.filter_some, dropped]

theorem emit_settled (rule : FieldRule) (field : Option JsonValue) :
    rule.emit ((rule.emit field).map plusZero) = (rule.emit field).map plusZero := by
  have latency : latencyOf (some (JsonValue.number (latencyOf field)).plusZero) = latencyOf field := by
    show normalizeLatency (some (latencyOf field).plusZero) = _
    unfold latencyOf
    rw [latency_plusZero, normalizeLatency_twice]
  have settled : (JsonValue.number (latencyOf field)).plusZero = .number (latencyOf field) :=
    congrArg JsonValue.number (latency_plusZero _)
  cases rule with
  | truthy => exact filter_settled truthy_plusZero field
  | present =>
    refine filter_settled (p := fun v => !nullish v) (fun v => ?_) field
    rw [nullish_plusZero]
  | keyed =>
    refine filter_settled (p := fun v => EntryValue.truthy v && !(entries v).isEmpty) (fun v => ?_) field
    rw [truthy_plusZero, entries_plusZero]
  | filled =>
    have present : nullish (orElse field (JsonValue.string [])) = false := by
      unfold orElse
      cases kept : field.filter fun value => !nullish value with
      | none => rfl
      | some value => simpa using (Option.filter_eq_some_iff.mp kept).2
    have again : nullish (orElse field (JsonValue.string [])).plusZero = false := (nullish_plusZero _).trans present
    show some (orElse (some (orElse field (JsonValue.string [])).plusZero) (JsonValue.string [])) =
      some (orElse field (JsonValue.string [])).plusZero
    generalize (orElse field (JsonValue.string [])).plusZero = v at again
    unfold orElse
    rw [Option.filter_some, again]
    rfl
  | latency =>
    show some (JsonValue.number (latencyOf (some (JsonValue.number (latencyOf field)).plusZero))) =
      some (JsonValue.number (latencyOf field)).plusZero
    rw [latency, settled]
  | positiveLatency =>
    by_cases positive : (0 : JsNumber).lt (latencyOf field) = true
    · have written : FieldRule.positiveLatency.emit field = some (JsonValue.number (latencyOf field)) :=
        if_pos positive
      rw [written]
      show (if (0 : JsNumber).lt (latencyOf (some (JsonValue.number (latencyOf field)).plusZero)) then
        some (JsonValue.number (latencyOf (some (JsonValue.number (latencyOf field)).plusZero))) else none) =
          some (JsonValue.number (latencyOf field)).plusZero
      rw [latency, settled, if_pos positive]
    · have written : FieldRule.positiveLatency.emit field = none := if_neg positive
      have nothing : (0 : JsNumber).lt (latencyOf (none : Option JsonValue)) = false := by decide +kernel
      rw [written]
      show (if (0 : JsNumber).lt (latencyOf (none : Option JsonValue)) then _ else none) = none
      rw [nothing, if_neg Bool.false_ne_true]

theorem setMember?_mapValues {α β : Type} (f : α → β) (out : Details α) (key : JsString) (field : Option α) :
    setMember? (mapValues f out) key (field.map f) = mapValues f (setMember? out key field) := by
  cases field with
  | none => rfl
  | some value => exact setMember_mapValues f out key value

theorem writeFields_map {rules : Details FieldRule} {s m : Details JsonValue}
    (same : ∀ rule ∈ rules, rule.2.emit (lookupMember m rule.1) =
      (rule.2.emit (lookupMember s rule.1)).map plusZero) :
    writeFields rules m = mapValues plusZero (writeFields rules s) := by
  have go : ∀ done : Details JsonValue, rules.foldl
      (fun out rule => setMember? out rule.1 (rule.2.emit (lookupMember m rule.1))) (mapValues plusZero done) =
        mapValues plusZero (rules.foldl
          (fun out rule => setMember? out rule.1 (rule.2.emit (lookupMember s rule.1))) done) := by
    induction rules with
    | nil => exact fun done => rfl
    | cons rule rules ih =>
      intro done
      rw [foldl_cons, foldl_cons, same rule mem_cons_self, setMember?_mapValues]
      exact ih (fun other mem => same other (mem_cons_of_mem _ mem)) _
  exact go []

theorem writeFields_settled {rules : Details FieldRule} (unique : (rules.map Prod.fst).Nodup)
    {s m : Details JsonValue}
    (held : ∀ rule ∈ rules, lookupMember m rule.1 = lookupMember (writeFields rules s) rule.1) :
    writeFields rules (mapValues plusZero m) = mapValues plusZero (writeFields rules s) := by
  apply writeFields_map
  intro rule mem
  have this_rule : lookupMember rules rule.1 = some rule.2 := (lookupMember_iff unique).mpr mem
  rw [lookupMember_mapValues, held rule mem, lookup_writeFields unique, this_rule, Option.bind_some, emit_settled]

theorem marshalProcess_settled (s : Details JsonValue) :
    marshalProcess (mapValues plusZero (marshalProcess s)) = mapValues plusZero (marshalProcess s) :=
  writeFields_settled (by decide) fun _ _ => rfl

theorem marshalDetails_settled {protoAccessor : Bool} {d : Details JsonValue} (order : InOrder d) :
    marshalDetails protoAccessor (mapValues plusZero (marshalDetails protoAccessor d)) =
      mapValues plusZero (marshalDetails protoAccessor d) := by
  have slots : ∀ rule ∈ detailFields, rule.1 ∈ DETAIL_SLOTS := by decide
  have written : writeFields detailFields (mapValues plusZero (marshalDetails protoAccessor d)) =
      mapValues plusZero (writeFields detailFields d) :=
    writeFields_settled (by decide) fun rule mem => lookup_marshalDetails_slot order (slots rule mem)
  have extras : keptExtras protoAccessor (mapValues plusZero (marshalDetails protoAccessor d)) =
      mapValues plusZero (keptExtras protoAccessor d) := by
    have moved : ∀ (p : JsString → Bool) (m : Details JsonValue),
        (mapValues plusZero m).filter (fun member => p member.1) =
          mapValues plusZero (m.filter fun member => p member.1) := by
      intro p m
      unfold mapValues
      rw [filter_map]
      rfl
    have again : (keptExtras protoAccessor d).filter (fun member => assigns protoAccessor member.1) =
        keptExtras protoAccessor d := filter_eq_self.mpr fun member mem => (keptExtras_extra mem).2
    have found := @detailExtras_marshalDetails _ _ protoAccessor d order
    unfold detailExtras at found
    unfold keptExtras detailExtras
    rw [moved (fun key => decide (key ∉ DETAIL_SLOTS)), found, moved (assigns protoAccessor), again]
    rfl
  rw [marshalDetails_eq, written, extras, marshalDetails_eq]
  generalize keptExtras protoAccessor d = added
  generalize writeFields detailFields d = out
  induction added generalizing out with
  | nil => rfl
  | cons member added ih =>
    show (mapValues plusZero added).foldl _ (setMember (mapValues plusZero out) member.1 member.2.plusZero) = _
    rw [setMember_mapValues, ih]
    rfl

end reading

section entry

variable {protoAccessor : Bool}

/-- An entry whose details are an object, whose processes are objects, and whose line is a number, all of
them JSON values. -/
structure LogFormat.Typed (log : LogFormat JsonValue) : Prop where
  details : ∃ members, log.details = .object members ∧ log.details.WellFormed
  process : ∀ item ∈ log.process, ∃ members, item = .object members ∧ item.WellFormed
  line : ∃ n, log.line = .number n ∧ n.isFinite = true

def canonicalMembers (log : LogFormat JsonValue) (details : Details JsonValue) (rows : List JsonValue)
    (line latency : JsNumber) : Details JsonValue :=
  [(js "level", .string log.level), (js "timestamp", .string log.timestamp),
    (js "traceID", .string log.traceID)] ++
  ((nonempty log.spanID).map fun spanID => (js "spanID", JsonValue.string spanID)).toList ++
  [(js "message", .string log.message), (js "details", .object details)] ++
  (if rows = [] then [] else [(js "process", .array rows)]) ++
  [(js "method", .string log.method), (js "line", .number line), (js "latency", .number latency)]

theorem object_plusZero (members : Details JsonValue) :
    (JsonValue.object members).plusZero = .object (mapValues plusZero members) :=
  congrArg object (membersPlusZero_map members)

theorem canonicalMembers_plusZero (log : LogFormat JsonValue) (details : Details JsonValue)
    (rows : List JsonValue) (line latency : JsNumber) :
    mapValues plusZero (canonicalMembers log details rows line latency) =
      canonicalMembers log (mapValues plusZero details) (rows.map plusZero) line.plusZero latency.plusZero := by
  have object := object_plusZero details
  unfold canonicalMembers mapValues at *
  cases nonempty log.spanID with
  | none =>
    cases rows with
    | nil =>
      show [_, _, _, _, (_, (JsonValue.object details).plusZero), _, _, _] = _
      rw [object]
      rfl
    | cons row rows =>
      show [_, _, _, _, (_, (JsonValue.object details).plusZero), (_, JsonValue.array (itemsPlusZero _)), _, _, _] = _
      rw [object, itemsPlusZero_map]
      rfl
  | some spanID =>
    cases rows with
    | nil =>
      show [_, _, _, _, _, (_, (JsonValue.object details).plusZero), _, _, _] = _
      rw [object]
      rfl
    | cons row rows =>
      show [_, _, _, _, _, (_, (JsonValue.object details).plusZero), (_, JsonValue.array (itemsPlusZero _)),
        _, _, _] = _
      rw [object, itemsPlusZero_map]
      rfl

theorem coerce_canonicalMembers (log : LogFormat JsonValue) (details : Details JsonValue)
    (rows : List JsonValue) (line latency : JsNumber) :
    coerceEntry (canonicalMembers log details rows line latency) =
      { level := log.level, timestamp := log.timestamp, traceID := log.traceID,
        spanID := nonempty (nonempty log.spanID), message := log.message, details := .object details,
        process := rows, method := log.method, line := .number line,
        latency := .number (normalizeLatency (some latency)) } := by
  unfold canonicalMembers
  cases nonempty log.spanID with
  | none =>
    cases rows with
    | nil | cons row rows => rfl
  | some spanID =>
    cases rows with
    | nil | cons row rows => rfl

theorem mapM_marshalRow {items : List JsonValue} (objects : ∀ item ∈ items, ∃ members, item = .object members) :
    items.mapM marshalRow = some (items.map fun item => .object (marshalProcess (entries item))) := by
  induction items with
  | nil => rfl
  | cons item items ih =>
    obtain ⟨members, same⟩ := objects item mem_cons_self
    have first : marshalRow item = some (.object (marshalProcess (entries item))) := by
      rw [same]
      rfl
    rw [mapM_cons, first, ih fun other mem => objects other (mem_cons_of_mem _ mem)]
    rfl

theorem entryObject_eq {log : LogFormat JsonValue} {details : Details JsonValue} {line : JsNumber}
    (object : log.details = .object details) (number : log.line = .number line)
    (objects : ∀ item ∈ log.process, ∃ members, item = .object members) :
    entryObject protoAccessor log = some (.object (canonicalMembers log (marshalDetails protoAccessor details)
      (log.process.map fun item => .object (marshalProcess (entries item))) line
      (latencyOf (some log.latency)))) := by
  unfold entryObject
  rw [mapM_marshalRow objects, object, number]
  rfl

def ValuesWellFormed (members : Details JsonValue) : Prop := ∀ member ∈ members, member.2.WellFormed

variable {members s details : Details JsonValue}

theorem wellFormed_object :
    (JsonValue.object members).WellFormed ↔ InOrder members ∧ ValuesWellFormed members :=
  and_congr_right fun _ => membersWellFormed_iff members

theorem setMember_values (h : ValuesWellFormed members) (key : JsString)
    {item : JsonValue} (wf : item.WellFormed) : ValuesWellFormed (setMember members key item) := by
  intro member mem
  rcases mem_setMember mem with before | same
  · exact h member before
  · rw [same]
    exact wf

theorem emit_wellFormed (h : ValuesWellFormed s) (rule : FieldRule) (key : JsString)
    {value : JsonValue} (written : rule.emit (lookupMember s key) = some value) : value.WellFormed := by
  have held : ∀ {v}, lookupMember s key = some v → v.WellFormed := fun found => h _ (lookupMember_mem found)
  have kept : ∀ {p : JsonValue → Bool} {v}, (lookupMember s key).filter p = some v → v.WellFormed :=
    fun found => held (Option.filter_eq_some_iff.mp found).1
  have latency : (number (latencyOf (lookupMember s key))).WellFormed := normalizeLatency_finite _
  cases rule with
  | truthy | present | keyed => exact kept written
  | filled =>
    rw [← Option.some.inj written]
    unfold orElse
    cases found : (lookupMember s key).filter fun value => !nullish value with
    | none => trivial
    | some v => exact kept found
  | latency =>
    rw [← Option.some.inj written]
    exact latency
  | positiveLatency =>
    have shape : (if (0 : JsNumber).lt (latencyOf (lookupMember s key)) then
      some (number (latencyOf (lookupMember s key))) else none) = some value := written
    split at shape
    · rw [← Option.some.inj shape]
      exact latency
    · cases shape

theorem writeFields_values (h : ValuesWellFormed s) {rules : Details FieldRule}
    (unique : (rules.map Prod.fst).Nodup) : ValuesWellFormed (writeFields rules s) := by
  intro member mem
  have found := (lookupMember_iff (writeFields_ordered rules s).nodup).mpr mem
  rw [lookup_writeFields unique] at found
  obtain ⟨rule, _, written⟩ := Option.bind_eq_some_iff.mp found
  exact emit_wellFormed h rule _ written

theorem marshalDetails_wellFormed (h : ValuesWellFormed details) :
    (JsonValue.object (marshalDetails protoAccessor details)).WellFormed := by
  refine wellFormed_object.mpr ⟨assignAll_ordered (writeFields_ordered _ _) _, ?_⟩
  have extras : ValuesWellFormed (keptExtras protoAccessor details) := fun member mem =>
    h member (mem_filter.mp (mem_filter.mp mem).1).1
  have slots : ValuesWellFormed (writeFields detailFields details) := writeFields_values h (by decide)
  rw [marshalDetails_eq]
  generalize keptExtras protoAccessor details = added at extras
  generalize writeFields detailFields details = out at slots
  induction added generalizing out with
  | nil => exact slots
  | cons member added ih =>
    exact ih (fun other mem => extras other (mem_cons_of_mem _ mem)) _
      (setMember_values slots _ (extras member mem_cons_self))

theorem canonicalMembers_wellFormed {log : LogFormat JsonValue}
    {rows : List JsonValue} {line latency : JsNumber} (object : (JsonValue.object details).WellFormed)
    (items : ∀ row ∈ rows, row.WellFormed) (number : line.isFinite = true) (time : latency.isFinite = true) :
    (JsonValue.object (canonicalMembers log details rows line latency)).WellFormed := by
  have array : (JsonValue.array rows).WellFormed := (itemsWellFormed_iff rows).mpr items
  refine wellFormed_object.mpr ⟨?_, ?_⟩
  · unfold InOrder canonicalMembers
    cases nonempty log.spanID with
    | none =>
      cases rows with
      | nil | cons row rows => exact of_decide_eq_true (by rfl)
    | some spanID =>
      cases rows with
      | nil | cons row rows => exact of_decide_eq_true (by rfl)
  · have nothing : ∀ member ∈ ([] : Details JsonValue), member.2.WellFormed := nofun
    have span : ∀ member ∈ ((nonempty log.spanID).map fun spanID => (js "spanID", JsonValue.string spanID)).toList,
        member.2.WellFormed := by
      intro member mem
      obtain ⟨spanID, _, same⟩ := Option.map_eq_some_iff.mp (Option.mem_toList.mp mem)
      rw [← same]
      trivial
    have process : ∀ member ∈ (if rows = [] then [] else [(js "process", JsonValue.array rows)]),
        member.2.WellFormed := by
      intro member mem
      split at mem
      · cases mem
      · rw [mem_singleton.mp mem]
        exact array
    unfold ValuesWellFormed canonicalMembers
    simp only [forall_mem_append, forall_mem_cons]
    exact ⟨⟨⟨⟨⟨trivial, trivial, trivial, nothing⟩, span⟩, trivial, object, nothing⟩, process⟩, trivial, number,
      time, nothing⟩

theorem normalizeProcessLatency_object (members : Details JsonValue) :
    normalizeProcessLatency (JsonValue.object members) = .object
      ((lookupMember members (js "latency")).elim members fun latency =>
        setMember members (js "latency") (.number (latencyOf (some latency)))) := by
  have whole : entries (object members) = members := rfl
  have object : isObject (object members) = true := rfl
  unfold normalizeProcessLatency
  rw [object, if_pos rfl, whole]
  cases lookupMember members (js "latency") with
  | none | some latency => rfl

theorem typed_normalizeLog {log : LogFormat JsonValue} (typed : log.Typed) : (normalizeLog log).Typed := by
  refine ⟨typed.details, ?_, typed.line⟩
  intro item mem
  obtain ⟨source, inside, rfl⟩ := mem_map.mp mem
  obtain ⟨members, same, wf⟩ := typed.process source inside
  rw [same] at wf ⊢
  obtain ⟨order, values⟩ := wellFormed_object.mp wf
  rw [normalizeProcessLatency_object]
  refine ⟨_, rfl, ?_⟩
  cases lookupMember members (js "latency") with
  | none => exact wf
  | some latency =>
    exact wellFormed_object.mpr ⟨setMember_ordered order _, setMember_values values _ (normalizeLatency_finite _)⟩

theorem nonempty_twice (text : Option JsString) : nonempty (nonempty text) = nonempty text := by
  unfold nonempty
  rw [Option.filter_filter]
  simp

theorem entryObject_again {log : LogFormat JsonValue} {details : Details JsonValue} {rows : List JsonValue}
    {line latency : JsNumber}
    (settled_details : marshalDetails protoAccessor (mapValues plusZero details) = mapValues plusZero details)
    (settled_rows : ∀ row ∈ rows, ∃ members, row.plusZero = .object members ∧ marshalProcess members = members)
    (settled_time : latency.plusZero = latency ∧ normalizeLatency (some latency) = latency) :
    entryObject protoAccessor (coerceEntry (mapValues plusZero (canonicalMembers log details rows line latency))) =
      some (.object (mapValues plusZero (canonicalMembers log details rows line latency))) := by
  have objects : ∀ row ∈ rows.map plusZero, ∃ members, row = JsonValue.object members := by
    intro row mem
    obtain ⟨source, inside, rfl⟩ := mem_map.mp mem
    exact (settled_rows source inside).imp fun _ h => h.1
  have same_rows : (rows.map plusZero).map (fun item => JsonValue.object (marshalProcess (entries item))) =
      rows.map plusZero := by
    apply map_eq_self_iff.mpr
    intro row mem
    obtain ⟨source, inside, rfl⟩ := mem_map.mp mem
    obtain ⟨members, object, settled⟩ := settled_rows source inside
    rw [object]
    exact congrArg JsonValue.object settled
  have same_time : latencyOf (some (JsonValue.number latency)) = latency := settled_time.2
  rw [canonicalMembers_plusZero, coerce_canonicalMembers, settled_time.1, settled_time.2,
    entryObject_eq rfl rfl objects, settled_details]
  dsimp only
  rw [same_rows, same_time]
  unfold canonicalMembers
  dsimp only
  rw [nonempty_twice, nonempty_twice]

theorem marshalEntry_settled {log : LogFormat JsonValue} (typed : log.Typed) :
    ∃ members text, (JsonValue.object members).WellFormed ∧ text = (JsonValue.object members).text ∧
      marshalEntry protoAccessor log = some text ∧
      marshalEntry protoAccessor (coerceEntry (mapValues plusZero members) : LogFormat JsonValue) = some text := by
  obtain ⟨details, object, wf⟩ := typed.details
  obtain ⟨line, number, finite⟩ := typed.line
  rw [object] at wf
  obtain ⟨order, values⟩ := wellFormed_object.mp wf
  have objects : ∀ item ∈ log.process, ∃ members, item = JsonValue.object members := fun item mem =>
    (typed.process item mem).imp fun _ h => h.1
  have rows_wf : ∀ row ∈ log.process.map fun item => JsonValue.object (marshalProcess (entries item)),
      row.WellFormed := by
    intro row mem
    obtain ⟨item, inside, rfl⟩ := mem_map.mp mem
    obtain ⟨members, same, wf⟩ := typed.process item inside
    rw [same] at wf ⊢
    exact wellFormed_object.mpr
      ⟨writeFields_ordered _ _, writeFields_values (wellFormed_object.mp wf).2 (by decide)⟩
  have written := @entryObject_eq protoAccessor log details line object number objects
  generalize rows : (log.process.map fun item => JsonValue.object (marshalProcess (entries item))) = marshalled
    at written rows_wf
  generalize time : latencyOf (some log.latency) = latency at written
  have latency_finite : latency.isFinite = true := by
    rw [← time]
    exact normalizeLatency_finite _
  let members := canonicalMembers log (marshalDetails protoAccessor details) marshalled line latency
  refine ⟨members, (JsonValue.object members).text,
    canonicalMembers_wellFormed (marshalDetails_wellFormed values) rows_wf finite latency_finite, rfl, ?_, ?_⟩
  · unfold marshalEntry
    rw [written]
    rfl
  · have settled_time : latency.plusZero = latency ∧ normalizeLatency (some latency) = latency := by
      rw [← time]
      exact ⟨latency_plusZero _, normalizeLatency_twice _⟩
    have settled_rows : ∀ row ∈ marshalled, ∃ members, row.plusZero = .object members ∧
        marshalProcess members = members := by
      intro row mem
      rw [← rows] at mem
      obtain ⟨item, _, rfl⟩ := mem_map.mp mem
      exact ⟨_, object_plusZero _, marshalProcess_settled _⟩
    have again := @entryObject_again protoAccessor log _ marshalled line latency
      (marshalDetails_settled order) settled_rows settled_time
    unfold marshalEntry
    rw [again]
    show some (JsonValue.object (mapValues plusZero members)).text = _
    rw [← object_plusZero, text_plusZero]

end entry

section template

variable (host : TemplateHost JsonValue) (protoAccessor : Bool)

def JSON_TEMPLATE : JsString := js "\x7b\x7bjson .\x7d\x7d"

theorem evalAction_json {log : LogFormat JsonValue} {text : JsString}
    (written : marshalEntry protoAccessor log = some text) :
    evalAction host protoAccessor log (js "json .") = .ok (.value (.string text)) := by
  have tokens : tokenize (js "json .") = .ok [js "json", js "."] := by rfl
  have known : templateFunction host protoAccessor log (js "json") = some _ := if_pos rfl
  unfold evalAction
  rw [tokens]
  show evalTokens host protoAccessor log _ [js "json", js "."] = _
  unfold evalTokens
  rw [known]
  show (orTypeError (marshalEntry protoAccessor log)).map _ = _
  rw [written]
  rfl

theorem renderTemplate_json {log : LogFormat JsonValue} {text : JsString}
    (written : marshalEntry protoAccessor log = some text) :
    renderTemplate host protoAccessor log JSON_TEMPLATE = .ok text := by
  have opened : cutAt 0x7B JSON_TEMPLATE = some ([], js "json .\x7d\x7d") := by rfl
  have closed : cutAt 0x7D (js "json .\x7d\x7d") = some (js "json .", []) := by rfl
  have trimmed : JsString.trim (js "json .") = js "json ." := by decide
  unfold renderTemplate renderFrom
  rw [opened]
  dsimp only
  rw [closed]
  dsimp only
  rw [trimmed, evalAction_json host protoAccessor written]
  show Except.ok ([] ++ text ++ []) = Except.ok text
  rw [append_nil, nil_append]

/-- Of an entry with fields of their declared types the template that writes the entry as JSON gives the text
of the JSON layout: the text is one of an object, and the entry that is read back of it is written to the same
text. -/
theorem json_template_eq_json (log : LogFormat JsonValue) (typed : log.Typed) :
    ∃ text members, formatJSON protoAccessor log = some text ∧
      formatTemplate host protoAccessor log JSON_TEMPLATE = .ok text ∧
      JsonText.parse text = some (.object members) ∧
      marshalEntry protoAccessor (coerceEntry members : LogFormat JsonValue) = some text := by
  obtain ⟨members, text, wf, written, marshalled, again⟩ :=
    @marshalEntry_settled protoAccessor _ (typed_normalizeLog typed)
  have parsed : JsonText.parse text = some (.object (mapValues plusZero members)) := by
    rw [written, JsonText.parse_text wf, object_plusZero]
  have shape : (JsonValue.object members).text =
      0x7B :: JsonText.commaSeparated (memberTexts members) ++ [0x7D] := rfl
  have trimmed : text.trim = text := by
    rw [written, shape]
    exact trim_enclosed (by decide) (by decide) _
  refine ⟨text, mapValues plusZero members, marshalled, ?_, parsed, again⟩
  unfold formatTemplate executeTemplate
  rw [renderTemplate_json host protoAccessor marshalled]
  refine ExceptRules.bind_ok.mpr ⟨text, rfl, ?_⟩
  rw [trimmed, parsed]
  show Except.ok ((marshalEntry protoAccessor (coerceEntry (mapValues plusZero members)
    : LogFormat JsonValue)).getD text) = _
  rw [again]
  rfl

def plainHost : TemplateHost JsonValue where
  toLowerCase := id
  inherited := fun _ _ => none
  inheritedFunction := fun _ => none

def serviceEntry : LogFormat JsonValue where
  level := js "INFO"
  timestamp := js "2026-01-02T03:04:05.678"
  traceID := js "t1"
  spanID := some (js "s1")
  message := js "ready"
  details := .object [(js "system", .string (js "api")), (js "attempt", .number 2)]
  process := [.object [(js "system", .string (js "db")), (js "latency", .number 12)]]
  method := js "main"
  line := .number 7
  latency := .number 3

/-- The template gives this entry as the JSON layout does. -/
theorem service_entry_template : ∃ text, formatJSON false serviceEntry = some text ∧
      formatTemplate plainHost false serviceEntry JSON_TEMPLATE = .ok text := by
  have finite : (2 : JsNumber).isFinite = true ∧ (7 : JsNumber).isFinite = true ∧
      (12 : JsNumber).isFinite = true := by decide +kernel
  have typed : serviceEntry.Typed := by
    refine ⟨⟨_, rfl, ⟨of_decide_eq_true (by rfl), trivial, finite.1, trivial⟩⟩, ?_, ⟨7, rfl, finite.2.1⟩⟩
    intro item mem
    rw [List.mem_singleton.mp mem]
    exact ⟨_, rfl, ⟨of_decide_eq_true (by rfl), trivial, finite.2.2, trivial⟩⟩
  obtain ⟨text, members, written, rendered, -⟩ := json_template_eq_json plainHost false serviceEntry typed
  exact ⟨text, written, rendered⟩

end template

end ForgeDeno
