import ForgeDeno.LogHeap
import ForgeDeno.JsonUtf8

namespace ForgeDeno

open EntryValue EntryText JsonText List Option

def Clear (p : UInt16 → Bool) (s : JsString) : Prop := ∀ u ∈ s, p u = false

section clear

variable {p : UInt16 → Bool}

theorem clear_append {s t : JsString} : Clear p (s ++ t) ↔ Clear p s ∧ Clear p t :=
  forall_mem_append

theorem clear_cons {u : UInt16} {s : JsString} : Clear p (u :: s) ↔ p u = false ∧ Clear p s :=
  forall_mem_cons

theorem clear_nil : Clear p [] := nofun

theorem clear_intercalate {separator : JsString} (plain : Clear p separator) {parts : List JsString} :
    Clear p (separator.intercalate parts) ↔ ∀ part ∈ parts, Clear p part := by
  induction parts with
  | nil => exact iff_of_true clear_nil nofun
  | cons part parts ih =>
    rw [forall_mem_cons, ← ih]
    cases parts with
    | nil =>
      have one : separator.intercalate [part] = part := by simp [intercalate]
      have none_left : separator.intercalate [] = [] := rfl
      rw [one, none_left]
      exact (and_iff_left clear_nil).symm
    | cons other parts =>
      have first : separator.intercalate (part :: other :: parts) =
          part ++ (separator ++ separator.intercalate (other :: parts)) := by simp [intercalate]
      rw [first, clear_append, clear_append]
      exact and_congr_right fun _ => and_iff_right plain

theorem clear_commaSeparated (comma : p 0x2C = false) {texts : List JsString}
    (all : ∀ text ∈ texts, Clear p text) : Clear p (commaSeparated texts) := by
  induction texts with
  | nil => exact clear_nil
  | cons s rest ih =>
    have others := ih fun text mem => all text (mem_cons_of_mem s mem)
    cases rest with
    | nil => exact all s mem_cons_self
    | cons t rest => exact clear_append.mpr ⟨all s mem_cons_self, clear_cons.mpr ⟨comma, others⟩⟩

end clear

def OnlyControl (p : UInt16 → Bool) : Prop := ∀ u : UInt16, p u = true → u.toNat < 0x20

section texts

variable {p : UInt16 → Bool} (control : OnlyControl p)

include control

theorem clear_unit {u : UInt16} (visible : 0x20 ≤ u.toNat) : p u = false := by
  by_contra other
  have low := control u (by simpa using other)
  omega

theorem clear_visible {s : JsString} (visible : ∀ u ∈ s, 0x20 ≤ u.toNat) : Clear p s := fun u mem =>
  clear_unit control (visible u mem)

theorem clear_hexText (u : UInt16) : Clear p (hexText u) := by
  have digit : ∀ n < 16, 0x20 ≤ (if n < 10 then (0x30 + n).toUInt16 else (0x57 + n).toUInt16).toNat := by
    decide
  have bound := u.toNat_lt
  apply clear_visible control
  intro v mem
  simp only [hexText, mem_cons, not_mem_nil, or_false] at mem
  rcases mem with rfl | rfl | rfl | rfl
  · exact digit _ (by omega)
  · exact digit _ (by omega)
  · exact digit _ (by omega)
  · exact digit _ (by omega)

theorem clear_escape (u : UInt16) : Clear p (0x5C :: 0x75 :: hexText u) :=
  clear_cons.mpr ⟨clear_unit control (by decide),
    clear_cons.mpr ⟨clear_unit control (by decide), clear_hexText control u⟩⟩

theorem clear_quoteUnit (u : UInt16) : Clear p (quoteUnit u) := by
  unfold quoteUnit
  split
  next => exact clear_visible control (by decide)
  next => exact clear_visible control (by decide)
  next => exact clear_visible control (by decide)
  next => exact clear_visible control (by decide)
  next => exact clear_visible control (by decide)
  next => exact clear_visible control (by decide)
  next => exact clear_visible control (by decide)
  next =>
    split
    · exact clear_escape control u
    next high =>
      refine clear_cons.mpr ⟨clear_unit control ?_, clear_nil⟩
      have bound : ¬u.toNat < (0x20 : UInt16).toNat := fun low => high (UInt16.lt_iff_toNat_lt.mpr low)
      exact Nat.le_of_not_lt bound

theorem surrogate_visible {u : UInt16} (surrogate : (JsString.isHighSurrogate u || JsString.isLowSurrogate u) = true) :
    p u = false := by
  apply clear_unit control
  rcases Bool.or_eq_true_iff.mp surrogate with high | low
  · have bound := UInt16.le_iff_toNat_le.mp (of_decide_eq_true (Bool.and_eq_true_iff.mp high).1)
    exact le_trans (by decide) bound
  · have bound := UInt16.le_iff_toNat_le.mp (of_decide_eq_true (Bool.and_eq_true_iff.mp low).1)
    exact le_trans (by decide) bound

theorem clear_quote (s : JsString) : Clear p (quote s) := by
  have inside : Clear p (quoteUnits s) := by
    induction s using quoteUnits.induct with
    | case1 => exact clear_nil
    | case2 u surrogate =>
      rw [quoteUnits, if_pos surrogate]
      exact clear_escape control u
    | case3 u ordinary =>
      rw [quoteUnits, if_neg ordinary]
      exact clear_quoteUnit control u
    | case4 u v rest pair ih =>
      rw [quoteUnits, if_pos pair]
      obtain ⟨high, low⟩ := Bool.and_eq_true_iff.mp pair
      have first : (JsString.isHighSurrogate u || JsString.isLowSurrogate u) = true := by rw [high]; rfl
      have second : (JsString.isHighSurrogate v || JsString.isLowSurrogate v) = true := by
        rw [low]
        exact Bool.or_true _
      exact clear_cons.mpr ⟨surrogate_visible control first, clear_cons.mpr ⟨surrogate_visible control second, ih⟩⟩
    | case5 u v rest unpaired surrogate ih =>
      rw [quoteUnits, if_neg unpaired, if_pos surrogate]
      exact clear_append.mpr ⟨clear_escape control u, ih⟩
    | case6 u v rest unpaired ordinary ih =>
      rw [quoteUnits, if_neg unpaired, if_neg ordinary]
      exact clear_append.mpr ⟨clear_quoteUnit control u, ih⟩
  have mark : p 0x22 = false := clear_unit control (by decide)
  exact clear_append.mpr ⟨clear_cons.mpr ⟨mark, inside⟩, clear_cons.mpr ⟨mark, clear_nil⟩⟩

theorem clear_numberText (n : JsNumber) : Clear p (numberText n) := by
  have numeric : ∀ {s : JsString}, Numeric s → Clear p s := by
    intro s h
    apply clear_visible control
    intro u mem
    rcases h u mem with digit | sign
    · have low := (isDigit_bounds digit).1
      omega
    · revert sign
      simp only [mem_cons, not_mem_nil, or_false]
      rintro (rfl | rfl | rfl | rfl) <;> decide
  cases n with
  | nan => exact clear_visible control (by decide)
  | infinity negative => cases negative <;> exact clear_visible control (by decide)
  | finite x =>
    unfold numberText
    dsimp only
    split
    · exact clear_visible control (by decide)
    · split
      · exact clear_cons.mpr ⟨clear_unit control (by decide), numeric (positiveText_numeric _)⟩
      · exact numeric (positiveText_numeric _)

end texts

section lists

variable {α β : Type}

theorem mapM_forall {f : α → Option β} {l : List α} {out : List β} (made : l.mapM f = some out)
    {P : β → Prop} {Q : α → Prop} (each : ∀ a ∈ l, ∀ b, f a = some b → (P b ↔ Q a)) :
    (∀ b ∈ out, P b) ↔ ∀ a ∈ l, Q a := by
  induction l generalizing out with
  | nil =>
    cases made
    exact iff_of_true (fun _ mem => absurd mem not_mem_nil) fun _ mem => absurd mem not_mem_nil
  | cons a l ih =>
    rw [mapM_cons] at made
    obtain ⟨b, first, made⟩ := bind_eq_some_iff.mp made
    obtain ⟨rest, others, made⟩ := bind_eq_some_iff.mp made
    cases made
    rw [forall_mem_cons, forall_mem_cons, each a mem_cons_self b first,
      ih others fun c mem => each c (mem_cons_of_mem _ mem)]

end lists

section raw

variable {V : Type} [EntryText V]

/-- The text of a value that `JSON.stringify` does not write. -/
def unwritten (v : V) : List JsString :=
  if nullish v then []
  else
    match stringify v with
    | some none => (toText v).toList
    | _ => []

def TextForm.rawTexts : TextForm → V → List JsString
  | .raw, v => (template v).toList
  | .json, v => unwritten v
  | .milliseconds, _ => []

def rawValue (v : V) : List JsString :=
  if nullish v then []
  else
    match string? v with
    | some text => [text]
    | none => unwritten v

def rawFields (rules : Details (FieldRule × TextForm)) (s : Details V) : List JsString :=
  rules.flatMap fun rule => ((rule.2.1.emit (lookupMember s rule.1)).map rule.2.2.rawTexts).getD []

def rawDetails (d : Details V) : List JsString :=
  rawFields detailTexts d ++ (detailExtras d).flatMap fun extra => extra.1 :: rawValue extra.2

def LogFormat.rawTexts (log : LogFormat V) : List JsString :=
  [log.timestamp, log.level, log.traceID, log.method] ++ (template log.line).toList ++ [log.message] ++
    rawDetails (entries (orElse (some log.details) (record [(js "system", string [])]))) ++
    log.process.flatMap fun item => rawFields processTexts (entries item)

end raw

section normalized

variable {O : Type} {heap : LogHeap O}

theorem template_number [DecidableEq O] {n : JsNumber} {text : JsString}
    (shown : template (V := HeapValue heap) (.number n) = some text) : text = numberText n := by
  change heap.template heap.levels [] (.number n) = some text at shown
  cases levels : heap.levels with
  | zero =>
    rw [levels] at shown
    cases shown
  | succ left =>
    rw [levels] at shown
    exact (some.inj shown).symm

theorem lookup_indexed (items : List (LogTree O)) : lookupMember (indexed items) (js "latency") = none := by
  cases found : lookupMember (indexed items) (js "latency") with
  | none => rfl
  | some v =>
    obtain ⟨⟨item, i⟩, _, same⟩ := mem_map.mp (lookupMember_mem found)
    have key : naturalText i = js "latency" := congrArg Prod.fst same
    have digits := naturalText_digits i 0x6C (by rw [key]; decide)
    cases digits

theorem latency_normalized {item v : HeapValue heap}
    (found : lookupMember (entries (normalizeProcessLatency item)) (js "latency") = some v) :
    ∃ n, v = .number n := by
  unfold normalizeProcessLatency at found
  split at found
  next =>
    split at found
    next missing =>
      rw [missing] at found
      cases found
    next latency _ =>
      have set := @lookupMember_setMember _ (entries item) (js "latency") (js "latency")
        (EntryValue.number (latencyOf (some latency)))
      rw [if_pos rfl] at set
      have same : some v = some (EntryValue.number (latencyOf (some latency))) := found.symm.trans set
      exact ⟨_, some.inj same⟩
  next plain =>
    exfalso
    change lookupMember (heap.entries item) (js "latency") = some v at found
    unfold LogHeap.entries at found
    split at found
    next =>
      rw [lookup_indexed] at found
      cases found
    next same => exact plain (by simp [isObject, same])
    next same => exact plain (by simp [isObject, same])
    next same => exact plain (by simp [isObject, same])
    next => cases found

theorem lookup_normalized (item : HeapValue heap) {key : JsString} (other : key ≠ js "latency") :
    lookupMember (entries (normalizeProcessLatency item)) key = lookupMember (entries item) key := by
  unfold normalizeProcessLatency
  split
  next =>
    split
    next => rfl
    next latency _ =>
      have set := @lookupMember_setMember _ (entries item) (js "latency") key
        (EntryValue.number (latencyOf (some latency)))
      rw [if_neg other] at set
      exact set
  next => rfl

end normalized

section layouts

variable {O : Type} {heap : LogHeap O} {p : UInt16 → Bool} (control : OnlyControl p)

include control

variable {text : JsString}

theorem clear_stringify {levels : Nat} {v : LogTree O}
    (made : heap.stringify levels v = some (some text)) : Clear p text := by
  induction levels generalizing v text with
  | zero => cases made
  | succ levels ih =>
    have opened : ∀ {open_ close : UInt16} {texts : List JsString}, 0x20 ≤ open_.toNat → 0x20 ≤ close.toNat →
        (∀ text ∈ texts, Clear p text) → Clear p (open_ :: commaSeparated texts ++ [close]) := by
      intro open_ close texts first last all
      exact clear_append.mpr ⟨clear_cons.mpr ⟨clear_unit control first,
        clear_commaSeparated (clear_unit control (by decide)) all⟩,
        clear_cons.mpr ⟨clear_unit control last, clear_nil⟩⟩
    have opened_members : ∀ members : Details (LogTree O), (do
        let texts ← members.mapM fun member =>
          (heap.stringify levels member.2).map fun text => text.map (quote member.1 ++ 0x3A :: ·)
        some (some (0x7B :: commaSeparated (texts.filterMap id) ++ [0x7D]))) = some (some text) →
          Clear p text := by
      intro members made
      obtain ⟨texts, each, made⟩ := bind_eq_some_iff.mp made
      cases made
      have clear : ∀ part ∈ texts, ∀ text, part = some text → Clear p text := by
        refine (mapM_forall each (Q := fun _ => True) fun member _ part found => iff_true_intro ?_).mpr
          fun _ _ => trivial
        intro text same
        obtain ⟨inner, written, shown⟩ := map_eq_some_iff.mp found
        rw [same] at shown
        obtain ⟨value, value_text, rfl⟩ := map_eq_some_iff.mp shown
        rw [value_text] at written
        exact clear_append.mpr ⟨clear_quote control _, clear_cons.mpr ⟨clear_unit control (by decide), ih written⟩⟩
      apply opened (by decide) (by decide)
      intro text mem
      obtain ⟨part, inside, same⟩ := mem_filterMap.mp mem
      exact clear part inside text same
    unfold LogHeap.stringify at made
    split at made
    next =>
      cases made
      exact clear_visible control (by decide)
    next b _ =>
      cases made
      cases b <;> exact clear_visible control (by decide)
    next n _ =>
      cases made
      split
      · exact clear_numberText control n
      · exact clear_visible control (by decide)
    next =>
      cases made
      exact clear_quote control _
    next items _ =>
      obtain ⟨texts, each, made⟩ := bind_eq_some_iff.mp made
      cases made
      have clear : ∀ part ∈ texts, ∀ text, part = some text → Clear p text :=
        (mapM_forall each (Q := fun _ => True) fun item _ part found => iff_true_intro fun text same =>
          ih (same ▸ found)).mpr fun _ _ => trivial
      apply opened (by decide) (by decide)
      intro text mem
      obtain ⟨part, inside, rfl⟩ := mem_map.mp mem
      cases part with
      | none => exact clear_visible control (by decide)
      | some text => exact clear _ inside text rfl
    next members _ => exact opened_members members made
    next members _ => exact opened_members members made
    next =>
      cases made
      exact clear_visible control (by decide)
    next => cases made
    next => cases made
    next => cases made
    next => cases made
    next => cases made
    next => cases made

variable [DecidableEq O]

theorem clear_toJSON {v : HeapValue heap} (made : toJSON v = some text) :
    Clear p text ↔ ∀ raw ∈ unwritten v, Clear p raw := by
  unfold toJSON at made
  unfold unwritten
  split at made
  next missing =>
    cases made
    rw [if_pos missing]
    exact iff_of_true clear_nil nofun
  next present =>
    obtain ⟨out, written, made⟩ := bind_eq_some_iff.mp made
    rw [if_neg present, written]
    cases out with
    | some whole =>
      cases made
      exact iff_of_true (clear_stringify control written) nofun
    | none =>
      have shown : toText v = some text := made
      simp [shown]

theorem clear_render {form : TextForm} {v : HeapValue heap}
    (number : form = .milliseconds → ∃ n, v = .number n) (made : form.render v = some text) :
    Clear p text ↔ ∀ raw ∈ form.rawTexts v, Clear p raw := by
  cases form with
  | raw =>
    have shown : template v = some text := made
    simp [TextForm.rawTexts, shown]
  | json => exact clear_toJSON control made
  | milliseconds =>
    obtain ⟨inner, shown, rfl⟩ := map_eq_some_iff.mp made
    obtain ⟨n, rfl⟩ := number rfl
    have digits : Clear p inner := by
      rw [template_number shown]
      exact clear_numberText control n
    have unit : Clear p (js "ms") := clear_visible control (by decide)
    exact iff_of_true (clear_append.mpr ⟨digits, unit⟩) nofun

theorem clear_textValue {v : HeapValue heap} (made : textValue v = some text) :
    Clear p text ↔ ∀ raw ∈ rawValue v, Clear p raw := by
  unfold textValue at made
  unfold rawValue
  split at made
  next missing =>
    cases made
    rw [if_pos missing]
    exact iff_of_true clear_nil nofun
  next present =>
    rw [if_neg present]
    cases known : string? v with
    | some whole =>
      rw [known] at made
      cases made
      simp
    | none =>
      rw [known] at made
      exact clear_toJSON control made

theorem clear_showField {key : JsString} {value : Option JsString} (made : showField key value = some text) :
    ∃ inner, value = some inner ∧ (Clear p text ↔ Clear p key ∧ Clear p inner) := by
  obtain ⟨inner, shown, rfl⟩ := map_eq_some_iff.mp made
  refine ⟨inner, shown, ?_⟩
  rw [clear_append, clear_cons]
  exact and_congr_right fun _ => and_iff_right (clear_unit control (by decide))

theorem clear_showFields {rules : Details (FieldRule × TextForm)}
    (names : ∀ rule ∈ rules, Clear p rule.1) {s : Details (HeapValue heap)}
    (numbers : ∀ rule ∈ rules, rule.2.2 = .milliseconds → ∀ v, rule.2.1.emit (lookupMember s rule.1) = some v →
      ∃ n, v = .number n) {parts : List JsString} (made : showFields rules s = some parts) :
    (∀ part ∈ parts, Clear p part) ↔ ∀ raw ∈ rawFields rules s, Clear p raw := by
  unfold showFields at made
  unfold rawFields
  induction rules generalizing parts with
  | nil =>
    cases made
    exact iff_of_true (fun _ mem => absurd mem not_mem_nil) fun _ mem => absurd mem not_mem_nil
  | cons rule rules ih =>
    obtain ⟨name, names⟩ := forall_mem_cons.mp names
    obtain ⟨number, numbers⟩ := forall_mem_cons.mp numbers
    rw [flatMap_cons]
    cases written : rule.2.1.emit (lookupMember s rule.1) with
    | none =>
      rw [filterMap_cons_none (by rw [written]; rfl)] at made
      exact ih names numbers made
    | some value =>
      rw [filterMap_cons_some (by rw [written]; rfl), mapM_cons] at made
      obtain ⟨part, first, made⟩ := bind_eq_some_iff.mp made
      obtain ⟨rest, others, made⟩ := bind_eq_some_iff.mp made
      cases made
      obtain ⟨inner, rendered, clear⟩ := clear_showField control first
      rw [forall_mem_cons, forall_mem_append, ih names numbers others, clear,
          clear_render control (fun form => number form value written) rendered,
        and_iff_right name]
      exact Iff.rfl

omit control [DecidableEq O] in
theorem rawFields_normalized [DecidableEq O] (item : HeapValue heap) :
    rawFields processTexts (entries (normalizeProcessLatency item)) = rawFields processTexts (entries item) := by
  have times : ∀ rule ∈ processTexts, rule.1 = js "latency" → rule.2.2 = .milliseconds := by decide
  have nothing : ∀ field : Option (HeapValue heap), (field.map (TextForm.rawTexts .milliseconds)).getD [] = [] := by
    intro field
    cases field with
    | none => rfl
    | some value => rfl
  unfold rawFields
  refine flatMap_congr fun rule mem => ?_
  by_cases time : rule.1 = js "latency"
  · rw [times rule mem time, nothing, nothing]
  · rw [lookup_normalized item time]

theorem clear_joinFields {parts : List JsString} : Clear p (joinFields parts) ↔ ∀ part ∈ parts, Clear p part :=
  clear_intercalate (clear_visible control (by decide))

theorem clear_showRow {item : HeapValue heap}
    (made : showRow (normalizeProcessLatency item) = some text) :
    Clear p text ↔ ∀ raw ∈ rawFields processTexts (entries item), Clear p raw := by
  have visible : ∀ rule ∈ processTexts, ∀ u ∈ rule.1, 0x20 ≤ u.toNat := by decide
  have times : ∀ rule ∈ processTexts, rule.2.2 = .milliseconds → rule.1 = js "latency" ∧ rule.2.1 = .truthy := by
    decide
  unfold showRow at made
  split at made
  next => cases made
  next =>
    obtain ⟨fields, shown, made⟩ := bind_eq_some_iff.mp made
    cases made
    have left : Clear p (js "\x7b") := clear_visible control (by decide)
    have right : Clear p (js "\x7d") := clear_visible control (by decide)
    rw [clear_append, clear_append, and_iff_left right, and_iff_right left, clear_joinFields control,
      clear_showFields control (fun rule mem => clear_visible control (visible rule mem)) ?_ shown,
      rawFields_normalized]
    intro rule mem form v emitted
    obtain ⟨key, truthy⟩ := times rule mem form
    rw [key, truthy] at emitted
    exact latency_normalized (filter_eq_some_iff.mp emitted).1

theorem clear_showDetails {d : Details (HeapValue heap)} {parts : List JsString}
    (made : showDetails d = some parts) : (∀ part ∈ parts, Clear p part) ↔ ∀ raw ∈ rawDetails d, Clear p raw := by
  have visible : ∀ rule ∈ detailTexts, ∀ u ∈ rule.1, 0x20 ≤ u.toNat := by decide
  have no_times : ∀ rule ∈ detailTexts, rule.2.2 ≠ .milliseconds := by decide
  obtain ⟨fields, shown, made⟩ := bind_eq_some_iff.mp made
  obtain ⟨extras, each, made⟩ := bind_eq_some_iff.mp made
  cases made
  have extra_texts : (∀ part ∈ extras, Clear p part) ↔
      ∀ extra ∈ detailExtras d, Clear p extra.1 ∧ ∀ raw ∈ rawValue extra.2, Clear p raw := by
    refine mapM_forall each fun extra _ part made => ?_
    obtain ⟨inner, text, clear⟩ := clear_showField control made
    rw [clear, clear_textValue control text]
  unfold rawDetails
  rw [forall_mem_append, forall_mem_append, extra_texts,
    clear_showFields control (fun rule mem => clear_visible control (visible rule mem))
      (fun rule mem form => absurd form (no_times rule mem)) shown]
  refine and_congr_right fun _ => ?_
  constructor
  · intro all raw mem
    obtain ⟨extra, inside, found⟩ := mem_flatMap.mp mem
    rcases mem_cons.mp found with rfl | later
    · exact (all extra inside).1
    · exact (all extra inside).2 raw later
  · intro all extra inside
    refine ⟨all _ (mem_flatMap.mpr ⟨extra, inside, mem_cons_self⟩), fun raw mem => ?_⟩
    exact all raw (mem_flatMap.mpr ⟨extra, inside, mem_cons_of_mem _ mem⟩)

theorem clear_formatText {log : LogFormat (HeapValue heap)} (made : formatText log = some text) :
    Clear p text ↔ ∀ raw ∈ log.rawTexts, Clear p raw := by
  unfold formatText at made
  obtain ⟨line, line_text, made⟩ := bind_eq_some_iff.mp made
  obtain ⟨fields, details, made⟩ := bind_eq_some_iff.mp made
  obtain ⟨rows, processes, made⟩ := bind_eq_some_iff.mp made
  have visible : ∀ {s : String}, (∀ u ∈ js s, 0x20 ≤ u.toNat) → Clear p (js s) := fun all =>
    clear_visible control all
  have field_texts : (∀ part ∈ fields, Clear p part) ↔ ∀ raw ∈ rawDetails
      (entries (orElse (some log.details) (record [(js "system", EntryValue.string [])]))), Clear p raw :=
    clear_showDetails control details
  have row_texts : (∀ row ∈ rows, Clear p row) ↔
      ∀ item ∈ log.process, ∀ raw ∈ rawFields processTexts (entries item), Clear p raw := by
    have source : (log.process.map normalizeProcessLatency).mapM showRow = some rows := processes
    rw [mapM_map] at source
    exact mapM_forall source fun item _ row shown => clear_showRow control shown
  have head : Clear p (js "[" ++ log.timestamp ++ js "] [" ++ log.level ++ js "] [" ++ log.traceID ++ js "] " ++
      log.method ++ js ":" ++ line ++ js " - " ++ log.message) ↔
        Clear p log.timestamp ∧ Clear p log.level ∧ Clear p log.traceID ∧ Clear p log.method ∧ Clear p line ∧
          Clear p log.message := by
    simp only [clear_append, visible (s := "[") (by decide), visible (s := "] [") (by decide),
      visible (s := "] ") (by decide), visible (s := ":") (by decide), visible (s := " - ") (by decide)]
    tauto
  have latency_part : ∀ out : JsString, Clear p (if (0 : JsNumber).lt (latencyOf (some log.latency)) then
      out ++ js " latency=" ++ numberText (latencyOf (some log.latency)) ++ js "ms" else out) ↔ Clear p out := by
    intro out
    split
    · simp only [clear_append, visible (s := " latency=") (by decide), visible (s := "ms") (by decide),
        clear_numberText control, and_true]
    · exact Iff.rfl
  have details_part : ∀ out : JsString, Clear p (if fields = [] then out else
      out ++ js " | details=\x7b" ++ joinFields fields ++ js "\x7d") ↔
        Clear p out ∧ ∀ part ∈ fields, Clear p part := by
    intro out
    split
    next none_shown =>
      rw [none_shown]
      exact (and_iff_left nofun).symm
    next =>
      simp only [clear_append, visible (s := " | details=\x7b") (by decide), visible (s := "\x7d") (by decide),
        clear_joinFields control, and_true]
  have rows_part : ∀ out : JsString, (if rows = [] then some out else
      some (out ++ js " | process=[" ++ joinFields rows ++ js "]")) = some text →
        (Clear p text ↔ Clear p out ∧ ∀ row ∈ rows, Clear p row) := by
    intro out made
    split at made
    next none_shown =>
      cases made
      rw [none_shown]
      exact (and_iff_left nofun).symm
    next =>
      cases made
      simp only [clear_append, visible (s := " | process=[") (by decide), visible (s := "]") (by decide),
        clear_joinFields control, and_true]
  have shown : template log.line = some line := line_text
  have each_row : (∀ raw ∈ log.process.flatMap fun item => rawFields processTexts (entries item), Clear p raw) ↔
      ∀ item ∈ log.process, ∀ raw ∈ rawFields processTexts (entries item), Clear p raw := by
    constructor
    · exact fun all item inside raw mem => all raw (mem_flatMap.mpr ⟨item, inside, mem⟩)
    · intro all raw mem
      obtain ⟨item, inside, found⟩ := mem_flatMap.mp mem
      exact all item inside raw found
  rw [rows_part _ made, details_part, latency_part, row_texts, field_texts]
  unfold LogFormat.rawTexts
  rw [shown, forall_mem_append, forall_mem_append, forall_mem_append, forall_mem_append, each_row]
  refine and_congr_left fun _ => and_congr_left fun _ => ?_
  refine head.trans ?_
  simp only [toList_some, forall_mem_cons, not_mem_nil, IsEmpty.forall_iff, implies_true, and_true]
  tauto

end layouts

def lineBreak (u : UInt16) : Bool := u = 0x0A || u = 0x0D

def fileText (lines : List JsString) : JsString := lines.flatMap fun line => line ++ [0x0A]

section files

theorem count_fileText (lines : List JsString) :
    (fileText lines).count 0x0A = lines.length ↔ ∀ line ∈ lines, Clear (fun u => u == 0x0A) line := by
  have inside : ∀ line : JsString, line.count 0x0A = 0 ↔ Clear (fun u => u == 0x0A) line := by
    intro line
    rw [count_eq_zero]
    constructor
    · intro absent u mem
      have other : u ≠ 0x0A := fun same => absent (same ▸ mem)
      simpa using other
    · intro clear mem
      have other := clear _ mem
      simp at other
  have whole : ∀ (line : JsString) (lines : List JsString), (fileText (line :: lines)).count 0x0A =
      line.count 0x0A + 1 + (fileText lines).count 0x0A := by
    intro line lines
    simp [fileText, count_append]
    omega
  have least : ∀ lines : List JsString, lines.length ≤ (fileText lines).count 0x0A := by
    intro lines
    induction lines with
    | nil => exact Nat.le_refl 0
    | cons line lines ih =>
      rw [whole, length_cons]
      omega
  induction lines with
  | nil => exact iff_of_true rfl nofun
  | cons line lines ih =>
    have rest := least lines
    rw [whole, length_cons]
    constructor
    · intro total
      exact forall_mem_cons.mpr ⟨(inside line).mp (by omega), ih.mp (by omega)⟩
    · intro all
      obtain ⟨first, others⟩ := forall_mem_cons.mp all
      have line_count := (inside line).mpr first
      have rest_count := ih.mpr others
      omega

theorem onlyControl_lineBreak : OnlyControl lineBreak := by
  intro u break_
  rcases Bool.or_eq_true_iff.mp break_ with feed | return_
  · rw [of_decide_eq_true feed]
    decide
  · rw [of_decide_eq_true return_]
    decide

theorem onlyControl_feed : OnlyControl fun u => u == 0x0A := by
  intro u feed
  rw [eq_of_beq feed]
  decide

end files

/-- The JSON layout of an entry has no line break. The text layout has none exactly where the texts that it takes
over as they are have none. So in a file the entries have a line each in the JSON layout, and in the text
layout exactly where no such text has a line feed. -/
theorem entry_one_line_iff {O : Type} [DecidableEq O] (heap : LogHeap O) (protoAccessor : Bool) :
    (∀ (log : LogFormat (HeapValue heap)) text, formatJSON protoAccessor log = some text → Clear lineBreak text) ∧
    (∀ (log : LogFormat (HeapValue heap)) text, formatText log = some text →
      (Clear lineBreak text ↔ ∀ raw ∈ log.rawTexts, Clear lineBreak raw)) ∧
    (∀ (logs : List (LogFormat (HeapValue heap))) lines, logs.mapM (formatJSON protoAccessor) = some lines →
      (fileText lines).count 0x0A = lines.length) ∧
    ∀ (logs : List (LogFormat (HeapValue heap))) lines, logs.mapM formatText = some lines →
      ((fileText lines).count 0x0A = lines.length ↔
        ∀ log ∈ logs, ∀ raw ∈ log.rawTexts, Clear (fun u => u == 0x0A) raw) := by
  have json : ∀ {p : UInt16 → Bool}, OnlyControl p → ∀ (log : LogFormat (HeapValue heap)) text,
      formatJSON protoAccessor log = some text → Clear p text := by
    intro p control log text made
    obtain ⟨object, _, made⟩ := Option.bind_eq_some_iff.mp made
    obtain ⟨out, written, made⟩ := Option.bind_eq_some_iff.mp made
    have whole : out = some text := made
    rw [whole] at written
    exact clear_stringify control written
  refine ⟨json onlyControl_lineBreak, fun log text made => clear_formatText onlyControl_lineBreak made, ?_, ?_⟩
  · intro logs lines made
    apply (count_fileText lines).mpr
    refine (mapM_forall made (Q := fun _ => True) fun log _ text written => iff_true_intro ?_).mpr
      fun _ _ => trivial
    exact json onlyControl_feed log text written
  · intro logs lines made
    rw [count_fileText]
    exact mapM_forall made fun log _ text written => clear_formatText onlyControl_feed written

def emptyHeap : LogHeap Empty where
  content := fun o => nomatch o
  resolved := fun o => nomatch o
  levels := 64

def forgedEntry : LogFormat (HeapValue emptyHeap) where
  level := js "INFO"
  timestamp := js "t"
  traceID := []
  spanID := none
  message := js "ok\n[t] [INFO] [] main:1 - forged"
  details := LogTree.record [(js "system", .string (js "api"))]
  process := []
  method := js "main"
  line := LogTree.number 1
  latency := LogTree.number 0

theorem forged_line : ¬∀ (log : LogFormat (HeapValue emptyHeap)) text, formatText log = some text →
    Clear lineBreak text := by
  intro one_line
  have broken : ((formatText forgedEntry).map fun text => text.all fun u => !lineBreak u) = some false := by
    decide +kernel
  obtain ⟨text, made, found⟩ := Option.map_eq_some_iff.mp broken
  have clear := one_line forgedEntry text made
  have all : (text.all fun u => !lineBreak u) = true := by
    rw [List.all_eq_true]
    intro u mem
    rw [clear u mem]
    rfl
  rw [all] at found
  cases found

/-- The message of the entry breaks its line, by the texts of the entry alone. -/
theorem forged_line_texts : ∃ text, formatText forgedEntry = some text ∧ ¬Clear lineBreak text := by
  have made : (formatText forgedEntry).isSome = true := by decide
  obtain ⟨text, written⟩ := Option.isSome_iff_exists.mp made
  refine ⟨text, written, fun clear => ?_⟩
  obtain ⟨-, iff, -⟩ := entry_one_line_iff emptyHeap false
  have message : forgedEntry.message ∈ forgedEntry.rawTexts := by
    unfold LogFormat.rawTexts
    simp
  have feed := (iff forgedEntry text written).mp clear _ message 0x0A (by decide)
  cases feed

end ForgeDeno
