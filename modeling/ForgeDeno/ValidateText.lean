import ForgeDeno.NormalizeText
import ForgeDeno.Utf8Affixes

namespace ForgeDeno.Native

open JsString

def isGoControl (codePoint : Nat) : Bool :=
  codePoint < 0x20 || (0x7F ≤ codePoint && codePoint ≤ 0x9F)

def ruleNames : List JsString :=
  [js "required", js "ascii", js "forbid_control", js "forbid_whitespace", js "min_bytes",
    js "max_bytes", js "min_runes", js "max_runes", js "prefix", js "suffix"]

def violation (broken : Bool) (code : JsString) : List JsString := if broken then [code] else []

def validationResult (violations : List JsString) : JsonValue :=
  .object [(js "valid", .bool (violations = [])),
    (js "violations", .array (violations.map fun code => .object [(js "code", .string code)]))]

def validate (payload : JsonValue) : Except PayloadError JsonValue := do
  let input ← object payload [js "value", js "rules"] []
  let value ← text input (js "value")
  let rules ← object ((lookupMember input (js "rules")).getD .null) [] ruleNames
  let front ← optionalText rules (js "prefix")
  let back ← optionalText rules (js "suffix")
  assertUtf8 value (js "payload")
  assertUtf8 front (js "payload")
  assertUtf8 back (js "payload")
  if maxStringBytes < byteLength value ∨ maxStringBytes < byteLength front ∨
      maxStringBytes < byteLength back then throw ⟨.inputTooLarge, some (js "payload")⟩
  else
    let minBytes ← integer rules (js "min_bytes")
    let maxBytes ← integer rules (js "max_bytes")
    let minRunes ← integer rules (js "min_runes")
    let maxRunes ← integer rules (js "max_runes")
    if (minBytes < 0 ∨ maxBytes < 0 ∨ minRunes < 0 ∨ maxRunes < 0 ∨ maxStringBytes < minBytes ∨
        maxStringBytes < maxBytes ∨ maxStringBytes < minRunes ∨ maxStringBytes < maxRunes ∨
        (0 < maxBytes ∧ maxBytes < minBytes) ∨ (0 < maxRunes ∧ maxRunes < minRunes)) then
      throw ⟨.invalidRequest, some (js "payload.rules")⟩
    else
      let bytes : Int := byteLength value
      let runes : Int := value.codePoints.length
      let required ← flag rules (js "required")
      let ascii ← flag rules (js "ascii")
      let forbidControl ← flag rules (js "forbid_control")
      let forbidWhitespace ← flag rules (js "forbid_whitespace")
      return validationResult (
        violation (required && value = []) (js "required") ++
        violation (0 < minBytes && bytes < minBytes) (js "min_bytes") ++
        violation (0 < maxBytes && maxBytes < bytes) (js "max_bytes") ++
        violation (0 < minRunes && runes < minRunes) (js "min_runes") ++
        violation (0 < maxRunes && maxRunes < runes) (js "max_runes") ++
        violation (ascii && value.codePoints.any fun c => 0x7F < c) (js "ascii") ++
        violation (forbidControl && value.codePoints.any isGoControl) (js "control") ++
        violation (forbidWhitespace && value.codePoints.any isGoSpace) (js "whitespace") ++
        violation (front ≠ [] && !front.isPrefixOf value) (js "prefix") ++
        violation (back ≠ [] && !back.isSuffixOf value) (js "suffix"))

structure TextRules where
  required : Bool
  ascii : Bool
  forbidControl : Bool
  forbidWhitespace : Bool
  minBytes : Int
  maxBytes : Int
  minRunes : Int
  maxRunes : Int
  front : Bytes
  back : Bytes

def runesOf (bytes : Bytes) : List Nat := ((utf8DecodeStrict bytes).getD []).codePoints

def TextRules.violations (rules : TextRules) (value : Bytes) : List JsString :=
  violation (rules.required && value.isEmpty) (js "required") ++
  violation (0 < rules.minBytes && value.length < rules.minBytes) (js "min_bytes") ++
  violation (0 < rules.maxBytes && rules.maxBytes < value.length) (js "max_bytes") ++
  violation (0 < rules.minRunes && (runesOf value).length < rules.minRunes) (js "min_runes") ++
  violation (0 < rules.maxRunes && rules.maxRunes < (runesOf value).length) (js "max_runes") ++
  violation (rules.ascii && value.any fun b => 0x80 ≤ b) (js "ascii") ++
  violation (rules.forbidControl && (runesOf value).any isGoControl) (js "control") ++
  violation (rules.forbidWhitespace && (runesOf value).any isGoSpace) (js "whitespace") ++
  violation (!rules.front.isEmpty && !rules.front.isPrefixOf value) (js "prefix") ++
  violation (!rules.back.isEmpty && !rules.back.isSuffixOf value) (js "suffix")

structure TextRules.Read (rules : TextRules) (members : Members) : Prop where
  required : flag members (js "required") = .ok rules.required
  ascii : flag members (js "ascii") = .ok rules.ascii
  forbidControl : flag members (js "forbid_control") = .ok rules.forbidControl
  forbidWhitespace : flag members (js "forbid_whitespace") = .ok rules.forbidWhitespace
  minBytes : integer members (js "min_bytes") = .ok rules.minBytes
  maxBytes : integer members (js "max_bytes") = .ok rules.maxBytes
  minRunes : integer members (js "min_runes") = .ok rules.minRunes
  maxRunes : integer members (js "max_runes") = .ok rules.maxRunes
  front : ∃ s, optionalText members (js "prefix") = .ok s ∧ rules.front = s.utf8Encode
  back : ∃ s, optionalText members (js "suffix") = .ok s ∧ rules.back = s.utf8Encode

theorem runesOf_utf8Encode {s : JsString} (formed : s.WellFormed) : runesOf s.utf8Encode = s.codePoints := by
  rw [runesOf, utf8DecodeStrict_iff.mpr ⟨formed, rfl⟩, Option.getD_some]

theorem utf8Encode_isEmpty (s : JsString) : s.utf8Encode.isEmpty = decide (s = []) := by
  cases points : s.codePoints with
  | nil =>
    have whole := flatMap_codePoints s
    rw [points] at whole
    rw [← whole]
    rfl
  | cons c rest =>
    have some_unit : s ≠ [] := by
      intro empty
      rw [empty] at points
      cases points
    have bytes := width_pos c
    rw [utf8Encode, points, List.flatMap_cons, decide_eq_false some_unit]
    rw [width] at bytes
    cases head : utf8OfCodePoint c with
    | nil =>
      rw [head] at bytes
      cases bytes
    | cons b more => rfl

theorem ascii_point {c : Nat} (scalar : Scalar c) :
    ((utf8OfCodePoint c).any fun b => decide (0x80 ≤ b)) = decide (0x7F < c) := by
  have above {n : Nat} (low : 0x80 ≤ n) (high : n < 256) : (0x80 : UInt8) ≤ n.toUInt8 := by
    rw [UInt8.le_iff_toNat_le, toNat_byte high]
    exact low
  obtain ⟨valid, proper⟩ := scalar
  unfold isSurrogate at proper
  by_cases one : c < 0x80
  · have below : ¬(0x80 : UInt8) ≤ c.toUInt8 := by
      rw [UInt8.le_iff_toNat_le, toNat_byte (by omega)]
      simp only [UInt8.reduceToNat]
      omega
    rw [utf8OfCodePoint_one one, List.any_cons, decide_eq_false below, List.any_nil, decide_eq_false (by omega)]
    rfl
  · rw [decide_eq_true (by omega : 0x7F < c)]
    by_cases two : c < 0x800
    · rw [utf8OfCodePoint_two (by omega) two, List.any_cons,
        decide_eq_true (above (by omega) (by omega)), Bool.true_or]
    · by_cases three : c < 0x10000
      · rw [utf8OfCodePoint_three (by omega) three proper, List.any_cons,
          decide_eq_true (above (by omega) (by omega)), Bool.true_or]
      · rw [utf8OfCodePoint_four (by omega), List.any_cons,
          decide_eq_true (above (by omega) (by omega)), Bool.true_or]

theorem ascii_bytes {s : JsString} (formed : s.WellFormed) :
    (s.utf8Encode.any fun b => decide (0x80 ≤ b)) = s.codePoints.any fun c => decide (0x7F < c) := by
  have points : ∀ cs : List Nat, (∀ c ∈ cs, Scalar c) →
      ((cs.flatMap utf8OfCodePoint).any fun b => decide (0x80 ≤ b)) = cs.any fun c => decide (0x7F < c) := by
    intro cs scalars
    induction cs with
    | nil => rfl
    | cons c cs ih =>
      rw [List.flatMap_cons, List.any_append, List.any_cons,
        ascii_point (scalars c List.mem_cons_self),
        ih fun d mem => scalars d (List.mem_cons_of_mem c mem)]
  exact points s.codePoints formed.scalars

theorem isPrefixOf_bytes {p s : JsString} (p_formed : p.WellFormed) (s_formed : s.WellFormed) :
    p.utf8Encode.isPrefixOf s.utf8Encode = p.isPrefixOf s := by
  rw [Bool.eq_iff_iff, List.isPrefixOf_iff_prefix, List.isPrefixOf_iff_prefix]
  exact (prefix_iff p_formed s_formed).symm

theorem isSuffixOf_bytes {t s : JsString} (t_formed : t.WellFormed) (s_formed : s.WellFormed) :
    t.utf8Encode.isSuffixOf s.utf8Encode = t.isSuffixOf s := by
  rw [Bool.eq_iff_iff, List.isSuffixOf_iff_suffix, List.isSuffixOf_iff_suffix]
  exact (suffix_iff t_formed s_formed).symm

/-- Every violation is found on the bytes and in the same place, and the verdict is whether there
is one. -/
theorem validate_agrees {members : Members} {result : JsonValue}
    (accepted : validate (.object members) = .ok result) :
    ∃ value ruleMembers, text members (js "value") = .ok value ∧
      lookupMember members (js "rules") = some (.object ruleMembers) ∧
      ∃ (rules : TextRules) (valid : Bool), rules.Read ruleMembers ∧
        result = .object [(js "valid", .bool valid), (js "violations",
          .array ((rules.violations value.utf8Encode).map fun code =>
            .object [(js "code", .string code)]))] ∧
        (valid = true ↔ rules.violations value.utf8Encode = []) := by
  obtain ⟨input, object_eq, h⟩ := ExceptRules.bind_ok.mp accepted
  obtain ⟨⟨⟩, -, present⟩ := object_ok.mp object_eq
  obtain ⟨value, text_eq, h⟩ := ExceptRules.bind_ok.mp h
  obtain ⟨ruleMembers, rules_eq, h⟩ := ExceptRules.bind_ok.mp h
  obtain ⟨front, front_eq, h⟩ := ExceptRules.bind_ok.mp h
  obtain ⟨back, back_eq, h⟩ := ExceptRules.bind_ok.mp h
  obtain ⟨⟨⟩, value_formed, h⟩ := ExceptRules.bind_ok.mp h
  obtain ⟨⟨⟩, front_formed, h⟩ := ExceptRules.bind_ok.mp h
  obtain ⟨⟨⟩, back_formed, h⟩ := ExceptRules.bind_ok.mp h
  obtain ⟨-, h⟩ := ExceptRules.check_ok.mp h
  obtain ⟨minBytes, minBytes_eq, h⟩ := ExceptRules.bind_ok.mp h
  obtain ⟨maxBytes, maxBytes_eq, h⟩ := ExceptRules.bind_ok.mp h
  obtain ⟨minRunes, minRunes_eq, h⟩ := ExceptRules.bind_ok.mp h
  obtain ⟨maxRunes, maxRunes_eq, h⟩ := ExceptRules.bind_ok.mp h
  obtain ⟨-, h⟩ := ExceptRules.check_ok.mp h
  obtain ⟨required, required_eq, h⟩ := ExceptRules.bind_ok.mp h
  obtain ⟨ascii, ascii_eq, h⟩ := ExceptRules.bind_ok.mp h
  obtain ⟨forbidControl, control_eq, h⟩ := ExceptRules.bind_ok.mp h
  obtain ⟨forbidWhitespace, whitespace_eq, h⟩ := ExceptRules.bind_ok.mp h
  have value_formed := assertUtf8_ok.mp value_formed
  have front_formed := assertUtf8_ok.mp front_formed
  have back_formed := assertUtf8_ok.mp back_formed
  have found : lookupMember members (js "rules") = some (.object ruleMembers) := by
    obtain ⟨whole, -⟩ := object_ok.mp rules_eq
    cases here : lookupMember members (js "rules") with
    | none =>
      rw [here] at whole
      cases whole
    | some rules =>
      rw [here] at whole
      exact congrArg some whole
  let rules : TextRules := ⟨required, ascii, forbidControl, forbidWhitespace, minBytes, maxBytes,
    minRunes, maxRunes, front.utf8Encode, back.utf8Encode⟩
  have read : rules.Read ruleMembers := ⟨required_eq, ascii_eq, control_eq, whitespace_eq, minBytes_eq,
    maxBytes_eq, minRunes_eq, maxRunes_eq, ⟨front, front_eq, rfl⟩, ⟨back, back_eq, rfl⟩⟩
  refine ⟨value, ruleMembers, text_eq, found, rules,
    decide (rules.violations value.utf8Encode = []), read, ?_, decide_eq_true_iff⟩
  have some_front : (!front.utf8Encode.isEmpty) = decide (front ≠ []) := by
    rw [utf8Encode_isEmpty, decide_not]
  have some_back : (!back.utf8Encode.isEmpty) = decide (back ≠ []) := by
    rw [utf8Encode_isEmpty, decide_not]
  have codes := (Except.ok.inj h).symm
  rw [codes, validationResult]
  simp only [TextRules.violations, rules, runesOf_utf8Encode value_formed, utf8Encode_isEmpty value,
    ascii_bytes value_formed, isPrefixOf_bytes front_formed value_formed,
    isSuffixOf_bytes back_formed value_formed, some_front, some_back]
  rfl

def oneWord : Members :=
  [(js "forbid_whitespace", .bool true), (js "prefix", .string (js "a"))]

theorem validate_agrees_two_words :
    ∃ rules : TextRules, rules.Read oneWord ∧ rules.violations (js "a b").utf8Encode ≠ [] := by
  have accepted : validate (.object [(js "value", .string (js "a b")), (js "rules", .object oneWord)])
      = .ok (.object [(js "valid", .bool false), (js "violations",
          .array [.object [(js "code", .string (js "whitespace"))]])]) := rfl
  obtain ⟨value, ruleMembers, read, found, rules, valid, reads, eq, verdict⟩ :=
    validate_agrees accepted
  cases read
  cases found
  refine ⟨rules, reads, ?_⟩
  intro none
  have valid_true := verdict.mpr none
  have valid_false : valid = false := by
    injection eq with members
    have first := (List.cons.inj members).1
    simpa using first.symm
  rw [valid_true] at valid_false
  cases valid_false

end ForgeDeno.Native
