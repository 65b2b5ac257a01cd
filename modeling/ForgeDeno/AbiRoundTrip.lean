import ForgeDeno.AbiScan

namespace JsString

open List Option

theorem utf8OfCodePoint_length (c : Nat) : 1 ≤ (utf8OfCodePoint c).length ∧ (utf8OfCodePoint c).length ≤ 4 ∧
      (0x10000 ≤ c → (utf8OfCodePoint c).length = 4) := by
  unfold utf8OfCodePoint
  split_ifs with surrogate one two three
  · exact ⟨by simp, by simp, fun large => by omega⟩
  · exact ⟨by simp, by simp, fun large => by omega⟩
  · exact ⟨by simp, by simp, fun large => by omega⟩
  · exact ⟨by simp, by simp, fun large => by omega⟩
  · exact ⟨by simp, by simp, fun _ => rfl⟩

theorem utf8Encode_length (s : JsString) :
    s.length ≤ s.utf8Encode.length ∧ s.utf8Encode.length ≤ 4 * s.length := by
  unfold utf8Encode
  induction s using codePoints.induct with
  | case1 => exact ⟨Nat.le_refl 0, Nat.le_refl 0⟩
  | case2 u =>
    obtain ⟨low, high, _⟩ := utf8OfCodePoint_length u.toNat
    simp only [codePoints, flatMap_cons, flatMap_nil, length_append, length_cons, length_nil]
    omega
  | case3 u v rest pair ih =>
    obtain ⟨low, high, four⟩ := utf8OfCodePoint_length (0x10000 + (u.toNat - 0xD800) * 0x400 + (v.toNat - 0xDC00))
    have exact := four (by omega)
    simp only [codePoints, pair, if_true, flatMap_cons, length_append, length_cons]
    omega
  | case4 u v rest single ih =>
    obtain ⟨low, high, _⟩ := utf8OfCodePoint_length u.toNat
    have step : codePoints (u :: v :: rest) = u.toNat :: codePoints (v :: rest) := if_neg single
    rw [step]
    simp only [flatMap_cons, length_append, length_cons] at ih ⊢
    omega

end JsString

namespace JsonText

theorem Quoted.length {s t : JsString} (h : Quoted s t) : t.length ≤ 6 * s.length := by
  induction h with
  | nil => exact Nat.le_refl 0
  | plain _ _ _ _ ih =>
    simp only [List.length_cons]
    omega
  | letter _ _ _ ih =>
    simp only [List.length_cons]
    omega
  | hex _ ih =>
    simp only [List.length_cons, List.length_append, hexText, List.length_nil]
    omega

theorem quote_length (s : JsString) : (quote s).length ≤ 6 * s.length + 2 := by
  have := (quoted_quoteUnits s).length
  simp only [quote, List.length_cons, List.length_append, List.length_nil]
  omega

end JsonText

namespace JsonValue

mutual

def Unreserved : JsonValue → Prop
  | .array items => ItemsUnreserved items
  | .object members => MembersUnreserved members
  | _ => True

def ItemsUnreserved : List JsonValue → Prop
  | [] => True
  | item :: items => item.Unreserved ∧ ItemsUnreserved items

def MembersUnreserved : List (JsString × JsonValue) → Prop
  | [] => True
  | member :: members => MemberUnreserved member ∧ MembersUnreserved members

def MemberUnreserved : JsString × JsonValue → Prop
  | (key, item) => key ∉ ForgeDeno.reservedKeys ∧ item.Unreserved

end

end JsonValue

namespace ForgeDeno

open JsonText JsonValue ExceptRules

theorem atDepth_ok {α : Type} {depth : Nat} {copy : Except Thrown α} {a : α} :
    atDepth depth copy = .ok a ↔ depth ≤ MAX_JSON_DEPTH ∧ copy = .ok a := by
  unfold atDepth
  by_cases deep : MAX_JSON_DEPTH < depth
  · rw [if_pos deep]
    exact iff_of_false nofun fun h => Nat.not_lt.mpr h.1 deep
  · rw [if_neg deep]
    exact ⟨fun h => ⟨Nat.le_of_not_lt deep, h⟩, fun h => h.2⟩

theorem copyItems_cons (path : JsString) (depth index : Nat) (item : JsonValue)
    (items : List JsValue) :
    copyItems path depth index (item.toJs :: items) =
      copyAbiValue (path ++ js "[" ++ naturalText index ++ js "]") depth item.toJs >>= fun copy =>
        copyItems path depth (index + 1) items >>= fun copies => .ok (copy :: copies) := by
  cases item <;> rfl

mutual

theorem copyAbiValue_accepts : ∀ (v : JsonValue) (path : JsString) (depth : Nat) {copy : JsValue},
    copyAbiValue path depth v.toJs = .ok copy → copy = v.toJs ∧ depth + v.depth ≤ MAX_JSON_DEPTH ∧ v.Unreserved
  | .null, _, _, _, h => by
    obtain ⟨fits, same⟩ := atDepth_ok.mp h
    cases same
    exact ⟨rfl, fits, trivial⟩
  | .bool _, _, _, _, h => by
    obtain ⟨fits, same⟩ := atDepth_ok.mp h
    cases same
    exact ⟨rfl, fits, trivial⟩
  | .number n, _, _, _, h => by
    obtain ⟨fits, same⟩ := atDepth_ok.mp h
    split at same
    next =>
      cases same
      exact ⟨rfl, fits, trivial⟩
    next => cases same
  | .string _, _, _, _, h => by
    obtain ⟨fits, same⟩ := atDepth_ok.mp h
    cases same
    exact ⟨rfl, fits, trivial⟩
  | .array items, path, depth, _, h => by
    obtain ⟨fits, copied⟩ := atDepth_ok.mp h
    obtain ⟨copies, accepted, same⟩ := map_ok copied
    obtain ⟨rfl, deepest, unreserved⟩ := copyItems_accepts items path depth 0 fits accepted
    exact ⟨same.symm, deepest, unreserved⟩
  | .object members, path, depth, _, h => by
    obtain ⟨fits, copied⟩ := atDepth_ok.mp h
    obtain ⟨copies, accepted, same⟩ := map_ok copied
    obtain ⟨rfl, deepest, unreserved⟩ := copyMembers_accepts members path depth fits accepted
    exact ⟨same.symm, deepest, unreserved⟩

theorem copyItems_accepts : ∀ (items : List JsonValue) (path : JsString) (depth index : Nat)
    {copies : List JsValue}, depth ≤ MAX_JSON_DEPTH →
      copyItems path (depth + 1) index (itemsToJs items) = .ok copies →
        copies = itemsToJs items ∧ depth + itemsDepth items ≤ MAX_JSON_DEPTH ∧ ItemsUnreserved items
  | [], _, _, _, _, fits, h => by
    cases h
    exact ⟨rfl, fits, trivial⟩
  | item :: items, path, depth, index, _, fits, h => by
    rw [itemsToJs, copyItems_cons] at h
    obtain ⟨copy, first, h⟩ := bind_ok.mp h
    obtain ⟨copies, rest, h⟩ := bind_ok.mp h
    cases h
    obtain ⟨rfl, deep, unreserved⟩ := copyAbiValue_accepts item _ (depth + 1) first
    obtain ⟨rfl, deepest, others⟩ := copyItems_accepts items path depth (index + 1) fits rest
    refine ⟨rfl, ?_, unreserved, others⟩
    show depth + max (item.depth + 1) (itemsDepth items) ≤ MAX_JSON_DEPTH
    omega

theorem copyMembers_accepts : ∀ (members : List (JsString × JsonValue)) (path : JsString)
    (depth : Nat) {copies : List (JsString × JsValue)}, depth ≤ MAX_JSON_DEPTH →
      copyMembers path (depth + 1) (membersToJs members) = .ok copies →
        copies = membersToJs members ∧ depth + membersDepth members ≤ MAX_JSON_DEPTH ∧ MembersUnreserved members
  | [], _, _, _, fits, h => by
    cases h
    exact ⟨rfl, fits, trivial⟩
  | (key, item) :: members, path, depth, _, fits, h => by
    obtain ⟨copy, first, h⟩ := bind_ok.mp h
    obtain ⟨copies, rest, h⟩ := bind_ok.mp h
    cases h
    have member : (if key ∈ reservedKeys then
        .error (wasmCodecError (path ++ js " contains a reserved object key"))
        else copyAbiValue (path ++ js "." ++ key) (depth + 1) item.toJs >>= fun value =>
          .ok (key, value)) = Except.ok copy := first
    split at member
    next => cases member
    next plain =>
      obtain ⟨value, copied, same⟩ := bind_ok.mp member
      cases same
      obtain ⟨rfl, deep, unreserved⟩ := copyAbiValue_accepts item _ (depth + 1) copied
      obtain ⟨rfl, deepest, others⟩ := copyMembers_accepts members path depth fits rest
      refine ⟨rfl, ?_, ⟨plain, unreserved⟩, others⟩
      show depth + max (item.depth + 1) (membersDepth members) ≤ MAX_JSON_DEPTH
      omega

end

theorem isFinite_plusZero {n : JsNumber} (h : n.isFinite = true) : n.plusZero.isFinite = true := by
  obtain ⟨x, rfl⟩ := finite_of_isFinite h
  unfold JsNumber.plusZero
  simp only
  split <;> rfl

mutual

theorem copyAbiValue_plusZero : ∀ (v : JsonValue) (path : JsString) (depth : Nat), v.WellFormed →
    depth + v.depth ≤ MAX_JSON_DEPTH → v.Unreserved →
      copyAbiValue path depth v.plusZero.toJs = .ok v.plusZero.toJs
  | .null, _, _, _, fits, _ => atDepth_ok.mpr ⟨fits, rfl⟩
  | .bool _, _, _, _, fits, _ => atDepth_ok.mpr ⟨fits, rfl⟩
  | .string _, _, _, _, fits, _ => atDepth_ok.mpr ⟨fits, rfl⟩
  | .number _, _, _, wf, fits, _ => atDepth_ok.mpr ⟨fits, if_pos (isFinite_plusZero wf)⟩
  | .array items, path, depth, wf, fits, unreserved => by
    have shallow : depth + itemsDepth items ≤ MAX_JSON_DEPTH := fits
    apply atDepth_ok.mpr
    refine ⟨by omega, ?_⟩
    show (copyItems path (depth + 1) 0 (itemsToJs (itemsPlusZero items))).map JsValue.array = _
    rw [copyItems_plusZero items path depth 0 wf shallow unreserved]
    rfl
  | .object members, path, depth, wf, fits, unreserved => by
    have shallow : depth + membersDepth members ≤ MAX_JSON_DEPTH := fits
    apply atDepth_ok.mpr
    refine ⟨by omega, ?_⟩
    show (copyMembers path (depth + 1) (membersToJs (membersPlusZero members))).map JsValue.record = _
    rw [copyMembers_plusZero members path depth wf.2 shallow unreserved]
    rfl

theorem copyItems_plusZero : ∀ (items : List JsonValue) (path : JsString) (depth index : Nat),
    ItemsWellFormed items → depth + itemsDepth items ≤ MAX_JSON_DEPTH → ItemsUnreserved items →
      copyItems path (depth + 1) index (itemsToJs (itemsPlusZero items)) = .ok (itemsToJs (itemsPlusZero items))
  | [], _, _, _, _, _, _ => rfl
  | item :: items, path, depth, index, wf, fits, unreserved => by
    have shallow : depth + max (item.depth + 1) (itemsDepth items) ≤ MAX_JSON_DEPTH := fits
    rw [itemsPlusZero, itemsToJs, copyItems_cons,
      copyAbiValue_plusZero item _ (depth + 1) wf.1 (by omega) unreserved.1,
      copyItems_plusZero items path depth (index + 1) wf.2 (by omega) unreserved.2]
    rfl

theorem copyMembers_plusZero : ∀ (members : List (JsString × JsonValue)) (path : JsString)
    (depth : Nat), MembersWellFormed members → depth + membersDepth members ≤ MAX_JSON_DEPTH →
      MembersUnreserved members → copyMembers path (depth + 1) (membersToJs (membersPlusZero members)) =
          .ok (membersToJs (membersPlusZero members))
  | [], _, _, _, _, _ => rfl
  | (key, item) :: members, path, depth, wf, fits, unreserved => by
    have shallow : depth + max (item.depth + 1) (membersDepth members) ≤ MAX_JSON_DEPTH := fits
    have member : copyMember path (depth + 1) (key, item.plusZero.toJs) =
        .ok (key, item.plusZero.toJs) := by
      refine (if_neg unreserved.1.1).trans ?_
      rw [copyAbiValue_plusZero item _ (depth + 1) wf.1 (by omega) unreserved.1.2]
      rfl
    show copyMember path (depth + 1) (key, item.plusZero.toJs) >>= _ = _
    rw [member]
    show copyMembers path (depth + 1) (membersToJs (membersPlusZero members)) >>= _ = _
    rw [copyMembers_plusZero members path depth wf.2 (by omega) unreserved.2]
    rfl

end

theorem parseAbiResponse_text {v : JsonValue} (wf : v.WellFormed) (id : JsString)
    (small : v.text.utf8Encode.length ≤ MAX_RESPONSE_BYTES) (shallow : v.depth ≤ MAX_JSON_DEPTH) :
    parseAbiResponse v.text id = validateAbiResponse v.plusZero.toJs id := by
  unfold parseAbiResponse
  rw [if_neg (Nat.not_lt.mpr small)]
  simp only [parse_text wf, (scan_text wf).1 shallow]

theorem parseAbiResponse_rejects {v : JsonValue} (wf : v.WellFormed) (id : JsString)
    (large : ¬(v.text.utf8Encode.length ≤ MAX_RESPONSE_BYTES ∧ v.depth ≤ MAX_JSON_DEPTH))
    (response : AbiResponseV1) : parseAbiResponse v.text id ≠ .ok response := by
  intro parsed
  unfold parseAbiResponse at parsed
  obtain ⟨small, parsed⟩ := check_ok.mp parsed
  simp only [parse_text wf] at parsed
  have deep : MAX_JSON_DEPTH < v.depth :=
    Nat.lt_of_not_le fun shallow => large ⟨Nat.le_of_not_lt small, shallow⟩
  obtain ⟨e, rejected⟩ := (scan_text wf).2 deep
  rw [rejected] at parsed
  simp only at parsed
  split at parsed
  next => split at parsed <;> cases parsed
  next => cases parsed

section envelopes

variable (id : JsString)

def successEnvelope (v : JsonValue) : JsonValue :=
  .object [(js "abi", .string GOFORGE_ABI_V1), (js "id", .string id), (js "ok", .bool true),
    (js "result", v)]

theorem success_json (v : JsonValue) : (AbiResponseV1.success id v.toJs).json = (successEnvelope id v).text := by
  have same : (AbiResponseV1.success id v.toJs).toJs = (successEnvelope id v).toJs := rfl
  unfold AbiResponseV1.json
  rw [same, stringify_toJs]
  rfl

theorem successEnvelope_wellFormed {v : JsonValue} (wf : v.WellFormed) : (successEnvelope id v).WellFormed := by
  refine ⟨?_, trivial, trivial, trivial, wf, trivial⟩
  show [js "abi", js "id", js "ok", js "result"].Pairwise fun a b => precedes a b = true
  decide

theorem successEnvelope_depth (v : JsonValue) : (successEnvelope id v).depth = v.depth + 1 := by
  show max (0 + 1) (max (0 + 1) (max (0 + 1) (max (v.depth + 1) 0))) = v.depth + 1
  omega

theorem differs_self (s : JsString) : differs (some (.string s)) (some (.string s)) = false :=
  decide_eq_false (not_not.mpr rfl)

theorem validate_success (accepted : assertIdentifier id (js "id") = .ok ()) (v : JsonValue) :
    validateAbiResponse (successEnvelope id v).toJs id =
      (encodeAbiValue v.toJs).map (AbiResponseV1.success id) := by
  obtain ⟨members, eq⟩ : ∃ members, members = [(js "abi", JsValue.string GOFORGE_ABI_V1),
    (js "id", .string id), (js "ok", .bool true), (js "result", v.toJs)] := ⟨_, rfl⟩
  have envelope : (successEnvelope id v).toJs = .record members := by rw [eq]; rfl
  have ok : lookupMember members (js "ok") = some (.bool true) := by rw [eq]; rfl
  have abi : lookupMember members (js "abi") = some (.string GOFORGE_ABI_V1) := by rw [eq]; rfl
  have same : lookupMember members (js "id") = some (.string id) := by rw [eq]; rfl
  have result : lookupMember members (js "result") = some v.toJs := by rw [eq]; rfl
  have keys : requireExactKeys members [js "abi", js "id", js "ok", js "result"]
      (js "response") = .ok () := by
    rw [eq]
    apply if_pos
    show sortedNames [js "abi", js "id", js "ok", js "result"] = _
    rfl
  have discriminator : differs (some (.bool true)) (some (.bool true)) = false := rfl
  unfold validateAbiResponse
  rw [accepted, envelope]
  show (requireExactKeys members [js "abi", js "id", js "ok", if differs (lookupMember members
    (js "ok")) (some (.bool true)) then js "error" else js "result"] (js "response") >>= _) = _
  rw [ok, discriminator, if_neg Bool.false_ne_true, keys]
  simp only [abi, same, result, differs_self, Bool.not_false, if_true,
    Bool.false_eq_true, if_false, Option.getD_some]
  cases encodeAbiValue v.toJs <;> rfl

def failureEnvelope (code : JsString) (definition : GoforgeAbiErrorDefinitionV1)
    (field : Option JsString) : JsonValue :=
  .object [(js "abi", .string GOFORGE_ABI_V1), (js "id", .string id), (js "ok", .bool false),
    (js "error", .object ([(js "code", .string code), (js "message", .string definition.message),
      (js "retryable", .bool definition.retryable)] ++
      field.toList.map fun field => (js "field", .string field)))]

variable {code : JsString} {definition : GoforgeAbiErrorDefinitionV1} {field : Option JsString}

theorem failure_json : (AbiResponseV1.failure id
    ⟨code, some definition.message, some definition.retryable, field⟩).json =
      (failureEnvelope id code definition field).text := by
  have same : (AbiResponseV1.failure id
      ⟨code, some definition.message, some definition.retryable, field⟩).toJs =
        (failureEnvelope id code definition field).toJs := by
    cases field <;> rfl
  unfold AbiResponseV1.json
  rw [same, stringify_toJs]
  rfl

theorem failureEnvelope_wellFormed : (failureEnvelope id code definition field).WellFormed := by
  have outer : [js "abi", js "id", js "ok", js "error"].Pairwise fun a b => precedes a b = true := by
    decide
  cases field with
  | none =>
    have inner : [js "code", js "message", js "retryable"].Pairwise
        fun a b => precedes a b = true := by decide
    exact ⟨outer, trivial, trivial, trivial, ⟨inner, trivial, trivial, trivial, trivial⟩, trivial⟩
  | some field =>
    have inner : [js "code", js "message", js "retryable", js "field"].Pairwise
        fun a b => precedes a b = true := by decide
    exact ⟨outer, trivial, trivial, trivial, ⟨inner, trivial, trivial, trivial, trivial, trivial⟩, trivial⟩

theorem failureEnvelope_plusZero :
    (failureEnvelope id code definition field).plusZero = failureEnvelope id code definition field := by
  cases field <;> rfl

theorem failureEnvelope_depth : (failureEnvelope id code definition field).depth ≤ 2 := by
  cases field with
  | none => exact Nat.le_refl 2
  | some field => exact Nat.le_refl 2

theorem catalog_codes : ∀ entry ∈ GOFORGE_ABI_ERROR_CATALOG, errorCodePattern.test entry.1 = true := by
  decide +kernel

theorem catalog_code_length : ∀ entry ∈ GOFORGE_ABI_ERROR_CATALOG, entry.1.length ≤ 100 := by
  decide +kernel

theorem catalog_message_length : ∀ entry ∈ GOFORGE_ABI_ERROR_CATALOG, entry.2.message.length ≤ 100 := by
  decide +kernel

theorem differs_bool (b : Bool) : differs (some (.bool b)) (some (.bool b)) = false :=
  decide_eq_false (not_not.mpr rfl)

theorem validateAbiError_members
    (catalogued : lookupMember GOFORGE_ABI_ERROR_CATALOG code = some definition)
    (bounded : ∀ text ∈ field, isBoundedText text 512 = true) :
    validateAbiError ([(js "code", JsValue.string code), (js "message", .string definition.message),
      (js "retryable", .bool definition.retryable)] ++
        field.toList.map fun field => (js "field", .string field)) =
      .ok ⟨code, some definition.message, some definition.retryable, field⟩ := by
  obtain ⟨members, eq⟩ : ∃ members, members = [(js "code", JsValue.string code),
    (js "message", .string definition.message), (js "retryable", .bool definition.retryable)] ++
      field.toList.map fun field => (js "field", .string field) := ⟨_, rfl⟩
  have codes : lookupMember members (js "code") = some (.string code) := by rw [eq]; rfl
  have message : lookupMember members (js "message") = some (.string definition.message) := by
    rw [eq]; rfl
  have retryable : lookupMember members (js "retryable") = some (.bool definition.retryable) := by
    rw [eq]; rfl
  have fields : lookupMember members (js "field") = field.map JsValue.string := by
    rw [eq]
    cases field <;> rfl
  have keys : requireExactKeys members ([js "code", js "message", js "retryable"] ++
      if field.isSome then [js "field"] else []) (js "response.error") = .ok () := by
    rw [eq]
    apply if_pos
    cases field with
    | none =>
      show sortedNames [js "code", js "message", js "retryable"] = _
      rfl
    | some field =>
      show sortedNames [js "code", js "message", js "retryable", js "field"] = _
      rfl
  have pattern := catalog_codes _ (lookupMember_mem catalogued)
  have entry : catalogEntry code = some (some definition.message, some definition.retryable) := by
    unfold catalogEntry
    rw [catalogued]
  have text : (field.map JsValue.string).mapM assertErrorField = .ok field := by
    cases field with
    | none => rfl
    | some field =>
      show assertErrorField (.string field) >>= _ = _
      have fine : assertErrorField (.string field) = .ok field := if_pos (bounded field rfl)
      rw [fine]
      rfl
  rw [← eq]
  unfold validateAbiError
  simp only [fields, Option.isSome_map, keys, codes, pattern, entry, message, retryable, Option.map_some,
    differs_self, differs_bool, Bool.not_true, Bool.false_eq_true, if_false, text]
  rfl

theorem validate_failure (accepted : assertIdentifier id (js "id") = .ok ())
    (catalogued : lookupMember GOFORGE_ABI_ERROR_CATALOG code = some definition)
    (bounded : ∀ text ∈ field, isBoundedText text 512 = true) :
    validateAbiResponse (failureEnvelope id code definition field).toJs id =
      .ok (.failure id ⟨code, some definition.message, some definition.retryable, field⟩) := by
  obtain ⟨error, named⟩ : ∃ error : List (JsString × JsValue), error =
    [(js "code", JsValue.string code), (js "message", .string definition.message),
      (js "retryable", .bool definition.retryable)] ++
        field.toList.map fun field => (js "field", .string field) := ⟨_, rfl⟩
  obtain ⟨members, eq⟩ : ∃ members, members = [(js "abi", JsValue.string GOFORGE_ABI_V1),
    (js "id", .string id), (js "ok", .bool false), (js "error", .record error)] := ⟨_, rfl⟩
  have envelope : (failureEnvelope id code definition field).toJs = .record members := by
    rw [eq, named]
    cases field <;> rfl
  have ok : lookupMember members (js "ok") = some (.bool false) := by rw [eq]; rfl
  have abi : lookupMember members (js "abi") = some (.string GOFORGE_ABI_V1) := by rw [eq]; rfl
  have same : lookupMember members (js "id") = some (.string id) := by rw [eq]; rfl
  have errors : lookupMember members (js "error") = some (.record error) := by rw [eq]; rfl
  have keys : requireExactKeys members [js "abi", js "id", js "ok", js "error"]
      (js "response") = .ok () := by
    rw [eq]
    apply if_pos
    show sortedNames [js "abi", js "id", js "ok", js "error"] = _
    rfl
  have discriminator : differs (some (.bool false)) (some (.bool true)) = true := rfl
  have valid := validateAbiError_members catalogued bounded
  rw [← named] at valid
  unfold validateAbiResponse
  rw [accepted, envelope]
  show (requireExactKeys members [js "abi", js "id", js "ok", if differs (lookupMember members
    (js "ok")) (some (.bool true)) then js "error" else js "result"] (js "response") >>= _) = _
  rw [ok, discriminator, if_pos rfl, keys]
  simp only [abi, same, errors, differs_self, differs_bool, Bool.not_true, Bool.false_eq_true,
    if_false, Option.getD_some]
  show validateAbiError error >>= _ = _
  rw [valid]
  rfl

theorem isBoundedText_length {s : JsString} {limit : Nat} (h : isBoundedText s limit = true) :
    s.length ≤ limit := by
  unfold isBoundedText at h
  simp only [Bool.and_eq_true, decide_eq_true_eq] at h
  exact le_trans (JsString.utf8Encode_length s).1 h.1.2

theorem failureEnvelope_small (accepted : assertIdentifier id (js "id") = .ok ())
    (catalogued : lookupMember GOFORGE_ABI_ERROR_CATALOG code = some definition)
    (bounded : ∀ text ∈ field, isBoundedText text 512 = true) :
    (failureEnvelope id code definition field).text.utf8Encode.length ≤ MAX_RESPONSE_BYTES := by
  have idLength : id.length ≤ 128 := by
    unfold assertIdentifier at accepted
    split at accepted
    next valid => exact isBoundedText_length valid
    next => cases accepted
  have codeLength : code.length ≤ 100 := catalog_code_length _ (lookupMember_mem catalogued)
  have messageLength : definition.message.length ≤ 100 :=
    catalog_message_length _ (lookupMember_mem catalogued)
  have idText := quote_length id
  have codeText := quote_length code
  have messageText := quote_length definition.message
  have flag : (JsonValue.bool definition.retryable).text.length ≤ 5 := by
    cases definition.retryable <;> decide
  have names : (quote (js "abi")).length = 5 ∧ (quote (js "id")).length = 4 ∧
      (quote (js "ok")).length = 4 ∧ (quote (js "error")).length = 7 ∧
      (quote (js "code")).length = 6 ∧ (quote (js "message")).length = 9 ∧
      (quote (js "retryable")).length = 11 ∧ (quote (js "field")).length = 7 ∧
      (quote GOFORGE_ABI_V1).length ≤ 20 ∧ (js "false").length = 5 ∧ (js "true").length = 4 := by
    decide
  have units : (failureEnvelope id code definition field).text.length ≤ 10000 := by
    cases field with
    | none =>
      simp only [failureEnvelope, JsonValue.text, memberTexts, memberText, commaSeparated,
        Option.toList_none, List.map_nil, List.append_nil, List.length_append, List.length_cons,
        List.length_nil, Bool.false_eq_true, if_false] at flag ⊢
      omega
    | some field =>
      have fieldText := quote_length field
      have fieldLength := isBoundedText_length (bounded field rfl)
      simp only [failureEnvelope, JsonValue.text, memberTexts, memberText, commaSeparated,
        Option.toList_some, List.map_cons, List.map_nil, List.cons_append, List.nil_append,
        List.length_append, List.length_cons, List.length_nil, Bool.false_eq_true,
        if_false] at flag ⊢
      omega
  have bytes := (JsString.utf8Encode_length (failureEnvelope id code definition field).text).2
  unfold MAX_RESPONSE_BYTES
  omega

end envelopes

structure JsonDatum where
  value : JsonValue
  wellFormed : value.WellFormed

theorem createAbiSuccessResponse_ok {id : JsString} {v : JsonValue} {response : AbiResponseV1}
    (created : createAbiSuccessResponse id v.toJs = .ok response) :
    assertIdentifier id (js "id") = .ok () ∧ response = .success id v.toJs ∧ v.Unreserved := by
  unfold createAbiSuccessResponse at created
  obtain ⟨_, accepted, created⟩ := bind_ok.mp created
  obtain ⟨copy, copied, created⟩ := bind_ok.mp created
  obtain ⟨same, _, unreserved⟩ := copyAbiValue_accepts v (js "$") 0 copied
  rw [← pure_ok.mp created, same]
  exact ⟨accepted, rfl, unreserved⟩

theorem createAbiFailureResponse_ok {id : JsString} {error : AbiErrorV1} {response : AbiResponseV1}
    {definition : GoforgeAbiErrorDefinitionV1}
    (catalogued : lookupMember GOFORGE_ABI_ERROR_CATALOG error.code = some definition)
    (created : createAbiFailureResponse id error = .ok response) :
    assertIdentifier id (js "id") = .ok () ∧
      response = .failure id ⟨error.code, some definition.message, some definition.retryable, error.field⟩ ∧
      ∀ text ∈ error.field, isBoundedText text 512 = true := by
  unfold createAbiFailureResponse at created
  obtain ⟨_, accepted, created⟩ := bind_ok.mp created
  have entry : catalogEntry error.code = some (some definition.message, some definition.retryable) := by
    unfold catalogEntry
    rw [catalogued]
  simp only [entry] at created
  obtain ⟨_, created⟩ := check_ok.mp created
  obtain ⟨_, created⟩ := check_ok.mp created
  obtain ⟨field, checked, created⟩ := bind_ok.mp created
  cases pure_ok.mp created
  rcases mapM_ok checked with ⟨absent, rfl⟩ | ⟨given, taken, present, rfl, valid⟩
  · rw [absent]
    exact ⟨accepted, rfl, nofun⟩
  · have bounded : (if isBoundedText given 512 then Except.ok given
        else .error (wasmCodecError (js "response.error.field is invalid"))) = Except.ok taken := valid
    split at bounded
    next short =>
      cases bounded
      rw [present]
      refine ⟨accepted, rfl, fun text mem => ?_⟩
      cases mem
      exact short
    next => cases bounded

/-- A created response reads back, a failure always and a success exactly when its value leaves room
for the envelope: one level of depth and the bytes of the text. -/
theorem abi_response_round_trip (id : JsString) : (∀ (v : JsonDatum) (response : AbiResponseV1),
      createAbiSuccessResponse id v.value.toJs = .ok response →
        ((∃ result, parseAbiResponse response.json id = .ok (.success id result) ∧
            deepEqual v.value.toJs result = true) ↔ v.value.depth ≤ 31 ∧
            (successEnvelope id v.value).text.utf8Encode.length ≤ MAX_RESPONSE_BYTES)) ∧
    ∀ (error : AbiErrorV1) (response : AbiResponseV1),
      (lookupMember GOFORGE_ABI_ERROR_CATALOG error.code).isSome →
        createAbiFailureResponse id error = .ok response → parseAbiResponse response.json id = .ok response := by
  constructor
  · rintro ⟨v, wf⟩ response created
    obtain ⟨accepted, rfl, unreserved⟩ := createAbiSuccessResponse_ok created
    have envelope := successEnvelope_wellFormed id wf
    have depth := successEnvelope_depth id v
    rw [success_json]
    constructor
    · rintro ⟨result, parsed, _⟩
      by_contra large
      apply parseAbiResponse_rejects envelope id _ _ parsed
      rw [depth]
      exact fun fits => large ⟨Nat.le_of_succ_le_succ fits.2, fits.1⟩
    · rintro ⟨shallow, small⟩
      have level : v.depth ≤ 31 := shallow
      have fits : 0 + v.depth ≤ MAX_JSON_DEPTH := by
        unfold MAX_JSON_DEPTH
        omega
      have inside : (successEnvelope id v).depth ≤ MAX_JSON_DEPTH := by
        rw [depth]
        exact Nat.succ_le_succ shallow
      refine ⟨v.plusZero.toJs, ?_, deepEqual_plusZero v wf⟩
      have kept : (successEnvelope id v).plusZero = successEnvelope id v.plusZero := rfl
      rw [parseAbiResponse_text envelope id small inside, kept, validate_success id accepted]
      show (copyAbiValue (js "$") 0 v.plusZero.toJs).map _ = _
      rw [copyAbiValue_plusZero v _ 0 wf fits unreserved]
      rfl
  · intro error response found created
    obtain ⟨definition, catalogued⟩ := Option.isSome_iff_exists.mp found
    obtain ⟨accepted, rfl, bounded⟩ := createAbiFailureResponse_ok catalogued created
    have shallow : (failureEnvelope id error.code definition error.field).depth ≤ MAX_JSON_DEPTH :=
      le_trans (failureEnvelope_depth id) (by decide)
    rw [failure_json, parseAbiResponse_text (failureEnvelope_wellFormed id) id
      (failureEnvelope_small id accepted catalogued bounded) shallow, failureEnvelope_plusZero,
      validate_failure id accepted catalogued bounded]

def digestResult : JsonDatum where
  value := .object [(js "digest", .string (js "AQ=="))]
  wellFormed := by simp [JsonValue.WellFormed, JsonValue.MembersWellFormed, JsonValue.MemberWellFormed]

def malformedInput : AbiResponseV1 :=
  .failure (js "request-1") ⟨js "invalid_base64", some (js "value is not canonical standard padded Base64"),
    some false, some (js "input.data")⟩

theorem digest_round_trips :
    (∃ result, parseAbiResponse (AbiResponseV1.success (js "request-1") digestResult.value.toJs).json
        (js "request-1") = .ok (.success (js "request-1") result) ∧
      deepEqual digestResult.value.toJs result = true) ∧
    parseAbiResponse malformedInput.json (js "request-1") = .ok malformedInput := by
  have trip := abi_response_round_trip (js "request-1")
  have created : createAbiSuccessResponse (js "request-1") digestResult.value.toJs =
      .ok (.success (js "request-1") digestResult.value.toJs) := rfl
  have answered : createAbiFailureResponse (js "request-1")
      ⟨js "invalid_base64", none, none, some (js "input.data")⟩ = .ok malformedInput := rfl
  constructor
  · apply (trip.1 digestResult _ created).mpr
    decide
  · exact trip.2 _ malformedInput (by decide) answered

def nested : Nat → JsonValue
  | 0 => .null
  | n + 1 => .array [nested n]

theorem nested_wellFormed : ∀ n, (nested n).WellFormed
  | 0 => trivial
  | n + 1 => ⟨nested_wellFormed n, trivial⟩

/-- The envelope takes the level of depth that the value had left. -/
theorem deep_value_rejected :
    ∃ response, createAbiSuccessResponse (js "request-1") (nested 32).toJs = .ok response ∧
      response.json.utf8Encode.length ≤ MAX_RESPONSE_BYTES ∧
      ∀ parsed, parseAbiResponse response.json (js "request-1") ≠ .ok parsed := by
  have envelope := successEnvelope_wellFormed (js "request-1") (nested_wellFormed 32)
  refine ⟨.success (js "request-1") (nested 32).toJs, rfl, ?_, ?_⟩
  · rw [success_json]
    decide +kernel
  · rw [success_json]
    apply parseAbiResponse_rejects envelope
    decide +kernel

end ForgeDeno
