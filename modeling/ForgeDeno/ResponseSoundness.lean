import ForgeDeno.DetachedCopies

namespace ForgeDeno

open ExceptRules List

namespace ObjectGraph

section unseen

variable {copy copy' : JsString → Held → JsHeap → Except Thrown (Held × JsHeap)}

theorem copyItems_mono (more : ∀ path held heap made, copy path held heap = .ok made →
    copy' path held heap = .ok made) (path : JsString) (items : List (Option Held)) :
    ∀ (index : Nat) (heap : JsHeap) {made : List (Option Held) × JsHeap},
      copyItems copy path index items heap = .ok made → copyItems copy' path index items heap = .ok made := by
  induction items with
  | nil => exact fun _ _ _ h => h
  | cons item items ih =>
    intro index heap made h
    cases item with
    | none =>
      obtain ⟨rest, copied, h⟩ := bind_ok.mp h
      exact bind_ok.mpr ⟨rest, ih _ _ copied, h⟩
    | some held =>
      obtain ⟨first, one, h⟩ := bind_ok.mp h
      obtain ⟨rest, copied, h⟩ := bind_ok.mp h
      exact bind_ok.mpr ⟨first, more _ _ _ _ one, bind_ok.mpr ⟨rest, ih _ _ copied, h⟩⟩

theorem copyEntries_mono (more : ∀ path held heap made, copy path held heap = .ok made →
    copy' path held heap = .ok made) (path : JsString) (entries : List (JsString × Held)) :
    ∀ (result : Properties) (heap : JsHeap) {made : Properties × JsHeap},
      copyEntries copy path entries result heap = .ok made →
        copyEntries copy' path entries result heap = .ok made := by
  induction entries with
  | nil => exact fun _ _ _ h => h
  | cons entry entries ih =>
    intro result heap made h
    unfold copyEntries at h ⊢
    by_cases reserved : entry.1 ∈ reservedKeys
    · rw [if_pos reserved] at h
      cases h
    · rw [if_neg reserved] at h ⊢
      obtain ⟨first, one, h⟩ := bind_ok.mp h
      exact bind_ok.mpr ⟨first, more _ _ _ _ one, ih _ _ h⟩

theorem copyAbiValue_unseen (levels : Nat) : ∀ {seen fewer : List Nat}, fewer ⊆ seen →
    ∀ path held heap made, copyAbiValue levels seen path held heap = .ok made →
      copyAbiValue levels fewer path held heap = .ok made := by
  induction levels with
  | zero => exact fun _ _ _ _ _ h => by cases h
  | succ levels ih =>
    intro seen fewer subset path held heap made h
    cases held with
    | object ref =>
      have inside : ref :: fewer ⊆ ref :: seen := cons_subset_cons ref subset
      unfold copyAbiValue at h ⊢
      dsimp only at h ⊢
      by_cases cycle : ref ∈ seen
      · rw [if_pos cycle] at h
        cases h
      · rw [if_neg cycle] at h
        rw [if_neg fun mem => cycle (subset mem)]
        split at h
        next => cases h
        next => cases h
        next items _ =>
          obtain ⟨copies, copied, h⟩ := bind_ok.mp h
          exact bind_ok.mpr ⟨copies, copyItems_mono (ih inside) path items 0 heap copied, h⟩
        next properties _ =>
          obtain ⟨copies, copied, h⟩ := bind_ok.mp h
          exact bind_ok.mpr ⟨copies, copyEntries_mono (ih inside) path _ .empty heap copied, h⟩
    | _ => exact h

end unseen

/-- A response as `validateAbiResponse` reads it, the result down to the depth of the codec. -/
def received (graph : ObjectGraph) : JsValue := graph.heap.view (MAX_JSON_DEPTH + 2) [] graph.value

def responseResult? (graph : ObjectGraph) : Option Held :=
  match graph.value with
  | .object ref =>
    match graph.heap.object ref with
    | .record properties => lookupMember properties.members (js "result")
    | _ => none
  | _ => none

end ObjectGraph

/-- `response.error`; an error that is the response itself reads as the response. -/
def responseError (object : List (JsString × JsValue)) : JsValue :=
  match lookupMember object (js "error") with
  | some (.ancestor _) => .record object
  | other => other.getD .undefined

/-- `response.error.code`, when it is a string. -/
def errorCode? (response : JsValue) : Option JsString :=
  match response with
  | .record object =>
    match responseError object with
    | .record members =>
      match lookupMember members (js "code") with
      | some (.string code) => some code
      | _ => none
    | _ => none
  | _ => none

/-- A failure tells what the catalog says, a success carries a JSON value of its own, and both answer
the request. -/
def SoundResponse (graph : ObjectGraph) (expectedId : JsString) : AbiResponseV1 → Prop
  | .success id result => id = expectedId ∧ (∃ v : JsonValue, v.WellFormed ∧ result = v.toJs) ∧
      ∃ held copy after, ObjectGraph.responseResult? graph = some held ∧
        ObjectGraph.encodeAbiValue graph.heap held = .ok (copy, after) ∧
        ObjectGraph.shown after copy = result ∧
        ∀ ref, after.Reaches copy ref → ¬after.Reaches graph.value ref
  | .failure id error => id = expectedId ∧ ∃ definition,
      (error.code, definition) ∈ GOFORGE_ABI_ERROR_CATALOG ∧
        error.message = some definition.message ∧ error.retryable = some definition.retryable

theorem lookupMember_viewed {α β : Type} (f : α → β) (members : List (JsString × α)) (key : JsString) :
    lookupMember (members.map fun member => (member.1, f member.2)) key = (lookupMember members key).map f := by
  unfold lookupMember
  rw [find?_map, Option.map_map, Option.map_map]
  rfl

variable {members : List (JsString × JsValue)}

theorem validateAbiError_code {error : AbiErrorV1} (accepted : validateAbiError members = .ok error) :
    lookupMember members (js "code") = some (.string error.code) ∧
      errorCodePattern.test error.code = true := by
  unfold validateAbiError at accepted
  obtain ⟨_, _, accepted⟩ := bind_ok.mp accepted
  split at accepted
  · next code found =>
    obtain ⟨pattern, accepted⟩ := check_ok.mp accepted
    split at accepted
    · cases accepted
    · obtain ⟨_, accepted⟩ := check_ok.mp accepted
      obtain ⟨_, accepted⟩ := check_ok.mp accepted
      obtain ⟨field, _, accepted⟩ := bind_ok.mp accepted
      cases pure_ok.mp accepted
      exact ⟨found, by simpa using pattern⟩
  · cases accepted

theorem inherited_code : ∀ name ∈ inheritedNames, errorCodePattern.test name = true →
    name = js "constructor" := by
  decide

theorem constructor_uncatalogued : ∀ entry ∈ GOFORGE_ABI_ERROR_CATALOG,
    entry.1 ≠ js "constructor" := by
  decide

theorem catalogued_iff {error : AbiErrorV1} (catalogued : error.Catalogued)
    (pattern : errorCodePattern.test error.code = true) :
    (∃ definition, (error.code, definition) ∈ GOFORGE_ABI_ERROR_CATALOG ∧
        error.message = some definition.message ∧ error.retryable = some definition.retryable) ↔
      error.code ≠ js "constructor" := by
  constructor
  · rintro ⟨definition, mem, _⟩
    exact constructor_uncatalogued _ mem
  · intro other
    unfold AbiErrorV1.Catalogued catalogEntry at catalogued
    split at catalogued
    next definition found =>
      obtain ⟨message, retryable⟩ := Prod.mk.inj (Option.some.inj catalogued)
      exact ⟨definition, lookupMember_mem found, message.symm, retryable.symm⟩
    next =>
      split at catalogued
      next inherited => exact absurd (inherited_code _ inherited pattern) other
      next => cases catalogued

theorem requireRecord_ok {value : JsValue} {path : JsString}
    (accepted : requireRecord value path = .ok members) : value = .record members := by
  unfold requireRecord at accepted
  split at accepted
  · cases accepted
    rfl
  · cases accepted
  · cases accepted
  · cases accepted

theorem requireExactKeys_absent {expected : List JsString}
    {path key : JsString} (accepted : requireExactKeys members expected path = .ok ())
    (foreign : key ∉ expected) : lookupMember members key = none := by
  unfold requireExactKeys at accepted
  split at accepted
  next same =>
    have perm : (members.map Prod.fst).Perm expected := by
      have ours := perm_insertionSort (fun s t => JsString.unitsLe s t) (members.map Prod.fst)
      have theirs := perm_insertionSort (fun s t => JsString.unitsLe s t) expected
      have sorted : (members.map Prod.fst).insertionSort (fun s t => JsString.unitsLe s t) =
          expected.insertionSort fun s t => JsString.unitsLe s t := same
      exact ours.symm.trans (sorted ▸ theirs)
    cases found : lookupMember members key with
    | none => rfl
    | some item =>
      have mem : key ∈ members.map Prod.fst := mem_map_of_mem (lookupMember_mem found)
      exact absurd (perm.mem_iff.mp mem) foreign
  next => cases accepted

theorem validateAbiResponse_ok {value : JsValue} {expectedId : JsString} {response : AbiResponseV1}
    (accepted : validateAbiResponse value expectedId = .ok response) :
    (∃ object result, value = .record object ∧
        encodeAbiValue ((lookupMember object (js "result")).getD .undefined) = .ok result ∧
        lookupMember object (js "error") = none ∧ response = .success expectedId result) ∨
      ∃ object error, value = .record object ∧ errorCode? value = some error.code ∧
        error.Catalogued ∧ errorCodePattern.test error.code = true ∧
        lookupMember object (js "result") = none ∧ response = .failure expectedId error := by
  unfold validateAbiResponse at accepted
  obtain ⟨_, _, accepted⟩ := bind_ok.mp accepted
  obtain ⟨object, record, accepted⟩ := bind_ok.mp accepted
  obtain ⟨_, keys, accepted⟩ := bind_ok.mp accepted
  have value_eq := requireRecord_ok record
  obtain ⟨_, accepted⟩ := check_ok.mp accepted
  obtain ⟨_, accepted⟩ := check_ok.mp accepted
  cases ok : differs (lookupMember object (js "ok")) (some (.bool true)) with
  | false =>
    simp only [ok, Bool.not_false, if_true] at accepted
    obtain ⟨result, copied, accepted⟩ := bind_ok.mp accepted
    have names : requireExactKeys object [js "abi", js "id", js "ok", js "result"]
        (js "response") = .ok () := by
      simpa only [ok, Bool.false_eq_true, if_false] using keys
    have foreign : js "error" ∉ [js "abi", js "id", js "ok", js "result"] := by decide
    exact .inl ⟨object, result, value_eq, copied, requireExactKeys_absent names foreign,
      (pure_ok.mp accepted).symm⟩
  | true =>
    simp only [ok, Bool.not_true, Bool.false_eq_true, if_false] at accepted
    obtain ⟨_, accepted⟩ := check_ok.mp accepted
    obtain ⟨members, inner, accepted⟩ := bind_ok.mp accepted
    obtain ⟨error, valid, accepted⟩ := bind_ok.mp accepted
    have names : requireExactKeys object [js "abi", js "id", js "ok", js "error"]
        (js "response") = .ok () := by
      simpa only [ok, if_true] using keys
    have foreign : js "result" ∉ [js "abi", js "id", js "ok", js "error"] := by decide
    obtain ⟨code, pattern⟩ := validateAbiError_code valid
    have named : errorCode? value = some error.code := by
      have record : responseError object = .record members := requireRecord_ok inner
      rw [value_eq]
      unfold errorCode?
      simp only [record, code]
    exact .inr ⟨object, error, value_eq, named, validateAbiError_catalogued valid, pattern,
      requireExactKeys_absent names foreign, (pure_ok.mp accepted).symm⟩

theorem errorCode_absent {object : List (JsString × JsValue)}
    (absent : lookupMember object (js "error") = none) : errorCode? (.record object) = none := by
  unfold errorCode? responseError
  simp only [absent, Option.getD_none]

namespace ObjectGraph

theorem received_record {graph : ObjectGraph} {object : List (JsString × JsValue)}
    (record : received graph = .record object) :
    ∃ ref properties, graph.value = .object ref ∧ graph.heap.object ref = .record properties ∧
      object = properties.members.map fun member =>
        (member.1, graph.heap.view (MAX_JSON_DEPTH + 1) [ref] member.2) := by
  obtain ⟨heap, value, _⟩ := graph
  cases value with
  | object ref =>
    have shape : heap.view (MAX_JSON_DEPTH + 1 + 1) [] (.object ref) = .record object := record
    unfold JsHeap.view at shape
    rw [if_neg not_mem_nil] at shape
    cases stored : heap.object ref with
    | record properties =>
      simp only [stored] at shape
      exact ⟨ref, properties, rfl, stored, (JsValue.record.inj shape).symm⟩
    | array _ | exotic _ | binary =>
      simp only [stored] at shape
      cases shape
  | _ => cases record

theorem result_copied {graph : ObjectGraph} {object : List (JsString × JsValue)} {result : JsValue}
    (record : received graph = .record object)
    (accepted : ForgeDeno.encodeAbiValue ((lookupMember object (js "result")).getD .undefined) =
      .ok result) :
    ∃ held copy after, responseResult? graph = some held ∧
      encodeAbiValue graph.heap held = .ok (copy, after) ∧
      Copied graph.heap held (MAX_JSON_DEPTH + 1) copy after result := by
  obtain ⟨ref, properties, value, stored, rfl⟩ := received_record record
  rw [lookupMember_viewed] at accepted
  have found : responseResult? graph = lookupMember properties.members (js "result") := by
    unfold responseResult?
    simp only [value, stored]
  rw [found]
  cases member : lookupMember properties.members (js "result") with
  | none =>
    rw [member] at accepted
    cases accepted
  | some held =>
    rw [member] at accepted
    have holds : graph.heap.Holds held := by
      have whole := graph.holds
      rw [value] at whole
      exact whole.item (JsHeap.mem_record stored (lookupMember_mem member))
    have agrees := copyAbiValue_agrees graph.heap (MAX_JSON_DEPTH + 1) [ref] (Nat.le_refl _)
      (js "$") held graph.heap (.refl _) holds
    have copy : ForgeDeno.copyAbiValue (js "$") (MAX_JSON_DEPTH + 1 - (MAX_JSON_DEPTH + 1))
        (graph.heap.view (MAX_JSON_DEPTH + 1) [ref] held) = .ok result := accepted
    rw [copy] at agrees
    obtain ⟨⟨copy, after⟩, made, copied⟩ := agrees.to_ok
    exact ⟨held, copy, after, rfl, copyAbiValue_unseen _ (nil_subset _) _ _ _ _ made, copied⟩

end ObjectGraph

/-- An accepted response is sound unless its error code is the one name of the pattern that objects
inherit, or its result misses an array element. -/
theorem validateAbiResponse_sound_iff (graph : ObjectGraph) (expectedId : JsString)
    {response : AbiResponseV1}
    (accepted : validateAbiResponse (ObjectGraph.received graph) expectedId = .ok response) :
    SoundResponse graph expectedId response ↔
      errorCode? (ObjectGraph.received graph) ≠ some (js "constructor") ∧
        ∀ held, ObjectGraph.responseResult? graph = some held → graph.heap.Full held := by
  rcases validateAbiResponse_ok accepted with
    ⟨object, result, record, encoded, noError, rfl⟩ |
      ⟨object, error, record, named, catalogued, pattern, noResult, rfl⟩
  · obtain ⟨held, copy, after, found, made, copied⟩ := ObjectGraph.result_copied record encoded
    have code : errorCode? (ObjectGraph.received graph) = none := by
      rw [record]
      exact errorCode_absent noError
    constructor
    · rintro ⟨_, ⟨v, wf, shape⟩, _⟩
      refine ⟨by rw [code]; exact Option.some_ne_none _ |>.symm, ?_⟩
      intro other same
      cases found.symm.trans same
      by_contra missing
      have equal := deepEqual_plusZero v wf
      rw [← shape, copied.sparse missing] at equal
      cases equal
    · rintro ⟨_, full⟩
      refine ⟨rfl, copied.datum (full held found), held, copy, after, found, made, ?_, ?_⟩
      · exact copied.shown after (.refl after) [] fun ref mem => absurd mem List.not_mem_nil
      · intro ref ours theirs
        have new := (copied.fresh after (.refl after) ref ours).1
        have old := graph.holds ref ((copied.grown.reaches_iff graph.holds).mp theirs)
        omega
  · have nothing : ∀ held, ObjectGraph.responseResult? graph ≠ some held := by
      intro held found
      obtain ⟨ref, properties, value, stored, rfl⟩ := ObjectGraph.received_record record
      unfold ObjectGraph.responseResult? at found
      simp only [value, stored] at found
      rw [lookupMember_viewed, found] at noResult
      cases noResult
    have sound := catalogued_iff catalogued pattern
    rw [named]
    constructor
    · rintro ⟨_, definition⟩
      refine ⟨fun same => sound.mp definition (Option.some.inj same), ?_⟩
      exact fun held found => absurd found (nothing held)
    · rintro ⟨other, _⟩
      exact ⟨rfl, sound.mpr fun same => other (congrArg some same)⟩

def answeredDigest : ObjectGraph where
  heap := ⟨2, fun ref => if ref = 0 then .record ⟨[(js "digest", .string (js "AQ=="))], by decide⟩
    else .record ⟨[(js "abi", .string GOFORGE_ABI_V1), (js "id", .string (js "request-1")),
      (js "ok", .bool true), (js "result", .object 0)], by decide⟩⟩
  value := .object 1
  holds := JsHeap.holds_of_closed (by decide) rfl

theorem answered_digest_sound : ∃ result, validateAbiResponse (ObjectGraph.received answeredDigest)
      (js "request-1") = .ok (.success (js "request-1") result) ∧
    SoundResponse answeredDigest (js "request-1") (.success (js "request-1") result) := by
  refine ⟨.record [(js "digest", .string (js "AQ=="))], rfl, ?_⟩
  apply (validateAbiResponse_sound_iff answeredDigest (js "request-1") rfl).mpr
  constructor
  · intro named
    cases named
  · intro held found
    cases found
    have holds : answeredDigest.heap.Holds (.object 0) :=
      JsHeap.holds_of_closed (by decide) rfl
    exact JsHeap.full_of_gapless holds (by decide)

def inheritedFailure : ObjectGraph where
  heap := ⟨2, fun ref => if ref = 0 then .record ⟨[(js "code", .string (js "constructor")),
      (js "message", .undefined), (js "retryable", .undefined)], by decide⟩
    else .record ⟨[(js "abi", .string GOFORGE_ABI_V1), (js "id", .string (js "request-1")),
      (js "ok", .bool false), (js "error", .object 0)], by decide⟩⟩
  value := .object 1
  holds := JsHeap.holds_of_closed (by decide) rfl

theorem inherited_failure_accepted : ¬∀ (graph : ObjectGraph) (expectedId : JsString) (response : AbiResponseV1),
      validateAbiResponse (ObjectGraph.received graph) expectedId = .ok response →
        SoundResponse graph expectedId response := by
  intro claim
  have accepted : validateAbiResponse (ObjectGraph.received inheritedFailure) (js "request-1") =
      .ok (.failure (js "request-1") ⟨js "constructor", none, none, none⟩) := rfl
  obtain ⟨_, definition, catalogued, _⟩ := claim inheritedFailure _ _ accepted
  exact constructor_uncatalogued _ catalogued rfl

end ForgeDeno
