import ForgeDeno.AbiCatalog
import ForgeDeno.JsonRoundTrip

namespace ForgeDeno

def createAbiSuccessResponse (id : JsString) (result : JsValue) : Except Thrown AbiResponseV1 := do
  assertIdentifier id (js "id")
  let result ← encodeAbiValue result
  return .success id result

/-- `error` holds the code, and the other fields when they are not `undefined`. -/
def createAbiFailureResponse (id : JsString) (error : AbiErrorV1) : Except Thrown AbiResponseV1 := do
  assertIdentifier id (js "id")
  match catalogEntry error.code with
  | none => throw (wasmCodecError (js "unknown ABI error code " ++ JsonText.quote error.code))
  | some (message, retryable) =>
    if error.message ≠ none ∧ error.message ≠ message then
      throw (wasmCodecError (js "ABI error message does not match the GoForge v1 catalog"))
    if error.retryable ≠ none ∧ error.retryable ≠ retryable then
      throw (wasmCodecError (js "ABI error retryability does not match the GoForge v1 catalog"))
    let field ← error.field.mapM fun field => assertErrorField (.string field)
    return .failure id { code := error.code, message, retryable, field }

def AbiErrorV1.toJs (error : AbiErrorV1) : JsValue :=
  .record ([(js "code", .string error.code),
    (js "message", (error.message.map .string).getD .undefined),
    (js "retryable", (error.retryable.map .bool).getD .undefined)] ++
    error.field.toList.map fun field => (js "field", .string field))

def AbiResponseV1.toJs : AbiResponseV1 → JsValue
  | .success id result => .record [(js "abi", .string GOFORGE_ABI_V1), (js "id", .string id),
      (js "ok", .bool true), (js "result", result)]
  | .failure id error => .record [(js "abi", .string GOFORGE_ABI_V1), (js "id", .string id),
      (js "ok", .bool false), (js "error", error.toJs)]

def AbiResponseV1.json (response : AbiResponseV1) : JsString :=
  (JsonText.stringify response.toJs).getD []

mutual

/-- Deep equality of plain data, with the members in the same order; numbers are compared with
`===`. -/
def deepEqual : JsValue → JsValue → Bool
  | .null, other => match other with
    | .null => true
    | _ => false
  | .bool b, other => match other with
    | .bool c => b == c
    | _ => false
  | .number n, other => match other with
    | .number m => n.eq m
    | _ => false
  | .string s, other => match other with
    | .string t => s == t
    | _ => false
  | .array items, other => match other with
    | .array others => itemsDeepEqual items others
    | _ => false
  | .record members, other => match other with
    | .record others => membersDeepEqual members others
    | _ => false
  | _, _ => false
termination_by structural x => x

def itemsDeepEqual : List JsValue → List JsValue → Bool
  | [], others => others.isEmpty
  | item :: items, others => match others with
    | other :: others => deepEqual item other && itemsDeepEqual items others
    | [] => false
termination_by structural x => x

def membersDeepEqual : List (JsString × JsValue) → List (JsString × JsValue) → Bool
  | [], others => others.isEmpty
  | member :: members, others => match others with
    | other :: others => memberDeepEqual member other && membersDeepEqual members others
    | [] => false
termination_by structural x => x

def memberDeepEqual : JsString × JsValue → JsString × JsValue → Bool
  | (key, item), other => key == other.1 && deepEqual item other.2
termination_by structural x => x

end

end ForgeDeno

namespace JsonValue

mutual

def depth : JsonValue → Nat
  | .array items => itemsDepth items
  | .object members => membersDepth members
  | _ => 0

def itemsDepth : List JsonValue → Nat
  | [] => 0
  | item :: items => max (item.depth + 1) (itemsDepth items)

def membersDepth : List (JsString × JsonValue) → Nat
  | [] => 0
  | member :: members => max (memberDepth member + 1) (membersDepth members)

def memberDepth : JsString × JsonValue → Nat
  | (_, item) => item.depth

end

end JsonValue

theorem JsNumber.eq_plusZero {n : JsNumber} (h : n.isFinite = true) : n.eq n.plusZero = true := by
  obtain ⟨x, rfl⟩ := JsonText.finite_of_isFinite h
  unfold JsNumber.plusZero
  simp only
  split
  next zero =>
    apply decide_eq_true
    simp [Double.toRat, Double.magnitude, Double.zero, zero]
  next => exact decide_eq_true rfl

namespace ForgeDeno

open JsonValue

mutual

theorem deepEqual_plusZero : ∀ v : JsonValue, v.WellFormed → deepEqual v.toJs v.plusZero.toJs = true
  | .null, _ => rfl
  | .bool b, _ => beq_self_eq_true b
  | .number _, wf => JsNumber.eq_plusZero wf
  | .string s, _ => beq_self_eq_true s
  | .array items, wf => itemsDeepEqual_plusZero items wf
  | .object members, wf => membersDeepEqual_plusZero members wf.2

theorem itemsDeepEqual_plusZero : ∀ items : List JsonValue, ItemsWellFormed items →
    itemsDeepEqual (itemsToJs items) (itemsToJs (itemsPlusZero items)) = true
  | [], _ => rfl
  | item :: items, wf =>
    Bool.and_eq_true_iff.mpr ⟨deepEqual_plusZero item wf.1, itemsDeepEqual_plusZero items wf.2⟩

theorem membersDeepEqual_plusZero : ∀ members : List (JsString × JsonValue), MembersWellFormed members →
      membersDeepEqual (membersToJs members) (membersToJs (membersPlusZero members)) = true
  | [], _ => rfl
  | (key, item) :: members, wf => by
    have same : memberDeepEqual (key, item.toJs) (key, item.plusZero.toJs) = true :=
      Bool.and_eq_true_iff.mpr ⟨beq_self_eq_true key, deepEqual_plusZero item wf.1⟩
    exact Bool.and_eq_true_iff.mpr ⟨same, membersDeepEqual_plusZero members wf.2⟩

end

end ForgeDeno
