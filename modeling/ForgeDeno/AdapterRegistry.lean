import ForgeDeno.ExceptRules
import ForgeDeno.JsonText
import ForgeDeno.TextPattern
import ForgeDeno.WasmContracts
import ForgeDeno.WasmErrors
import Mathlib.Data.List.Sort

namespace ForgeDeno

section patterns

open TextPattern

def adapterNamePattern : TextPattern UInt16 :=
  seq (among "" [lower]) (seq (star (among "" [lower, digit]))
    (star (seq (among "._/-" []) (plus (among "" [lower, digit])))))

end patterns

/-- The fields of an adapter object; `operations` is `none` when it holds no array. -/
structure NativeWasmAdapter where
  name : JsString
  operations : Option (List JsString)
  parityQualified : JsValue
  hasInvoke : Bool

structure NativeAdapterRegistry where
  objects : Nat → NativeWasmAdapter
  qualificationLedger : List Nat
  adapters : List (JsString × Nat)
  closed : Bool

namespace NativeAdapterRegistry

def adapterError (message : JsString) : Thrown := .wasm (wasmAdapterError message)

def named (name : JsString) : JsString := js "native adapter " ++ JsonText.quote name

def recordParityQualification (id : Nat) (r : NativeAdapterRegistry) : Except Thrown NativeAdapterRegistry :=
  match (r.objects id).parityQualified with
  | .bool true => .ok { r with qualificationLedger := id :: r.qualificationLedger }
  | _ => .error (adapterError (named (r.objects id).name ++
      js (" cannot be recorded as qualified " ++
        "because it does not declare parityQualified: true")))

def isParityQualified (id : Nat) (r : NativeAdapterRegistry) : Bool :=
  r.qualificationLedger.contains id

/-- The loop over the operations in `validateAdapter`. -/
def validOperations (seen : List JsString) : List JsString → Bool
  | [] => true
  | operation :: rest =>
    GOFORGE_ABI_V1_OPERATIONS.contains operation && !seen.contains operation &&
      validOperations (operation :: seen) rest

def validateAdapter (id : Nat) (r : NativeAdapterRegistry) : Except Thrown Unit :=
  let adapter := r.objects id
  if !adapterNamePattern.test adapter.name then
    .error (adapterError (js "invalid native adapter name " ++ JsonText.quote adapter.name))
  else match adapter.operations with
  | none | some [] => .error (adapterError (named adapter.name ++ js " has no operations"))
  | some operations =>
    if !validOperations [] operations then
      .error (adapterError (named adapter.name ++ js " has an invalid or duplicate operation"))
    else match adapter.parityQualified, adapter.hasInvoke with
    | .bool parityQualified, true =>
      if parityQualified && !r.isParityQualified id then
        .error (adapterError (named adapter.name ++
          js (" claims parity qualification that was " ++
            "never performed; qualify it and record the result before registering it")))
      else .ok ()
    | _, _ => .error (adapterError (named adapter.name ++ js " is malformed"))

def closedError : Thrown := adapterError (js "native adapter registry is closed")

def register (id : Nat) (r : NativeAdapterRegistry) : Except Thrown NativeAdapterRegistry := do
  if r.closed then throw closedError
  r.validateAdapter id
  let name := (r.objects id).name
  if (lookupMember r.adapters name).isSome then
    throw (adapterError (named name ++ js " is already registered"))
  return { r with adapters := r.adapters ++ [(name, id)] }

def unregister (name : JsString) (r : NativeAdapterRegistry) :
    Except Thrown NativeAdapterRegistry := do
  if r.closed then throw closedError
  return { r with adapters := r.adapters.filter fun entry => entry.1 ≠ name }

def names (r : NativeAdapterRegistry) : List JsString :=
  (r.adapters.map Prod.fst).mergeSort JsString.unitsLe

def resolve (name operation : JsString) (manifestAllowlist : List JsString)
    (r : NativeAdapterRegistry) : Except Thrown Nat := do
  if r.closed then throw closedError
  match lookupMember r.adapters name with
  | none => throw (adapterError (named name ++ js " is not registered"))
  | some id =>
    let adapter := r.objects id
    if !manifestAllowlist.contains name then
      throw (adapterError (named name ++ js " is not approved for operation " ++
        JsonText.quote operation))
    match adapter.operations with
    | none => throw (.typeError (js "adapter.operations.includes is not a function"))
    | some operations =>
      if !operations.contains operation then
        throw (adapterError (named name ++ js " does not implement operation " ++
          JsonText.quote operation))
      if !adapter.parityQualified.truthy || !r.isParityQualified id then
        throw (adapterError (named name ++ js " has not passed shared parity qualification"))
      return id

/-- `close()` up to its first `await`, and its end. -/
def startClose (r : NativeAdapterRegistry) : NativeAdapterRegistry := { r with closed := true }

def clear (r : NativeAdapterRegistry) : NativeAdapterRegistry := { r with adapters := [] }

def mutate (id : Nat) (adapter : NativeWasmAdapter) (r : NativeAdapterRegistry) : NativeAdapterRegistry :=
  { r with objects := fun other => if other = id then adapter else r.objects other }

end NativeAdapterRegistry

inductive AdapterOp where
  | recordParityQualification (id : Nat)
  | register (id : Nat)
  | unregister (name : JsString)
  | mutate (id : Nat) (adapter : NativeWasmAdapter)
  | close
  | clear

namespace NativeAdapterRegistry

def apply (r : NativeAdapterRegistry) : AdapterOp → NativeAdapterRegistry
  | .recordParityQualification id => (r.recordParityQualification id).toOption.getD r
  | .register id => (r.register id).toOption.getD r
  | .unregister name => (r.unregister name).toOption.getD r
  | .mutate id adapter => r.mutate id adapter
  | .close => r.startClose
  | .clear => if r.closed then r.clear else r

/-- What `resolve` has checked of the object it returns. -/
structure Routed (name operation : JsString) (manifestAllowlist : List JsString) (id : Nat)
    (r : NativeAdapterRegistry) : Prop where
  alive : r.closed = false
  registered : lookupMember r.adapters name = some id
  approved : name ∈ manifestAllowlist
  implements : ∃ operations, (r.objects id).operations = some operations ∧ operation ∈ operations
  declared : (r.objects id).parityQualified.truthy = true
  qualified : id ∈ r.qualificationLedger

open ExceptRules in
theorem resolve_routed {name operation : JsString} {manifestAllowlist : List JsString} {id : Nat}
    {r : NativeAdapterRegistry} (h : r.resolve name operation manifestAllowlist = .ok id) :
    r.Routed name operation manifestAllowlist id := by
  unfold resolve at h
  obtain ⟨alive, h⟩ := check_ok.mp h
  split at h
  · cases h
  · next object found =>
    obtain ⟨approved, h⟩ := check_ok.mp h
    split at h
    · cases h
    · next operations listed =>
      obtain ⟨implements, h⟩ := check_ok.mp h
      obtain ⟨qualified, h⟩ := check_ok.mp h
      cases pure_ok.mp h
      simp only [Bool.or_eq_true, Bool.not_eq_true', not_or, Bool.not_eq_false] at qualified
      exact ⟨by simpa using alive, found, by simpa using approved,
        ⟨operations, listed, by simpa using implements⟩, qualified.1,
        by simpa [isParityQualified] using qualified.2⟩

end NativeAdapterRegistry

end ForgeDeno
