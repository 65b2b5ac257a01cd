import ForgeDeno.ParityQualification

namespace ForgeDeno

open NativeAdapterRegistry AdapterObject AdapterFunctions ExceptRules List

theorem validOperations_iff (seen operations : List JsString) : validOperations seen operations = true ↔
      operations.Nodup ∧ ∀ operation ∈ operations, operation ∈ GOFORGE_ABI_V1_OPERATIONS ∧ operation ∉ seen := by
  induction operations generalizing seen with
  | nil => exact iff_of_true rfl ⟨nodup_nil, nofun⟩
  | cons operation operations ih =>
    rw [validOperations, Bool.and_eq_true, Bool.and_eq_true, ih, nodup_cons, forall_mem_cons]
    simp only [contains_eq_mem, decide_eq_true_eq, Bool.not_eq_true', decide_eq_false_iff_not,
      mem_cons, not_or]
    constructor
    · rintro ⟨⟨portable, fresh⟩, unique, rest⟩
      exact ⟨⟨fun mem => (rest operation mem).2.1 rfl, unique⟩, ⟨portable, fresh⟩,
        fun other mem => ⟨(rest other mem).1, (rest other mem).2.2⟩⟩
    · rintro ⟨⟨apart, unique⟩, ⟨portable, fresh⟩, rest⟩
      refine ⟨⟨portable, fresh⟩, unique, fun other mem => ⟨(rest other mem).1, ?_, (rest other mem).2⟩⟩
      rintro rfl
      exact apart mem

/-- The registry takes an adapter with a valid name, a list of different portable operations and a
method `invoke`, whose declaration of qualification is backed by the ledger. -/
theorem validateAdapter_ok {id : Nat} {r : NativeAdapterRegistry} :
    r.validateAdapter id = .ok () ↔ adapterNamePattern.test (r.objects id).name = true ∧
      (∃ operations, (r.objects id).operations = some operations ∧ operations ≠ [] ∧
        operations.Nodup ∧ ∀ operation ∈ operations, operation ∈ GOFORGE_ABI_V1_OPERATIONS) ∧
      (∃ parityQualified, (r.objects id).parityQualified = .bool parityQualified ∧
        (parityQualified = true → id ∈ r.qualificationLedger)) ∧ (r.objects id).hasInvoke = true := by
  have operations_ok : ∀ operations : List JsString, validOperations [] operations = true ↔
      operations.Nodup ∧ ∀ operation ∈ operations, operation ∈ GOFORGE_ABI_V1_OPERATIONS := by
    intro operations
    rw [validOperations_iff]
    simp
  simp only [validateAdapter, isParityQualified, contains_eq_mem]
  generalize r.objects id = adapter
  obtain ⟨name, operations, parityQualified, hasInvoke⟩ := adapter
  dsimp only
  constructor
  · intro h
    split at h
    next => cases h
    next named =>
      split at h
      next => cases h
      next => cases h
      next operations nonempty =>
        split at h
        next => cases h
        next valid =>
          split at h
          next declared =>
            split at h
            next => cases h
            next backed =>
              refine ⟨by simpa using named, ⟨operations, rfl, nonempty, ?_⟩, ⟨declared, rfl, ?_⟩, rfl⟩
              · exact (operations_ok operations).mp (by simpa using valid)
              · intro yes
                rw [yes] at backed
                simpa using backed
          next => cases h
  · rintro ⟨named, ⟨operations, rfl, listed, unique, portable⟩, ⟨declared, rfl, backed⟩, rfl⟩
    have valid := (operations_ok operations).mpr ⟨unique, portable⟩
    cases operations with
    | nil => exact absurd rfl listed
    | cons operation operations =>
      cases declared with
      | false => simp [named, valid]
      | true => simp [named, valid, backed rfl]

theorem register_ok {id : Nat} {r : NativeAdapterRegistry} :
    (∃ registered, r.register id = .ok registered) ↔ r.closed = false ∧
      r.validateAdapter id = .ok () ∧ lookupMember r.adapters (r.objects id).name = none := by
  unfold register
  constructor
  · rintro ⟨registered, h⟩
    obtain ⟨alive, h1⟩ := check_ok.mp h
    obtain ⟨⟨⟩, valid, h2⟩ := bind_ok.mp h1
    obtain ⟨free, -⟩ := check_ok.mp h2
    exact ⟨by simpa using alive, valid, by simpa using free⟩
  · rintro ⟨alive, valid, free⟩
    refine ⟨{ r with adapters := r.adapters ++ [((r.objects id).name, id)] }, ?_⟩
    refine check_ok.mpr ⟨by simp [alive], ?_⟩
    refine bind_ok.mpr ⟨(), valid, ?_⟩
    exact check_bind_ok.mpr ⟨by simp [free], rfl⟩

section copies

variable {σ : Type} (functions : AdapterFunctions σ) (adapter : NativeAdapter)

/-- The registry takes the object `copy`, and calls on it do what calls on the adapter do. -/
structure SameAdapter (copy : AdapterObject) (id : Nat) (r : NativeAdapterRegistry) : Prop where
  registered : ∃ registered, r.register id = .ok registered
  invoke : ∀ request context s, functions.invokeOn copy request context s =
    functions.invokeOn adapter.object request context s
  close : ∀ s, functions.closeOn copy s = functions.closeOn adapter.object s

/-- What the registry needs is among the adapter's own enumerable properties and passes its checks; a
`close` that is not has no effect. -/
structure CarriedOver : Prop where
  name : adapter.object.Copies (js "name") (.string adapter.name) →
    adapterNamePattern.test adapter.name = true
  operations : adapter.object.Copies (js "operations") (.strings adapter.operations)
  listed : adapter.operations ≠ []
  unique : adapter.operations.Nodup
  portable : ∀ operation ∈ adapter.operations, operation ∈ GOFORGE_ABI_V1_OPERATIONS
  invoke : ∃ method, adapter.object.Copies (js "invoke") (.function method)
  close : ∀ method, adapter.object.get (js "close") = some (.function method) →
    adapter.object.Copies (js "close") (.function method) ∨
      ∀ s, functions.close method adapter.object s = (.ok (), s)

/-- The adapter can be replaced by a copy of its own enumerable properties: these are all that its
methods use. -/
structure Transferable : Prop extends CarriedOver functions adapter where
  invokeData : ∀ method, adapter.object.Copies (js "invoke") (.function method) →
    UsesOwnData (functions.invoke method) adapter.object
  closeData : ∀ method, adapter.object.Copies (js "close") (.function method) →
    UsesOwnData (functions.close method) adapter.object

variable {functions adapter}

theorem invokeOn_function {object : AdapterObject} {method : Nat}
    (found : object.get (js "invoke") = some (.function method)) (request : AbiRequestV1)
    (context : NativeAdapterContext) (s : σ) :
    functions.invokeOn object request context s = functions.invoke method object request context s := by
  rw [invokeOn, found]

theorem closeOn_function {object : AdapterObject} {method : Nat}
    (found : object.get (js "close") = some (.function method)) (s : σ) :
    functions.closeOn object s = functions.close method object s := by
  rw [closeOn, found]

theorem copied_field {object : AdapterObject} {key : JsString} (other : key ≠ js "parityQualified")
    {value : AdapterField} (found : object.qualifiedCopy.get key = some value) :
    object.Copies key value ∧ object.get key = some value := by
  have copied := (get_qualifiedCopy other value).mp found
  exact ⟨copied, get_of_copies copied⟩

theorem validate_copy {id : Nat} {r : NativeAdapterRegistry}
    (object : r.objects id = adapter.object.qualifiedCopy.view) (noted : id ∈ r.qualificationLedger) :
    r.validateAdapter id = .ok () ↔
      (adapter.object.Copies (js "name") (.string adapter.name) →
        adapterNamePattern.test adapter.name = true) ∧
      (adapter.object.Copies (js "operations") (.strings adapter.operations) ∧
        adapter.operations ≠ [] ∧ adapter.operations.Nodup ∧
        ∀ operation ∈ adapter.operations, operation ∈ GOFORGE_ABI_V1_OPERATIONS) ∧
      ∃ method, adapter.object.Copies (js "invoke") (.function method) := by
  have name_other : js "name" ≠ js "parityQualified" := by decide
  have operations_other : js "operations" ≠ js "parityQualified" := by decide
  have invoke_other : js "invoke" ≠ js "parityQualified" := by decide
  have missing : adapterNamePattern.test (js "undefined") = true := by decide
  rw [validateAdapter_ok, object]
  refine and_congr ?_ (and_congr ?_ ?_)
  · constructor
    · intro named copied
      rw [view, (get_qualifiedCopy name_other _).mpr copied] at named
      exact named
    · intro named
      rw [view]
      cases found : adapter.object.qualifiedCopy.get (js "name") with
      | none => exact missing
      | some field =>
        obtain ⟨copied, read⟩ := copied_field name_other found
        cases adapter.named.symm.trans read
        exact named copied
  · constructor
    · rintro ⟨operations, listed, nonempty, unique, portable⟩
      rw [view] at listed
      dsimp only at listed
      split at listed
      next items found =>
        cases listed
        obtain ⟨copied, read⟩ := copied_field operations_other found
        cases adapter.listed.symm.trans read
        exact ⟨copied, nonempty, unique, portable⟩
      next => cases listed
    · rintro ⟨copied, rest⟩
      refine ⟨adapter.operations, ?_, rest⟩
      rw [view, (get_qualifiedCopy operations_other _).mpr copied]
  · have declared : adapter.object.qualifiedCopy.view.parityQualified = .bool true := by
      rw [view, get_parityQualified]
    constructor
    · rintro ⟨-, invoked⟩
      rw [view] at invoked
      dsimp only at invoked
      split at invoked
      next method found => exact ⟨method, (copied_field invoke_other found).1⟩
      next => cases invoked
    · rintro ⟨method, copied⟩
      refine ⟨⟨true, declared, fun _ => noted⟩, ?_⟩
      rw [view, (get_qualifiedCopy invoke_other _).mpr copied]

section close

theorem close_left_behind {field : AdapterField} (read : adapter.object.get (js "close") = some field)
    (behind : ¬adapter.object.Copies (js "close") field) :
    adapter.object.qualifiedCopy.get (js "close") = none := by
  have other : js "close" ≠ js "parityQualified" := by decide
  cases found : adapter.object.qualifiedCopy.get (js "close") with
  | none => rfl
  | some value =>
    obtain ⟨copied, read'⟩ := copied_field other found
    cases read.symm.trans read'
    exact absurd copied behind

/-- A `close` that stays behind has no effect where its calls agree. -/
theorem close_idle
    (agree : ∀ s, functions.closeOn adapter.object.qualifiedCopy s = functions.closeOn adapter.object s)
    {method : Nat} (read : adapter.object.get (js "close") = some (.function method)) :
    adapter.object.Copies (js "close") (.function method) ∨
      ∀ s, functions.close method adapter.object s = (.ok (), s) := by
  by_cases copied : adapter.object.Copies (js "close") (.function method)
  · exact .inl copied
  · refine .inr fun s => ?_
    have same := agree s
    rw [closeOn_function read, closeOn, close_left_behind read copied] at same
    exact same.symm

theorem closeOn_copy (transferable : Transferable functions adapter) (s : σ) :
    functions.closeOn adapter.object.qualifiedCopy s = functions.closeOn adapter.object s := by
  have other : js "close" ≠ js "parityQualified" := by decide
  cases read : adapter.object.get (js "close") with
  | none =>
    have gone : adapter.object.qualifiedCopy.get (js "close") = none := by
      cases found : adapter.object.qualifiedCopy.get (js "close") with
      | none => rfl
      | some value => cases read.symm.trans (copied_field other found).2
    rw [closeOn, closeOn, gone, read]
  | some field =>
    by_cases copied : adapter.object.Copies (js "close") field
    · have found := (get_qualifiedCopy other _).mpr copied
      rcases adapter.closable field read with rfl | ⟨method, rfl⟩
      · rw [closeOn, closeOn, found, read]
      · rw [closeOn_function found, closeOn_function read,
          transferable.closeData method copied _ (sameData_qualifiedCopy _)]
    · have gone := close_left_behind read copied
      rcases adapter.closable field read with rfl | ⟨method, rfl⟩
      · rw [closeOn, closeOn, gone, read]
      · have idle := (transferable.close method read).resolve_left copied
        rw [closeOn_function read, idle, closeOn, gone]

end close

end copies

theorem qualified_object {σ : Type} {functions : AdapterFunctions σ}
    {describe : Thrown → Except Thrown JsString} {adapter : NativeAdapter}
    {vectors : List GoforgeSharedVector} {s : σ} {id : Nat} {r recorded : NativeAdapterRegistry}
    {copy : AdapterObject}
    (qualified : qualifyNativeAdapter functions describe adapter vectors s id r = .ok (copy, recorded)) :
    recorded.objects id = copy.view := by
  obtain ⟨-, -, -, -, eq⟩ := qualifyNativeAdapter_ok.mp qualified
  rw [eq]
  exact if_pos rfl

/-- The qualified copy stands for the adapter that was tested if the methods of the adapter use only the
properties that a copy keeps, and only if the copy keeps what the registry needs and every `close` that
has an effect. -/
theorem qualified_copy_exact {σ : Type} {functions : AdapterFunctions σ}
    {describe : Thrown → Except Thrown JsString} {adapter : NativeAdapter}
    {vectors : List GoforgeSharedVector} {s : σ} {id : Nat} {r recorded : NativeAdapterRegistry}
    {copy : AdapterObject}
    (qualified : qualifyNativeAdapter functions describe adapter vectors s id r = .ok (copy, recorded))
    (isOpen : r.closed = false) (free : lookupMember r.adapters copy.view.name = none) :
    (Transferable functions adapter → SameAdapter functions adapter copy id recorded) ∧
      (SameAdapter functions adapter copy id recorded → CarriedOver functions adapter) := by
  obtain ⟨-, -, -, rfl, eq⟩ := qualifyNativeAdapter_ok.mp qualified
  have object := qualified_object qualified
  have noted : id ∈ recorded.qualificationLedger := by
    rw [eq]
    exact List.mem_cons_self
  have other : js "invoke" ≠ js "parityQualified" := by decide
  have accepts : (∃ registered, recorded.register id = .ok registered) ↔ _ :=
    register_ok.trans (and_congr_right fun _ => and_congr_left fun _ =>
      validate_copy object noted)
  constructor
  · intro transferable
    obtain ⟨method, copied⟩ := transferable.invoke
    refine ⟨accepts.mpr ⟨?_, ⟨transferable.name, ⟨transferable.operations, transferable.listed,
      transferable.unique, transferable.portable⟩, method, copied⟩, ?_⟩, ?_, closeOn_copy transferable⟩
    · rw [eq]
      exact isOpen
    · rw [object, eq]
      exact free
    · intro request context s
      rw [invokeOn_function ((AdapterObject.get_qualifiedCopy other _).mpr copied),
        invokeOn_function (AdapterObject.get_of_copies copied),
        transferable.invokeData method copied _ (sameData_qualifiedCopy _)]
  · intro same
    obtain ⟨-, ⟨name, ⟨operations, listed, unique, portable⟩, invoke⟩, -⟩ := accepts.mp same.registered
    exact ⟨name, operations, listed, unique, portable, invoke, fun _ read => close_idle same.close read⟩

/-- The answer to a request to encode `hi`. -/
def encodedAnswer (id : JsString) : JsonDatum where
  value := .object [(js "abi", .string GOFORGE_ABI_V1), (js "id", .string id), (js "ok", .bool true),
    (js "result", .object [(js "encoded", .string (js "aGk="))])]
  wellFormed := by
    have names : [js "abi", js "id", js "ok", js "result"].Pairwise fun a b => precedes a b = true := by
      decide
    exact ⟨names, trivial, trivial, trivial, ⟨by decide, trivial, trivial⟩, trivial⟩

def encodingVector : GoforgeSharedVector where
  name := js "base64-encode"
  operation := js "encoding.base64.encode"
  payload := ⟨.object [(js "text", .string (js "hi"))], by decide, trivial, trivial⟩
  id := none
  response := [(js "abi", .string GOFORGE_ABI_V1), (js "id", .string (js "vector-1")),
    (js "ok", .bool true), (js "result", .object [(js "encoded", .string (js "aGk="))])]
  wellFormed := ⟨by decide, trivial, trivial, trivial, ⟨by decide, trivial, trivial⟩, trivial⟩

/-- The method `invoke` answers what the object lists in `this.operations`. -/
def answeringFunctions : AdapterFunctions Unit where
  invoke _ this request _ s :=
    match this.get (js "operations") with
    | some (.strings operations) =>
      if operations.contains request.operation then (.ok (encodedAnswer request.id), s)
      else (.error (.typeError (js "unsupported operation")), s)
    | _ => (.error (.typeError (js "this.operations is not iterable")), s)
  close _ _ s := (.ok (), s)

def encodingAdapter (own : Bool) : NativeAdapter where
  object := {
    own := [(js "name", ⟨.string (js "native.encoder"), true⟩),
      (js "operations", ⟨.strings [js "encoding.base64.encode"], true⟩),
      (js "parityQualified", ⟨.boolean false, true⟩)] ++
        (if own then [(js "invoke", ⟨.function 0, true⟩)] else [])
    inherited := if own then [] else [(js "invoke", .function 0)]
    privateFields := false
    frozen := own
    ordered := by cases own <;> decide }
  name := js "native.encoder"
  operations := [js "encoding.base64.encode"]
  named := by cases own <;> rfl
  listed := by cases own <;> rfl
  closable := by
    intro field found
    cases own <;> cases found

def newRegistry : NativeAdapterRegistry where
  objects _ := ⟨[], none, .undefined, false⟩
  qualificationLedger := []
  adapters := []
  closed := false

theorem encodingAdapter_qualifies (own : Bool) (describe : Thrown → Except Thrown JsString) :
    ∃ recorded, qualifyNativeAdapter answeringFunctions describe (encodingAdapter own) [encodingVector]
      () 0 newRegistry = .ok ((encodingAdapter own).object.qualifiedCopy, recorded) := by
  have answered : answeringFunctions.invokeOn (encodingAdapter own).object encodingVector.request
      firstAttempt () = (.ok (encodedAnswer (js "parity")), ()) := by
    cases own <;> rfl
  have same : SameJson (encodedAnswer (js "parity")).value encodingVector.expected.value :=
    (canonical_same (encodedAnswer _).wellFormed encodingVector.expected.wellFormed).mp rfl
  refine ⟨_, qualifyNativeAdapter_ok.mpr ⟨cons_ne_nil _ _,
    ⟨(), .cons answered same (.nil ())⟩, ?_, rfl, rfl⟩⟩
  intro operation mem
  exact ⟨encodingVector, mem_cons_self, (mem_singleton.mp mem).symm⟩

theorem transferable_literal : Transferable answeringFunctions (encodingAdapter true) where
  name _ := by decide
  operations := rfl
  listed := cons_ne_nil _ _
  unique := by decide
  portable := by decide
  invoke := ⟨0, rfl⟩
  close _ found := by cases found
  invokeData method _ other same := by
    have apart : js "operations" ≠ js "parityQualified" := by decide
    have copied : (encodingAdapter true).object.Copies (js "operations")
        (.strings [js "encoding.base64.encode"]) := rfl
    funext request context s
    unfold answeringFunctions
    dsimp only
    rw [same.get apart copied, get_of_copies copied]
  closeData _ _ _ _ := rfl

theorem qualified_copy_literal : ∃ copy recorded,
    qualifyNativeAdapter answeringFunctions (fun _ => .ok []) (encodingAdapter true) [encodingVector]
        () 0 newRegistry = .ok (copy, recorded) ∧
      SameAdapter answeringFunctions (encodingAdapter true) copy 0 recorded := by
  obtain ⟨recorded, qualified⟩ := encodingAdapter_qualifies true fun _ => .ok []
  exact ⟨_, recorded, qualified, (qualified_copy_exact qualified rfl rfl).1 transferable_literal⟩

/-- With its method on the prototype an adapter qualifies too, but its copy is not registered. -/
theorem prototype_method_lost :
    (∃ copy recorded, qualifyNativeAdapter answeringFunctions (fun _ => .ok []) (encodingAdapter false)
        [encodingVector] () 0 newRegistry = .ok (copy, recorded) ∧
      ¬∃ registered, recorded.register 0 = .ok registered) ∧
    ¬∀ (functions : AdapterFunctions Unit) describe adapter vectors s id r copy recorded,
      qualifyNativeAdapter functions describe adapter vectors s id r = .ok (copy, recorded) →
        r.closed = false → lookupMember r.adapters copy.view.name = none →
          SameAdapter functions adapter copy id recorded := by
  obtain ⟨recorded, qualified⟩ := encodingAdapter_qualifies false fun _ => .ok []
  have refused : ¬∃ registered, recorded.register 0 = .ok registered := by
    rw [register_ok, validateAdapter_ok, qualified_object qualified]
    rintro ⟨-, ⟨-, -, -, invoked⟩, -⟩
    exact absurd invoked (by decide)
  refine ⟨⟨_, recorded, qualified, refused⟩, ?_⟩
  intro claimed
  exact refused (claimed _ _ _ _ _ _ _ _ _ qualified rfl rfl).registered

end ForgeDeno
