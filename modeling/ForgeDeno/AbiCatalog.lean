import ForgeDeno.AbiCodec
import ForgeDeno.ExceptRules

namespace ForgeDeno

open ExceptRules

def Thrown.IsCodec (cause : Thrown) : Prop :=
  ∃ error, cause.runtime? = some error ∧ error.cls = .codec

theorem wasmCodecError_isCodec (message : JsString) : (wasmCodecError message).IsCodec :=
  ⟨_, rfl, rfl⟩

theorem atDepth_codec {α : Type} {copy : Except Thrown α} (depth : Nat)
    (h : FailsWith Thrown.IsCodec copy) : FailsWith Thrown.IsCodec (atDepth depth copy) := by
  unfold atDepth
  split_ifs
  · exact .error (wasmCodecError_isCodec _)
  · exact h

mutual

theorem copyAbiValue_codec (path : JsString) (depth : Nat) :
    ∀ value, FailsWith Thrown.IsCodec (copyAbiValue path depth value)
  | .null => atDepth_codec depth (.ok JsValue.null)
  | .string s => atDepth_codec depth (.ok (JsValue.string s))
  | .bool b => atDepth_codec depth (.ok (JsValue.bool b))
  | .number n => by
    refine atDepth_codec depth ?_
    split_ifs
    · exact .ok (JsValue.number n)
    · exact .error (wasmCodecError_isCodec _)
  | .undefined | .hole | .unsupported _ | .binary | .ancestor _ | .exotic _ =>
    atDepth_codec depth (.error (wasmCodecError_isCodec _))
  | .array items => atDepth_codec depth ((copyItems_codec path (depth + 1) 0 items).map JsValue.array)
  | .record members =>
    atDepth_codec depth ((copyMembers_codec path (depth + 1) members).map JsValue.record)

theorem copyItems_codec (path : JsString) (depth index : Nat) :
    ∀ items, FailsWith Thrown.IsCodec (copyItems path depth index items)
  | [] => .ok []
  | item :: items => by
    have rest := copyItems_codec path depth (index + 1) items
    have first := copyAbiValue_codec (path ++ js "[" ++ JsonText.naturalText index ++ js "]")
      depth item
    cases item with
    | hole => exact rest.bind fun copies _ => .ok _
    | _ => exact first.bind fun copy _ => rest.bind fun copies _ => .ok _

theorem copyMembers_codec (path : JsString) (depth : Nat) :
    ∀ members, FailsWith Thrown.IsCodec (copyMembers path depth members)
  | [] => .ok []
  | member :: members => by
    have first := copyMember_codec path depth member
    have rest := copyMembers_codec path depth members
    exact first.bind fun copy _ => rest.bind fun copies _ => .ok _

theorem copyMember_codec (path : JsString) (depth : Nat) :
    ∀ member, FailsWith Thrown.IsCodec (copyMember path depth member)
  | (key, item) => by
    unfold copyMember
    split_ifs
    · exact .error (wasmCodecError_isCodec _)
    · exact (copyAbiValue_codec (path ++ js "." ++ key) depth item).bind fun copy _ => .ok _

end

theorem assertIdentifier_codec (value path : JsString) :
    FailsWith Thrown.IsCodec (assertIdentifier value path) := by
  unfold assertIdentifier
  split_ifs
  · exact .ok ()
  · exact .error (wasmCodecError_isCodec _)

theorem requireRecord_codec (value : JsValue) (path : JsString) :
    FailsWith Thrown.IsCodec (requireRecord value path) := by
  unfold requireRecord
  split <;> first | exact .ok _ | exact .error (wasmCodecError_isCodec _)

theorem requireExactKeys_codec (members : List (JsString × JsValue)) (expected : List JsString)
    (path : JsString) : FailsWith Thrown.IsCodec (requireExactKeys members expected path) := by
  unfold requireExactKeys
  split_ifs
  · exact .ok ()
  · exact .error (wasmCodecError_isCodec _)

theorem assertErrorField_codec (value : JsValue) : FailsWith Thrown.IsCodec (assertErrorField value) := by
  unfold assertErrorField
  split
  · split_ifs
    · exact .ok _
    · exact .error (wasmCodecError_isCodec _)
  · exact .error (wasmCodecError_isCodec _)

theorem validateAbiError_codec (members : List (JsString × JsValue)) :
    FailsWith Thrown.IsCodec (validateAbiError members) := by
  unfold validateAbiError
  refine (requireExactKeys_codec _ _ _).bind fun _ _ => ?_
  split
  · refine .check (wasmCodecError_isCodec _) fun _ => ?_
    split
    · exact .error (wasmCodecError_isCodec _)
    · refine .check (wasmCodecError_isCodec _) fun _ => ?_
      refine .check (wasmCodecError_isCodec _) fun _ => ?_
      exact (FailsWith.mapM assertErrorField_codec _).bind fun _ _ => .ok _
  · exact .error (wasmCodecError_isCodec _)

theorem validateAbiResponse_codec (value : JsValue) (expectedId : JsString) :
    FailsWith Thrown.IsCodec (validateAbiResponse value expectedId) := by
  unfold validateAbiResponse
  refine (assertIdentifier_codec _ _).bind fun _ _ => ?_
  refine (requireRecord_codec _ _).bind fun object _ => ?_
  refine (requireExactKeys_codec _ _ _).bind fun _ _ => ?_
  refine .check (wasmCodecError_isCodec _) fun _ => ?_
  refine .check (wasmCodecError_isCodec _) fun _ => ?_
  split_ifs
  · exact (copyAbiValue_codec _ _ _).bind fun _ _ => .ok _
  · exact .error (wasmCodecError_isCodec _)
  · refine (requireRecord_codec _ _).bind fun members _ => ?_
    exact (validateAbiError_codec members).bind fun _ _ => .ok _

theorem parseAbiResponse_codec (json expectedId : JsString) :
    FailsWith Thrown.IsCodec (parseAbiResponse json expectedId) := by
  unfold parseAbiResponse
  refine .check (wasmCodecError_isCodec _) fun _ => ?_
  have invalid (cause : Thrown) : (Thrown.caused
      (WasmErrorClass.codec.error (js "component response is not valid JSON")) cause).IsCodec :=
    ⟨_, rfl, rfl⟩
  simp only
  split
  · exact .error (invalid _)
  · split
    · next cause _ =>
      split
      · next error raised =>
        split_ifs with codec
        · exact .error ⟨error, raised, codec⟩
        · exact .error (invalid _)
      · exact .error (invalid _)
    · exact validateAbiResponse_codec _ _

/-- A failure that a response may carry: a code of the catalog with its message and flag. -/
def AbiErrorV1.Catalogued (error : AbiErrorV1) : Prop :=
  catalogEntry error.code = some (error.message, error.retryable)

variable {error : AbiErrorV1}

theorem validateAbiError_catalogued {members : List (JsString × JsValue)}
    (accepted : validateAbiError members = .ok error) : error.Catalogued := by
  unfold validateAbiError at accepted
  obtain ⟨_, _, accepted⟩ := bind_ok.mp accepted
  split at accepted
  · next code _ =>
    obtain ⟨_, accepted⟩ := check_ok.mp accepted
    split at accepted
    · cases accepted
    · next message retryable entry =>
      obtain ⟨_, accepted⟩ := check_ok.mp accepted
      obtain ⟨_, accepted⟩ := check_ok.mp accepted
      obtain ⟨field, _, accepted⟩ := bind_ok.mp accepted
      cases pure_ok.mp accepted
      exact entry
  · cases accepted

theorem validateAbiResponse_catalogued {value : JsValue} {expectedId id : JsString}
    (accepted : validateAbiResponse value expectedId = .ok (.failure id error)) :
    error.Catalogued := by
  unfold validateAbiResponse at accepted
  obtain ⟨_, _, accepted⟩ := bind_ok.mp accepted
  obtain ⟨object, _, accepted⟩ := bind_ok.mp accepted
  obtain ⟨_, _, accepted⟩ := bind_ok.mp accepted
  obtain ⟨_, accepted⟩ := check_ok.mp accepted
  obtain ⟨_, accepted⟩ := check_ok.mp accepted
  split_ifs at accepted
  · obtain ⟨result, _, accepted⟩ := bind_ok.mp accepted
    cases accepted
  · cases accepted
  · obtain ⟨members, _, accepted⟩ := bind_ok.mp accepted
    obtain ⟨checked, valid, accepted⟩ := bind_ok.mp accepted
    cases accepted
    exact validateAbiError_catalogued valid

theorem parseAbiResponse_catalogued {json expectedId id : JsString}
    (accepted : parseAbiResponse json expectedId = .ok (.failure id error)) : error.Catalogued := by
  unfold parseAbiResponse at accepted
  obtain ⟨_, accepted⟩ := check_ok.mp accepted
  simp only at accepted
  split at accepted
  · cases accepted
  · split at accepted
    · split at accepted
      · split_ifs at accepted
      · cases accepted
    · exact validateAbiResponse_catalogued accepted

theorem AbiErrorV1.Catalogued.deadline (h : error.Catalogued)
    (retryable : error.retryable = some true) : error.code = js "deadline_exceeded" := by
  unfold AbiErrorV1.Catalogued catalogEntry at h
  split at h
  · next definition found =>
    have only : ∀ entry ∈ GOFORGE_ABI_ERROR_CATALOG, entry.2.retryable = true →
        entry.1 = js "deadline_exceeded" := by decide
    refine only _ (lookupMember_mem found) ?_
    have same := (Prod.mk.inj (Option.some.inj h)).2
    rw [retryable] at same
    exact Option.some.inj same
  · split_ifs at h
    have same := (Prod.mk.inj (Option.some.inj h)).2
    rw [retryable] at same
    cases same

end ForgeDeno
