import ForgeDeno.RuntimeCore

namespace ForgeDeno

open ExceptRules

variable {retry : WasmRetryPolicy} {call : Call} {manifest : WasmBundleManifestV1} {plan : CallPlan}

structure Call.Asks (call : Call) (request : AbiRequestV1) : Prop where
  id : request.id = call.requestId
  operation : request.operation = call.operation
  metadata : request.metadata = requestMetadata call.options call.deadline
  payload : encodeAbiValue call.payload = .ok request.payload

def WasmBundleManifestV1.RetrySafe (manifest : WasmBundleManifestV1) (operation : JsString) : Prop :=
  ∃ contract, operationContract manifest operation = some contract ∧ contract.retrySafe = true

theorem normalizeMetadata_same {metadata after : AbiRequestMetadataV1}
    (accepted : normalizeMetadata metadata = .ok after) : after = metadata := by
  unfold normalizeMetadata at accepted
  cases deadline : metadata.deadlineUnixMs <;> cases token : metadata.cancellationToken <;>
    cases capabilities : metadata.requiredCapabilities <;>
    simp only [deadline, token, capabilities, bind_ok, check_bind_ok, pure_ok] at accepted
  all_goals grind

theorem createAbiRequest_asks {id operation : JsString} {payload : JsValue}
    {metadata : Option AbiRequestMetadataV1} {request : AbiRequestV1}
    (accepted : createAbiRequest id operation payload metadata = .ok request) :
    request.id = id ∧ request.operation = operation ∧ request.metadata = metadata ∧
      encodeAbiValue payload = .ok request.payload := by
  unfold createAbiRequest at accepted
  obtain ⟨_, _, accepted⟩ := bind_ok.mp accepted
  obtain ⟨_, accepted⟩ := check_ok.mp accepted
  obtain ⟨normal, checked, accepted⟩ := bind_ok.mp accepted
  obtain ⟨copy, copied, accepted⟩ := bind_ok.mp accepted
  cases pure_ok.mp accepted
  refine ⟨rfl, rfl, ?_, copied⟩
  rcases mapM_ok checked with ⟨rfl, rfl⟩ | ⟨a, b, rfl, rfl, same⟩
  · rfl
  · rw [normalizeMetadata_same same]

theorem planCall_asks (planned : planCall retry call manifest = .ok plan) :
    call.Asks plan.request ∧ plan.maxAttempts ≤ retry.maxAttempts ∧
      (1 < plan.maxAttempts → call.options.allowRetry = true ∧ manifest.RetrySafe call.operation) := by
  unfold planCall at planned
  split at planned
  · cases planned
  · next contract known =>
    obtain ⟨request, created, planned⟩ := bind_ok.mp planned
    cases pure_ok.mp planned
    obtain ⟨id, operation, metadata, payload⟩ := createAbiRequest_asks created
    have some_attempt := retry.bounded.1
    refine ⟨⟨id, operation, metadata, payload⟩, ?_, fun more => ?_⟩
    · simp only
      split_ifs <;> omega
    · simp only at more
      split_ifs at more with both
      · simp only [Bool.and_eq_true] at both
        exact ⟨both.1, contract, known, both.2⟩
      · exact absurd more (Nat.lt_irrefl 1)

def WasmBundleManifestV1.Allows (manifest : WasmBundleManifestV1) (operation name : JsString) : Prop :=
  ∃ contract, operationContract manifest operation = some contract ∧ name ∈ contract.nativeAdapters.getD []

theorem planCall_allows (planned : planCall retry call manifest = .ok plan) {name : JsString}
    (listed : name ∈ plan.nativeAdapters) : manifest.Allows call.operation name := by
  unfold planCall at planned
  split at planned
  · cases planned
  · next contract known =>
    obtain ⟨request, created, planned⟩ := bind_ok.mp planned
    cases pure_ok.mp planned
    exact ⟨contract, known, listed⟩

theorem planCall_attempts (planned : planCall retry call manifest = .ok plan) : 1 ≤ plan.maxAttempts := by
  unfold planCall at planned
  split at planned
  · cases planned
  · obtain ⟨request, _, planned⟩ := bind_ok.mp planned
    cases pure_ok.mp planned
    simp only
    split_ifs
    · exact retry.bounded.1
    · exact Nat.le_refl 1

end ForgeDeno
