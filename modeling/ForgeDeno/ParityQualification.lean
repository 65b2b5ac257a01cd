import ForgeDeno.AdapterObjects

namespace ForgeDeno

open ExceptRules List

/-- One shared parity vector; `id` is the one of its request. -/
structure GoforgeSharedVector where
  name : JsString
  operation : JsString
  payload : JsonDatum
  id : Option JsString
  response : List (JsString × JsonValue)
  wellFormed : (JsonValue.object response).WellFormed

namespace GoforgeSharedVector

def requestId (vector : GoforgeSharedVector) : JsString := vector.id.getD (js "parity")

def request (vector : GoforgeSharedVector) : AbiRequestV1 where
  id := vector.requestId
  operation := vector.operation
  metadata := none
  payload := vector.payload.value.toJs

def expected (vector : GoforgeSharedVector) : JsonDatum where
  value := .object (setMember vector.response (js "id") (.string vector.requestId))
  wellFormed := by
    refine ⟨setMember_ordered vector.wellFormed.1 _, (JsonValue.membersWellFormed_iff _).mpr ?_⟩
    intro member mem
    rcases mem_setMember mem with before | rfl
    · exact (JsonValue.membersWellFormed_iff _).mp vector.wellFormed.2 member before
    · exact trivial

end GoforgeSharedVector

structure Replay (σ : Type) where
  covered : List JsString
  failures : List JsString
  state : σ

section qualification

open NativeAdapterRegistry

-- `describe` is `String(cause)`, which can throw
variable {σ : Type} (functions : AdapterFunctions σ) (describe : Thrown → Except Thrown JsString)

def firstAttempt : NativeAdapterContext := ⟨false, 1, none⟩

def replayVector (adapter : NativeAdapter) (replay : Replay σ) (vector : GoforgeSharedVector) :
    Except Thrown (Replay σ) :=
  let expected := canonical vector.expected.value
  match functions.invokeOn adapter.object vector.request firstAttempt replay.state with
  | (.error cause, state) => do
    let text ← describe cause
    return { replay with failures := replay.failures ++ [vector.name ++ js ": threw " ++ text], state }
  | (.ok value, state) =>
    let actual := canonical value.value
    if actual = expected then
      return { replay with covered := vector.operation :: replay.covered, state }
    else
      return { replay with
        failures := replay.failures ++
          [vector.name ++ js ": expected " ++ expected ++ js " but produced " ++ actual]
        state }

/-- `qualifyNativeAdapter(adapter, vectors)`; `id` is the identity of the object that it makes. -/
def qualifyNativeAdapter (adapter : NativeAdapter) (vectors : List GoforgeSharedVector) (s : σ)
    (id : Nat) (r : NativeAdapterRegistry) : Except Thrown (AdapterObject × NativeAdapterRegistry) :=
  if vectors.isEmpty then
    throw (adapterError (js "parity qualification requires at least one shared vector"))
  else do
    let replay ← vectors.foldlM (replayVector functions describe adapter) ⟨[], [], s⟩
    if replay.failures ≠ [] then
      throw (adapterError (NativeAdapterRegistry.named adapter.name ++ js " failed parity qualification:\n  " ++
        (js "\n  ").intercalate replay.failures))
    else
      let uncovered := adapter.operations.filter fun operation => !replay.covered.contains operation
      if uncovered ≠ [] then
        throw (adapterError (NativeAdapterRegistry.named adapter.name ++
          js " claims operations with no qualifying vector: " ++ (js ", ").intercalate uncovered))
      else
        let copy := adapter.object.qualifiedCopy
        let recorded ← (r.mutate id copy.view).recordParityQualification id
        return (copy, recorded)

inductive Reproduces (adapter : AdapterObject) : List GoforgeSharedVector → σ → σ → Prop
  | nil (s : σ) : Reproduces adapter [] s s
  | cons {vector : GoforgeSharedVector} {vectors : List GoforgeSharedVector} {s next last : σ}
      {value : JsonDatum} :
      functions.invokeOn adapter vector.request firstAttempt s = (.ok value, next) →
        SameJson value.value vector.expected.value → Reproduces adapter vectors next last →
          Reproduces adapter (vector :: vectors) s last

variable {functions describe} {adapter : NativeAdapter}

variable {replay after : Replay σ}

theorem replayVector_ok {vector : GoforgeSharedVector}
    (replayed : replayVector functions describe adapter replay vector = .ok after) :
    (∃ failure, after.failures = replay.failures ++ [failure]) ∨
      ∃ value, functions.invokeOn adapter.object vector.request firstAttempt replay.state
          = (.ok value, after.state) ∧ SameJson value.value vector.expected.value ∧
        after = ⟨vector.operation :: replay.covered, replay.failures, after.state⟩ := by
  unfold replayVector at replayed
  split at replayed
  next cause state _ =>
    obtain ⟨text, -, made⟩ := bind_ok.mp replayed
    cases made
    exact .inl ⟨_, rfl⟩
  next value state invoked =>
    dsimp only at replayed
    split at replayed
    next same =>
      cases replayed
      exact .inr ⟨value, invoked, (canonical_same value.wellFormed vector.expected.wellFormed).mp same, rfl⟩
    next =>
      cases replayed
      exact .inl ⟨_, rfl⟩

theorem replayVector_reproduces {vector : GoforgeSharedVector} {value : JsonDatum}
    {next : σ} (invoked : functions.invokeOn adapter.object vector.request firstAttempt replay.state
      = (.ok value, next)) (same : SameJson value.value vector.expected.value) :
    replayVector functions describe adapter replay vector =
      .ok ⟨vector.operation :: replay.covered, replay.failures, next⟩ := by
  have texts := (canonical_same value.wellFormed vector.expected.wellFormed).mpr same
  simp only [replayVector, invoked, texts, if_true]
  rfl

variable {vectors : List GoforgeSharedVector}

theorem replay_failures
    (replayed : vectors.foldlM (replayVector functions describe adapter) replay = .ok after) :
    replay.failures <+: after.failures := by
  induction vectors generalizing replay with
  | nil =>
    cases replayed
    exact prefix_rfl
  | cons vector vectors ih =>
    obtain ⟨between, first, rest⟩ := bind_ok.mp replayed
    refine List.IsPrefix.trans ?_ (ih rest)
    rcases replayVector_ok first with ⟨failure, more⟩ | ⟨value, -, -, same⟩
    · exact more ▸ prefix_append _ _
    · rw [same]

theorem replay_ok {covered : List JsString} {s : σ} :
    (vectors.foldlM (replayVector functions describe adapter) ⟨covered, [], s⟩ = .ok after ∧
        after.failures = []) ↔ Reproduces functions adapter.object vectors s after.state ∧
        after = ⟨(vectors.map GoforgeSharedVector.operation).reverse ++ covered, [], after.state⟩ := by
  induction vectors generalizing covered s with
  | nil =>
    constructor
    · rintro ⟨replayed, -⟩
      cases replayed
      exact ⟨.nil s, rfl⟩
    · rintro ⟨reproduced, eq⟩
      cases reproduced
      rw [eq]
      exact ⟨rfl, rfl⟩
  | cons vector vectors ih =>
    constructor
    · rintro ⟨replayed, clean⟩
      obtain ⟨between, first, rest⟩ := bind_ok.mp replayed
      rcases replayVector_ok first with ⟨failure, more⟩ | ⟨value, invoked, same, eq⟩
      · have kept := replay_failures rest
        rw [clean, prefix_nil, more] at kept
        cases kept
      · rw [eq] at rest
        obtain ⟨reproduced, made⟩ := ih.mp ⟨rest, clean⟩
        refine ⟨.cons invoked same reproduced, ?_⟩
        rw [map_cons, reverse_cons, append_assoc]
        exact made
    · rintro ⟨reproduced, made⟩
      cases reproduced with
      | cons invoked same rest =>
        rw [map_cons, reverse_cons, append_assoc] at made
        obtain ⟨replayed, clean⟩ := ih.mpr ⟨rest, made⟩
        exact ⟨bind_ok.mpr ⟨_, replayVector_reproduces invoked same, replayed⟩, clean⟩

theorem recorded_copy (object : AdapterObject) (id : Nat) (r : NativeAdapterRegistry) :
    (r.mutate id object.qualifiedCopy.view).recordParityQualification id =
      .ok { r.mutate id object.qualifiedCopy.view with qualificationLedger := id :: r.qualificationLedger } := by
  have declared : ((r.mutate id object.qualifiedCopy.view).objects id).parityQualified
      = .bool true := by
    simp [mutate, AdapterObject.view, AdapterObject.get_parityQualified]
  simp only [recordParityQualification, declared]
  rfl

theorem qualifyNativeAdapter_ok {s : σ} {id : Nat}
    {r : NativeAdapterRegistry} {copy : AdapterObject} {recorded : NativeAdapterRegistry} :
    qualifyNativeAdapter functions describe adapter vectors s id r = .ok (copy, recorded) ↔
      vectors ≠ [] ∧ (∃ last, Reproduces functions adapter.object vectors s last) ∧
        (∀ operation ∈ adapter.operations, ∃ vector ∈ vectors, vector.operation = operation) ∧
        copy = adapter.object.qualifiedCopy ∧
        recorded = { r.mutate id copy.view with qualificationLedger := id :: r.qualificationLedger } := by
  have covering : ∀ replay : Replay σ,
      replay.covered = (vectors.map GoforgeSharedVector.operation).reverse ++ [] →
        (¬adapter.operations.filter (fun operation => !replay.covered.contains operation) ≠ [] ↔
          ∀ operation ∈ adapter.operations, ∃ vector ∈ vectors, vector.operation = operation) := by
    intro replay eq
    rw [not_not, filter_eq_nil_iff, eq]
    simp
  unfold qualifyNativeAdapter
  rw [check_ok, List.isEmpty_iff]
  refine and_congr_right fun _ => ?_
  constructor
  · intro h
    obtain ⟨replay, replayed, h1⟩ := bind_ok.mp h
    obtain ⟨clean, h2⟩ := check_ok.mp h1
    obtain ⟨full, h3⟩ := check_ok.mp h2
    obtain ⟨reproduced, made⟩ := replay_ok.mp ⟨replayed, not_not.mp clean⟩
    obtain ⟨ledger, noted, last⟩ := bind_ok.mp h3
    rw [recorded_copy] at noted
    cases noted
    cases last
    exact ⟨⟨_, reproduced⟩, (covering replay (by rw [made])).mp full, rfl, rfl⟩
  · rintro ⟨⟨last, reproduced⟩, listed, rfl, rfl⟩
    have run : vectors.foldlM (replayVector functions describe adapter) ⟨[], [], s⟩ =
        .ok ⟨(vectors.map GoforgeSharedVector.operation).reverse ++ [], [], last⟩ :=
      (replay_ok.mpr ⟨reproduced, rfl⟩).1
    refine bind_ok.mpr ⟨_, run, ?_⟩
    refine check_ok.mpr ⟨not_not.mpr rfl, ?_⟩
    refine check_ok.mpr ⟨(covering _ rfl).mpr listed, ?_⟩
    exact bind_ok.mpr ⟨_, recorded_copy adapter.object id r, rfl⟩

end qualification

/-- Qualification succeeds exactly when there are vectors, the adapter reproduces them all up to the
order of members, and each of its operations occurs in one; texts are compared instead of values. -/
theorem qualification_exact {σ : Type} (functions : AdapterFunctions σ)
    (describe : Thrown → Except Thrown JsString) (adapter : NativeAdapter)
    (vectors : List GoforgeSharedVector) (s : σ) (id : Nat) (r : NativeAdapterRegistry) :
    ((∃ qualified, qualifyNativeAdapter functions describe adapter vectors s id r = .ok qualified) ↔
      vectors ≠ [] ∧ (∃ last, Reproduces functions adapter.object vectors s last) ∧
        ∀ operation ∈ adapter.operations, ∃ vector ∈ vectors, vector.operation = operation) ∧
    ∀ x y : JsonDatum, canonical x.value = canonical y.value ↔ SameJson x.value y.value := by
  refine ⟨?_, fun x y => canonical_same x.wellFormed y.wellFormed⟩
  constructor
  · rintro ⟨⟨copy, recorded⟩, qualified⟩
    obtain ⟨some_vector, reproduced, listed, -, -⟩ := qualifyNativeAdapter_ok.mp qualified
    exact ⟨some_vector, reproduced, listed⟩
  · rintro ⟨some_vector, reproduced, listed⟩
    exact ⟨_, qualifyNativeAdapter_ok.mpr ⟨some_vector, reproduced, listed, rfl, rfl⟩⟩

end ForgeDeno
