import ForgeDeno.LabelledMachine
import ForgeDeno.ListRules

namespace ForgeDeno

open LabelledMachine ListRules List Option

/-- What happens to the chain `Promise.resolve().then(() => this.createApi()).then(…)`: its first reaction
calls `createApi`, which returns a promise or throws, that promise settles, and the last reaction
takes the outcome. -/
inductive InitializationEvent (Api Cause : Type) where
  | createApi
  | returns
  | throws (cause : Cause)
  | settles (outcome : Except Cause Api)
  | reaction

inductive Initialization (Api Cause : Type) where
  | scheduled
  | calling
  | created
  | settled (outcome : Except Cause Api)
  | finished (outcome : Except Cause Api)

namespace Initialization

variable {Api Cause : Type}

def step : Initialization Api Cause → InitializationEvent Api Cause → Option (Initialization Api Cause)
  | .scheduled, .createApi => some .calling
  | .calling, .returns => some .created
  | .calling, .throws cause => some (.settled (.error cause))
  | .created, .settles outcome => some (.settled outcome)
  | .settled outcome, .reaction => some (.finished outcome)
  | _, _ => none

def active : Initialization Api Cause → Bool
  | .finished _ => false
  | _ => true

def outcome? : Initialization Api Cause → Option (Except Cause Api)
  | .finished outcome => some outcome
  | _ => none

/-- The promise of `createApi` has been fulfilled. -/
def succeeded : Initialization Api Cause → Bool
  | .settled (.ok _) => true
  | .finished (.ok _) => true
  | _ => false

end Initialization

inductive ApiPromise (Api : Type) where
  | resolved (api : Api)
  | initialization (k : Nat)

/-- The fields `#api` and `#apiInitialization` of a `KmsRepositoryBase`, the initializations that were
started, and the promises that its operations wait for. -/
structure KmsState (Api Cause : Type) where
  api : Option Api
  apiInitialization : Option Nat
  initializations : List (Initialization Api Cause)
  operations : List (ApiPromise Api)

inductive KmsEvent (Api Cause : Type) where
  | operation
  | initialization (k : Nat) (e : InitializationEvent Api Cause)

namespace KmsState

variable {Api Cause : Type}

def new (injected : Option Api) : KmsState Api Cause := ⟨injected, none, [], []⟩

def resolveApi (s : KmsState Api Cause) : KmsState Api Cause × ApiPromise Api :=
  match s.api with
  | some api => (s, .resolved api)
  | none =>
    match s.apiInitialization with
    | some k => (s, .initialization k)
    | none =>
      let k := s.initializations.length
      ({ s with initializations := s.initializations ++ [.scheduled], apiInitialization := some k },
        .initialization k)

def settleApi (s : KmsState Api Cause) : Initialization Api Cause → KmsState Api Cause
  | .finished (.ok api) => { s with api := some api, apiInitialization := none }
  | .finished (.error _) => { s with apiInitialization := none }
  | _ => s

def step (s : KmsState Api Cause) : KmsEvent Api Cause → Option (KmsState Api Cause)
  | .operation =>
    let (t, promise) := s.resolveApi
    some { t with operations := t.operations ++ [promise] }
  | .initialization k e => do
    let here ← s.initializations[k]?
    let next ← here.step e
    return { s with initializations := s.initializations.set k next }.settleApi next

def outcome (s : KmsState Api Cause) : ApiPromise Api → Option (Except Cause Api)
  | .resolved api => some (.ok api)
  | .initialization k => s.initializations[k]?.bind Initialization.outcome?

/-- What the operation's `await this.#resolveApi()` gives. -/
def received (s : KmsState Api Cause) (i : Nat) : Option (Except Cause Api) :=
  s.operations[i]?.bind s.outcome

end KmsState

def kmsMachine (Api Cause : Type) : LabelledMachine (KmsState Api Cause) (KmsEvent Api Cause) where
  start s := ∃ injected, s = .new injected
  step := KmsState.step

namespace KmsState

variable {Api Cause : Type} {s t : KmsState Api Cause}

/-- `#apiInitialization` names the active initialization, of which there is one only while `#api` is
unset. -/
structure Single (s : KmsState Api Cause) : Prop where
  named : ∀ k : Nat, s.apiInitialization = some k ↔ ∃ here, s.initializations[k]? = some here ∧ here.active = true
  ready : s.api.isSome = true → s.apiInitialization = none
  taken : ∀ (k : Nat) (api : Api), s.initializations[k]? = some (.finished (.ok api)) → s.api.isSome = true

theorem single_new (injected : Option Api) : Single (new injected : KmsState Api Cause) :=
  ⟨fun k => by simp [new], fun _ => rfl, fun k api here => by simp [new] at here⟩

theorem Single.only (h : Single s) {k j : Nat} {a b : Initialization Api Cause}
    (ha : s.initializations[k]? = some a) (hb : s.initializations[j]? = some b)
    (pa : a.active = true) (pb : b.active = true) : k = j := by
  have first := (h.named k).mpr ⟨a, ha, pa⟩
  have second := (h.named j).mpr ⟨b, hb, pb⟩
  exact some.inj (first.symm.trans second)

variable {here next : Initialization Api Cause}

theorem Single.unset (h : Single s) {k : Nat}
    (found : s.initializations[k]? = some here) (active : here.active = true) : s.api = none := by
  have named := (h.named k).mpr ⟨here, found, active⟩
  cases set : s.api with
  | none => rfl
  | some api =>
    rw [h.ready (by rw [set]; rfl)] at named
    cases named

theorem active_of_step {e : InitializationEvent Api Cause}
    (h : here.step e = some next) : here.active = true := by
  cases here with
  | finished outcome => cases e <;> cases h
  | _ => rfl

theorem step_initialization {k : Nat} {e : InitializationEvent Api Cause}
    (h : s.step (.initialization k e) = some t) :
    ∃ here next, s.initializations[k]? = some here ∧ here.step e = some next ∧
      t = { s with initializations := s.initializations.set k next }.settleApi next := by
  obtain ⟨here, found, h⟩ := bind_eq_some_iff.mp h
  obtain ⟨next, moved, h⟩ := bind_eq_some_iff.mp h
  exact ⟨here, next, found, moved, (some.inj h).symm⟩

@[simp] theorem settleApi_initializations (s : KmsState Api Cause) (next : Initialization Api Cause) :
    (s.settleApi next).initializations = s.initializations := by
  unfold settleApi
  split <;> rfl

@[simp] theorem settleApi_operations (s : KmsState Api Cause) (next : Initialization Api Cause) :
    (s.settleApi next).operations = s.operations := by
  unfold settleApi
  split <;> rfl

theorem Single.step_operation (h : Single s) (hs : s.step .operation = some t) :
    (∃ api, s.api = some api ∧ t = { s with operations := s.operations ++ [.resolved api] }) ∨
      (∃ k here, s.api = none ∧ s.apiInitialization = some k ∧ s.initializations[k]? = some here ∧
        here.active = true ∧ t = { s with operations := s.operations ++ [.initialization k] }) ∨
      (s.api = none ∧ s.apiInitialization = none ∧
        t = { s with
              initializations := s.initializations ++ [.scheduled]
              apiInitialization := some s.initializations.length
              operations := s.operations ++ [.initialization s.initializations.length] }) := by
  simp only [step, resolveApi] at hs
  cases set : s.api with
  | some api =>
    simp only [set] at hs
    exact .inl ⟨api, rfl, (some.inj hs).symm⟩
  | none =>
    cases initialization : s.apiInitialization with
    | some k =>
      obtain ⟨here, found, active⟩ := (h.named k).mp initialization
      simp only [set, initialization] at hs
      exact .inr (.inl ⟨k, here, rfl, rfl, found, active, (some.inj hs).symm⟩)
    | none =>
      simp only [set, initialization] at hs
      exact .inr (.inr ⟨rfl, rfl, (some.inj hs).symm⟩)

theorem single_operation (h : Single s) (hs : s.step .operation = some t) : Single t := by
  rcases h.step_operation hs with ⟨api, set, rfl⟩ | ⟨k, here, unset, named, found, active, rfl⟩ |
    ⟨unset, idle, rfl⟩
  · exact ⟨h.named, h.ready, h.taken⟩
  · exact ⟨h.named, h.ready, h.taken⟩
  · refine ⟨fun k => ?_, fun ready => absurd ready (by simp [unset]), fun k api found => ?_⟩
    · constructor
      · intro named
        cases named
        exact ⟨.scheduled, getElem?_concat_iff.mpr (.inr ⟨rfl, rfl⟩), rfl⟩
      · rintro ⟨here, found, active⟩
        rcases getElem?_concat_iff.mp found with old | ⟨last, _⟩
        · have named := (h.named k).mpr ⟨here, old, active⟩
          cases idle.symm.trans named
        · rw [last]
    · rcases getElem?_concat_iff.mp found with old | ⟨_, new⟩
      · exact h.taken k api old
      · cases new

theorem Single.settle {k : Nat} (h : Single s)
    (found : s.initializations[k]? = some here) (was : here.active = true) :
    Single ({ s with initializations := s.initializations.set k next }.settleApi next) := by
  have named := (h.named k).mpr ⟨here, found, was⟩
  have unset := h.unset found was
  have moved := fun (j : Nat) (x : Initialization Api Cause) =>
    getElem?_set_iff (j := j) (b := next) (x := x) found
  have taken : ∀ (j : Nat) (api : Api), (s.initializations.set k next)[j]? = some (.finished (.ok api)) →
      next = .finished (.ok api) := by
    intro j api there
    rcases (moved j _).mp there with ⟨_, same⟩ | ⟨_, old⟩
    · exact same.symm
    · have set := h.taken j api old
      rw [unset] at set
      cases set
  have active : ∀ (j : Nat) (x : Initialization Api Cause), (s.initializations.set k next)[j]? = some x →
      x.active = true → j = k ∧ next.active = true := by
    intro j x there runs
    rcases (moved j x).mp there with ⟨same, rfl⟩ | ⟨differs, old⟩
    · exact ⟨same, runs⟩
    · exact absurd (h.only old found runs was) differs
  cases next with
  | finished outcome =>
    have idle : ∀ j : Nat, ¬∃ x, (s.initializations.set k (.finished outcome))[j]? = some x ∧
        x.active = true := by
      rintro j ⟨x, there, runs⟩
      cases (active j x there runs).2
    cases outcome with
    | ok api => exact ⟨fun j => ⟨nofun, fun runs => absurd runs (idle j)⟩, fun _ => rfl, fun _ _ _ => rfl⟩
    | error cause =>
      refine ⟨fun j => ⟨nofun, fun runs => absurd runs (idle j)⟩, fun _ => rfl, fun j api there => ?_⟩
      cases taken j api there
  | _ =>
    refine ⟨fun j => ⟨fun same => ?_, fun ⟨x, there, runs⟩ => ?_⟩, h.ready, fun j api there => ?_⟩
    · cases named.symm.trans same
      exact ⟨_, (moved k _).mpr (.inl ⟨rfl, rfl⟩), rfl⟩
    · rw [(active j x there runs).1]
      exact named
    · cases taken j api there

variable {e : KmsEvent Api Cause}

theorem step_single (h : Single s) (hs : s.step e = some t) : Single t := by
  cases e with
  | operation => exact single_operation h hs
  | initialization k e =>
    obtain ⟨here, next, found, moved, rfl⟩ := step_initialization hs
    exact h.settle found (active_of_step moved)

variable {es : List (KmsEvent Api Cause)}

theorem run_single (h : Single s) (reached : (kmsMachine Api Cause).run s es = some t) : Single t :=
  run_invariant (I := Single) (fun _ _ _ h hs => step_single h hs) h reached

theorem Single.count (h : Single s) : s.initializations.countP Initialization.active ≤ 1 :=
  countP_le_one_of_positions fun _ _ _ _ ha hb pa pb => h.only ha hb pa pb

theorem step_operations (h : Single s) (hs : s.step e = some t) :
    s.operations <+: t.operations := by
  cases e with
  | operation =>
    rcases h.step_operation hs with ⟨api, _, rfl⟩ | ⟨k, _, _, _, _, _, rfl⟩ | ⟨_, _, rfl⟩
    · exact prefix_append _ _
    · exact prefix_append _ _
    · exact prefix_append _ _
  | initialization k e =>
    obtain ⟨here, next, found, moved, rfl⟩ := step_initialization hs
    have same := settleApi_operations { s with initializations := s.initializations.set k next } next
    exact same.symm ▸ prefix_refl s.operations

theorem run_operations (h : Single s)
    (reached : (kmsMachine Api Cause).run s es = some t) : s.operations <+: t.operations :=
  (run_invariant (I := fun u => Single u ∧ s.operations <+: u.operations)
    (fun _ _ _ held hs =>
      ⟨step_single held.1 hs, held.2.trans (step_operations held.1 hs)⟩)
    ⟨h, prefix_refl _⟩ reached).2

theorem received_of_prefix {promise : ApiPromise Api} (h : s.operations ++ [promise] <+: t.operations) :
    t.received s.operations.length = t.outcome promise := by
  obtain ⟨rest, same⟩ := h
  unfold received
  rw [← same]
  simp

def Succeeded (s : KmsState Api Cause) : Prop :=
  s.api.isSome = true ∨ ∃ here ∈ s.initializations, here.succeeded = true

theorem ready_step (h : Single s) (set : s.api.isSome = true)
    (hs : s.step e = some t) : t.api.isSome = true ∧ e = .operation := by
  cases e with
  | operation =>
    refine ⟨?_, rfl⟩
    rcases h.step_operation hs with ⟨api, _, rfl⟩ | ⟨k, _, unset, _, _, _, rfl⟩ | ⟨unset, _, rfl⟩
    · exact set
    · rw [unset] at set; cases set
    · rw [unset] at set; cases set
  | initialization k e =>
    obtain ⟨here, next, found, moved, -⟩ := step_initialization hs
    rw [h.unset found (active_of_step moved)] at set
    cases set

theorem step_settled {api : Api} {e : InitializationEvent Api Cause}
    (h : (Initialization.settled (.ok api) : Initialization Api Cause).step e = some next) :
    e = .reaction ∧ next = .finished (.ok api) := by
  cases e with
  | reaction => exact ⟨rfl, (some.inj h).symm⟩
  | _ => cases h

theorem succeeded_step (h : Single s) (done : Succeeded s)
    (hs : s.step e = some t) : Succeeded t ∧ ∀ k, e ≠ .initialization k .createApi := by
  rcases done with set | ⟨here, mem, succeeded⟩
  · obtain ⟨set, rfl⟩ := ready_step h set hs
    exact ⟨.inl set, fun k => nofun⟩
  · obtain ⟨k, found⟩ := mem_iff_getElem?.mp mem
    cases here with
    | scheduled => cases succeeded
    | calling => cases succeeded
    | created => cases succeeded
    | finished outcome =>
      cases outcome with
      | error cause => cases succeeded
      | ok api =>
        obtain ⟨set, rfl⟩ := ready_step h (h.taken k api found) hs
        exact ⟨.inl set, fun k => nofun⟩
    | settled outcome =>
      cases outcome with
      | error cause => cases succeeded
      | ok api =>
        have named := (h.named k).mpr ⟨_, found, rfl⟩
        cases e with
        | operation =>
          refine ⟨.inr ⟨_, ?_, succeeded⟩, fun k => nofun⟩
          rcases h.step_operation hs with ⟨api', _, rfl⟩ | ⟨k', _, _, _, _, _, rfl⟩ | ⟨_, idle, rfl⟩
          · exact mem
          · exact mem
          · rw [named] at idle; cases idle
        | initialization k' e =>
          obtain ⟨here, next, found', moved, rfl⟩ := step_initialization hs
          have same := h.only found' found (active_of_step moved) rfl
          subst same
          cases found'.symm.trans found
          obtain ⟨rfl, rfl⟩ := step_settled moved
          exact ⟨.inl rfl, fun k => nofun⟩

theorem run_succeeded (h : Single s) (done : Succeeded s)
    (reached : (kmsMachine Api Cause).run s es = some t) : ∀ k, .initialization k .createApi ∉ es := by
  induction es generalizing s with
  | nil => exact fun k => not_mem_nil
  | cons e es ih =>
    obtain ⟨r, hs, reached⟩ := run_cons_some reached
    obtain ⟨done', other⟩ := succeeded_step h done hs
    intro k mem
    rcases mem_cons.mp mem with same | mem
    · exact other k same.symm
    · exact ih (step_single h hs) done' reached k mem

theorem Single.shares {k : Nat} {r : KmsState Api Cause} (h : Single s)
    (found : s.initializations[k]? = some here) (active : here.active = true)
    (hs : s.step .operation = some r) : r.initializations = s.initializations ∧
      r.operations = s.operations ++ [.initialization k] := by
  have named := (h.named k).mpr ⟨here, found, active⟩
  have unset := h.unset found active
  rcases h.step_operation hs with ⟨api, set, rfl⟩ | ⟨k', _, _, named', _, _, rfl⟩ | ⟨_, idle, rfl⟩
  · rw [unset] at set; cases set
  · cases named.symm.trans named'
    exact ⟨rfl, rfl⟩
  · rw [named] at idle; cases idle

theorem Single.retries {r : KmsState Api Cause} (h : Single s) (unset : s.api = none)
    (failed : ∀ here ∈ s.initializations, here.active = false) (hs : s.step .operation = some r) :
    r.initializations = s.initializations ++ [.scheduled] ∧
      r.operations = s.operations ++ [.initialization s.initializations.length] := by
  rcases h.step_operation hs with ⟨api, set, rfl⟩ | ⟨k, here, _, _, found, active, rfl⟩ | ⟨_, _, rfl⟩
  · rw [unset] at set; cases set
  · rw [failed here (mem_of_getElem? found)] at active
    cases active
  · exact ⟨rfl, rfl⟩

/-- Without an injected API, `#api` is what an initialization has given. -/
def Given (s : KmsState Api Cause) : Prop :=
  s.api.isSome = true → ∃ api, .finished (.ok api) ∈ s.initializations

theorem given_step (h : Single s) (given : Given s) (hs : s.step e = some t) :
    Given t := by
  intro set
  cases e with
  | operation =>
    rcases h.step_operation hs with ⟨api, _, rfl⟩ | ⟨k, _, unset, _, _, _, rfl⟩ | ⟨unset, _, rfl⟩
    · exact given set
    · exact given set
    · have set : s.api.isSome = true := set
      rw [unset] at set
      cases set
  | initialization k e =>
    obtain ⟨here, next, found, moved, rfl⟩ := step_initialization hs
    have unset := h.unset found (active_of_step moved)
    obtain ⟨bound, _⟩ := List.getElem?_eq_some_iff.mp found
    have mem : next ∈ s.initializations.set k next := mem_set bound next
    rw [settleApi_initializations]
    cases next with
    | finished outcome =>
      cases outcome with
      | ok api => exact ⟨api, mem⟩
      | error cause =>
        have set : s.api.isSome = true := set
        rw [unset] at set
        cases set
    | _ =>
      have set : s.api.isSome = true := set
      rw [unset] at set
      cases set

theorem run_given
    (reached : (kmsMachine Api Cause).run (.new none) es = some t) : Given t :=
  (run_invariant (I := fun u : KmsState Api Cause => Single u ∧ Given u)
    (fun _ _ _ held hs => ⟨step_single held.1 hs, given_step held.1 held.2 hs⟩)
    ⟨single_new none, nofun⟩ reached).2

/-- The initializations of a repository over a run: one at a time, shared by the operations that come
while it is active, not kept when it fails, and the last one when it succeeds. -/
structure SingleFlight (injected : Option Api) (es : List (KmsEvent Api Cause))
    (t : KmsState Api Cause) : Prop where
  one : t.initializations.countP Initialization.active ≤ 1
  shared : ∀ (before after : List (KmsEvent Api Cause)) (s r : KmsState Api Cause) (k : Nat)
    (here : Initialization Api Cause), es = before ++ .operation :: after →
    (kmsMachine Api Cause).run (.new injected) before = some s → s.step .operation = some r →
    s.initializations[k]? = some here → here.active = true →
      r.initializations = s.initializations ∧ t.received s.operations.length = t.outcome (.initialization k)
  retried : injected = none → ∀ (before after : List (KmsEvent Api Cause)) (s r : KmsState Api Cause),
    es = before ++ .operation :: after →
    (kmsMachine Api Cause).run (.new injected) before = some s → s.step .operation = some r →
    (∀ here ∈ s.initializations, ∃ cause, here = .finished (.error cause)) →
      r.initializations = s.initializations ++ [.scheduled] ∧
        (r.step (.initialization s.initializations.length .createApi)).isSome = true ∧
        t.received s.operations.length = t.outcome (.initialization s.initializations.length)
  last : ∀ (before after : List (KmsEvent Api Cause)) (s : KmsState Api Cause), es = before ++ after →
    (kmsMachine Api Cause).run (.new injected) before = some s →
    (injected.isSome = true ∨ ∃ here ∈ s.initializations, here.succeeded = true) →
      ∀ k, .initialization k .createApi ∉ after

theorem ready_run (h : Single s) (set : s.api.isSome = true)
    (reached : (kmsMachine Api Cause).run s es = some t) : t.api.isSome = true :=
  (run_invariant (I := fun u : KmsState Api Cause => Single u ∧ u.api.isSome = true)
    (fun _ _ _ held hs => ⟨step_single held.1 hs, (ready_step held.1 held.2 hs).1⟩) ⟨h, set⟩ reached).2

theorem initialization_single_flight {injected : Option Api} {es : List (KmsEvent Api Cause)}
    (reached : (kmsMachine Api Cause).run (.new injected) es = some t) : SingleFlight injected es t := by
  have first : Single (new injected : KmsState Api Cause) := single_new injected
  have arrives : ∀ before after s r, es = before ++ .operation :: after →
      (kmsMachine Api Cause).run (.new injected) before = some s → s.step .operation = some r →
        Single s ∧ r.operations <+: t.operations := by
    intro before after s r same here hs
    subst same
    rw [LabelledMachine.run_append, here, Option.bind_some] at reached
    obtain ⟨r', hs', rest⟩ := LabelledMachine.run_cons_some reached
    cases Option.some.inj (hs.symm.trans hs')
    have single := run_single first here
    exact ⟨single, run_operations (step_single single hs) rest⟩
  refine ⟨(run_single first reached).count, ?_, ?_, ?_⟩
  · intro before after s r k here same run hs found active
    obtain ⟨single, kept⟩ := arrives before after s r same run hs
    obtain ⟨initializations, operations⟩ := single.shares found active hs
    exact ⟨initializations, received_of_prefix (operations ▸ kept)⟩
  · intro none_injected before after s r same run hs failed
    subst none_injected
    obtain ⟨single, kept⟩ := arrives before after s r same run hs
    have unset : s.api = none := by
      by_contra set
      obtain ⟨api, mem⟩ := run_given run (by simpa [Option.isSome_iff_ne_none] using set)
      obtain ⟨cause, same⟩ := failed _ mem
      cases same
    have inactive : ∀ here ∈ s.initializations, here.active = false := by
      intro here mem
      obtain ⟨cause, rfl⟩ := failed here mem
      rfl
    obtain ⟨initializations, operations⟩ := single.retries unset inactive hs
    refine ⟨initializations, ?_, received_of_prefix (operations ▸ kept)⟩
    simp [step, initializations, Initialization.step]
  · intro before after s same run done
    subst same
    rw [LabelledMachine.run_append, run, Option.bind_some] at reached
    refine run_succeeded (run_single first run) (done.imp_left fun set => ?_) reached
    exact ready_run first set run

/-- The first `createApi` throws while two operations wait for it, and the third operation retries. -/
def retriedRun : List (KmsEvent Nat Unit) :=
  [.operation, .operation, .initialization 0 .createApi, .initialization 0 (.throws ()),
    .initialization 0 .reaction, .operation, .initialization 1 .createApi, .initialization 1 .returns,
    .initialization 1 (.settles (.ok 7)), .initialization 1 .reaction, .operation]

theorem retried_run_single_flight : ∃ t, (kmsMachine Nat Unit).run (.new none) retriedRun = some t ∧
    SingleFlight none retriedRun t ∧ t.received 1 = some (.error ()) ∧ t.received 2 = some (.ok 7) ∧
      t.received 3 = some (.ok 7) := by
  have run : (kmsMachine Nat Unit).run (.new none) retriedRun = some _ := rfl
  exact ⟨_, run, initialization_single_flight run, rfl, rfl, rfl⟩

end KmsState

end ForgeDeno
