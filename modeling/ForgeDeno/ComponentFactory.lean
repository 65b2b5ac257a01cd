import ForgeDeno.BundleIntegrity
import ForgeDeno.JsonText
import ForgeDeno.LabelledMachine
import ForgeDeno.SharedWork
import ForgeDeno.WasmContracts

namespace ForgeDeno

open Option

def Thrown.isCompatibility (cause : Thrown) : Bool := (cause.runtime?.map WasmRuntimeError.cls) = some .compatibility

/-- What an export of the generated root is: absent, another falsy value, or a value with its two members. -/
inductive OperationsExport where
  | nullish
  | falsy
  | value (manifestCallable dispatchCallable : Bool)
deriving DecidableEq

/-- What `instantiate` resolves with; `throwing` is a root of which a member that `create` reads throws. -/
inductive GeneratedRoot where
  | nullish (value : JsString)
  | throwing (cause : Thrown)
  | root (operations versioned : OperationsExport)
deriving DecidableEq

inductive CreatePhase where
  | importing
  | instantiating
  | rejected (cause : Thrown)
  | opened
  | closed
deriving DecidableEq

/-- A call of `create`, and the instance it resolves with; `compiled` is the call that has made the map of modules
that it uses. -/
structure CreateCall where
  bundle : Nat
  phase : CreatePhase
  compiled : Option Nat
deriving DecidableEq

structure CompiledModule where
  map : Nat
  bundle : Nat
  name : JsString
  bytes : List UInt8
deriving DecidableEq

/-- A factory with what it has had executed. Bundles are told apart as objects, maps of modules by the call that
made them. -/
structure GeneratedComponentFactory where
  glueCache : SharedWork Nat (Except Thrown Unit)
  moduleCache : List (Nat × Nat)
  modules : SharedWork (Nat × JsString) (Except Thrown Unit)
  calls : List CreateCall
  /-- the object URLs that have not been revoked, by the bundle whose glue is behind them -/
  urls : List Nat
  imported : List (Nat × List UInt8)
  compiled : List CompiledModule
  /-- the operations of components that were run, by the call that made the component -/
  operated : List Nat

/-- What becomes of `import(url)`; `instantiates` says whether the module has an `instantiate` function. -/
inductive ImportOutcome where
  | threw (cause : Thrown)
  | module (instantiates : Bool)
deriving DecidableEq

inductive FactoryEvent where
  | creates (bundle : Nat)
  | imports (bundle : Nat) (outcome : ImportOutcome)
  | continues (call : Nat)
  /-- the glue asks `getCoreModule` for a module -/
  | requests (call : Nat) (name : JsString)
  | compiles (map : Nat) (name : JsString) (outcome : Except Thrown Unit)
  | instantiates (call : Nat) (outcome : Except Thrown GeneratedRoot)
  | manifests (call : Nat)
  | dispatches (call : Nat) (state : AbiExecutionStateV1)
  | closes (call : Nat)

/-- The end of `importGlue`. -/
def importGlue : ImportOutcome → Except Thrown Unit
  | .module true => .ok ()
  | .module false =>
    .error (wasmCompatibilityError (js "the verified glue does not export a jco async instantiate function"))
  | .threw cause =>
    if cause.isCompatibility then .error cause
    else .error (.caused (wasmInvocationError (js "the verified component glue could not be imported")) cause)

def unmanifested (name : JsString) : Thrown :=
  wasmCompatibilityError (js "the generated glue requested unmanifested core module " ++ JsonText.quote name)

/-- `root.operations ?? root["pointerbyte:goforge/operations@0.1.0"]` -/
def GeneratedRoot.operations? : GeneratedRoot → Except Thrown OperationsExport
  | .nullish value => .error (.typeError (js "Cannot read properties of " ++ value ++ js " (reading 'operations')"))
  | .throwing cause => .error cause
  | .root .nullish versioned => .ok versioned
  | .root operations _ => .ok operations

/-- What `create` makes of the end of `instantiate`. -/
def instantiated : Except Thrown GeneratedRoot → CreatePhase
  | .error cause =>
    if cause.isCompatibility then .rejected cause
    else .rejected (.caused (wasmInvocationError (js "generated component instantiation failed")) cause)
  | .ok root =>
    match root.operations? with
    | .error cause => .rejected cause
    | .ok (.value true true) => .opened
    | .ok _ => .rejected (wasmCompatibilityError
        (js "the generated component does not export pointerbyte:goforge/operations@0.1.0"))

/-- `BigInt(Math.trunc(state.nowUnixMilliseconds))` -/
def toGeneratedState (state : AbiExecutionStateV1) : Option Int :=
  match state.nowUnixMilliseconds with
  | .finite value => some (if 0 ≤ value.toRat then ⌊value.toRat⌋ else ⌈value.toRat⌉)
  | _ => none

namespace GeneratedComponentFactory

section steps

variable (cacheCompiledModules : Bool) (bundles : Nat → VerifiedWasmBundle)

def create (factory : GeneratedComponentFactory) (bundle : Nat) : GeneratedComponentFactory :=
  let calls := factory.calls ++ [⟨bundle, .importing, none⟩]
  if bundle ∈ factory.glueCache.started then { factory with calls }
  else
    { factory with
      calls
      glueCache := factory.glueCache.ask bundle
      urls := factory.urls ++ [bundle]
      imported := factory.imported ++ [(bundle, (bundles bundle).glueBytes)] }

def settleImport (factory : GeneratedComponentFactory) (bundle : Nat) (outcome : ImportOutcome) :
    Option GeneratedComponentFactory :=
  (factory.glueCache.finish bundle (importGlue outcome)).map fun glueCache =>
    { factory with glueCache, urls := factory.urls.erase bundle }

/-- The cache of maps once a call has gone on for a bundle. -/
def cacheModules (factory : GeneratedComponentFactory) (bundle c : Nat) : List (Nat × Nat) :=
  if factory.moduleCache.lookup bundle = none ∧ cacheCompiledModules then factory.moduleCache ++ [(bundle, c)]
  else factory.moduleCache

/-- What `create` does once the glue is there, up to the call of `instantiate`. -/
def proceed (factory : GeneratedComponentFactory) (c : Nat) : Option GeneratedComponentFactory := do
  let call ← factory.calls[c]?
  if call.phase ≠ .importing then none
  else
    match ← factory.glueCache.answer call.bundle with
    | .error cause => return { factory with calls := factory.calls.set c { call with phase := .rejected cause } }
    | .ok () =>
      let compiled := (factory.moduleCache.lookup call.bundle).getD c
      return { factory with
        moduleCache := factory.cacheModules cacheCompiledModules call.bundle c
        calls := factory.calls.set c { call with phase := .instantiating, compiled := some compiled } }

def getCoreModule (factory : GeneratedComponentFactory) (c : Nat) (name : JsString) :
    Option GeneratedComponentFactory := do
  let call ← factory.calls[c]?
  let map ← call.compiled
  if (map, name) ∈ factory.modules.started then return factory
  else
    match (bundles call.bundle).coreModuleBytes.lookup name with
    | none => return factory
    | some bytes =>
      return { factory with
        modules := factory.modules.ask (map, name)
        compiled := factory.compiled ++ [⟨map, call.bundle, name, bytes⟩] }

/-- The promise that `getCoreModule` hands out: one that is rejected at once, or that of a compilation. -/
def coreModule (factory : GeneratedComponentFactory) (c : Nat) (name : JsString) :
    Option (Except Thrown (Option (Except Thrown Unit))) := do
  let call ← factory.calls[c]?
  let map ← call.compiled
  if (map, name) ∈ factory.modules.started then return .ok (factory.modules.answer (map, name))
  else return .error (unmanifested name)

def settleInstantiate (factory : GeneratedComponentFactory) (c : Nat) (outcome : Except Thrown GeneratedRoot) :
    Option GeneratedComponentFactory := do
  let call ← factory.calls[c]?
  if call.phase ≠ .instantiating then none
  else return { factory with calls := factory.calls.set c { call with phase := instantiated outcome } }

/-- A method of an instance, with whether it gets to the operation of the component. -/
def operate (factory : GeneratedComponentFactory) (c : Nat) (reaches : Bool) : Option GeneratedComponentFactory := do
  let call ← factory.calls[c]?
  match call.phase with
  | .opened => return if reaches then { factory with operated := factory.operated ++ [c] } else factory
  | .closed => return factory
  | _ => none

def close (factory : GeneratedComponentFactory) (c : Nat) : Option GeneratedComponentFactory := do
  let call ← factory.calls[c]?
  match call.phase with
  | .opened | .closed => return { factory with calls := factory.calls.set c { call with phase := .closed } }
  | _ => none

def step (factory : GeneratedComponentFactory) : FactoryEvent → Option GeneratedComponentFactory
  | .creates bundle => some (factory.create bundles bundle)
  | .imports bundle outcome => factory.settleImport bundle outcome
  | .continues call => factory.proceed cacheCompiledModules call
  | .requests call name => factory.getCoreModule bundles call name
  | .compiles map name outcome =>
    (factory.modules.finish (map, name) outcome).map fun modules => { factory with modules }
  | .instantiates call outcome => factory.settleInstantiate call outcome
  | .manifests call => factory.operate call true
  | .dispatches call state => factory.operate call (toGeneratedState state).isSome
  | .closes call => factory.close call

def fresh : GeneratedComponentFactory := ⟨.idle, [], .idle, [], [], [], [], []⟩

def machine : LabelledMachine GeneratedComponentFactory FactoryEvent where
  start := fun factory => factory = fresh
  step := step cacheCompiledModules bundles

end steps

section moves

variable {caching : Bool} {bundles : Nat → VerifiedWasmBundle}

variable (caching) in
/-- How a call goes on, and the cache of maps with it. -/
inductive Goes (s : GeneratedComponentFactory) (c : Nat) (call : CreateCall) :
    FactoryEvent → List (Nat × Nat) → CreateCall → Prop
  | fails (cause : Thrown) (phase : call.phase = .importing)
    (answer : s.glueCache.answer call.bundle = some (.error cause)) :
    Goes s c call (.continues c) s.moduleCache { call with phase := .rejected cause }
  | maps (phase : call.phase = .importing) (answer : s.glueCache.answer call.bundle = some (.ok ())) :
    Goes s c call (.continues c) (s.cacheModules caching call.bundle c)
      { call with phase := .instantiating, compiled := some ((s.moduleCache.lookup call.bundle).getD c) }
  | instantiates (outcome : Except Thrown GeneratedRoot) (phase : call.phase = .instantiating) :
    Goes s c call (.instantiates c outcome) s.moduleCache { call with phase := instantiated outcome }
  | closes (phase : call.phase = .opened ∨ call.phase = .closed) :
    Goes s c call (.closes c) s.moduleCache { call with phase := .closed }

variable (caching bundles) in
/-- What a step does, with what it needs. -/
inductive Moves (s : GeneratedComponentFactory) : FactoryEvent → GeneratedComponentFactory → Prop
  | joins (bundle : Nat) (known : bundle ∈ s.glueCache.started) :
    Moves s (.creates bundle) { s with calls := s.calls ++ [⟨bundle, .importing, none⟩] }
  | starts (bundle : Nat) (new : bundle ∉ s.glueCache.started) :
    Moves s (.creates bundle)
      { s with
        calls := s.calls ++ [⟨bundle, .importing, none⟩]
        glueCache := s.glueCache.ask bundle
        urls := s.urls ++ [bundle]
        imported := s.imported ++ [(bundle, (bundles bundle).glueBytes)] }
  | imported (bundle : Nat) (outcome : ImportOutcome) (glueCache : SharedWork Nat (Except Thrown Unit))
    (finished : s.glueCache.finish bundle (importGlue outcome) = some glueCache) :
    Moves s (.imports bundle outcome) { s with glueCache, urls := s.urls.erase bundle }
  | goes (c : Nat) (event : FactoryEvent) (call changed : CreateCall) (moduleCache : List (Nat × Nat))
    (here : s.calls[c]? = some call) (goes : Goes caching s c call event moduleCache changed) :
    Moves s event { s with moduleCache, calls := s.calls.set c changed }
  | idles (event : FactoryEvent) : Moves s event s
  | compiles (c map : Nat) (name : JsString) (call : CreateCall) (bytes : List UInt8) (here : s.calls[c]? = some call)
    (compiled : call.compiled = some map) (new : (map, name) ∉ s.modules.started)
    (manifested : (bundles call.bundle).coreModuleBytes.lookup name = some bytes) :
    Moves s (.requests c name)
      { s with
        modules := s.modules.ask (map, name)
        compiled := s.compiled ++ [⟨map, call.bundle, name, bytes⟩] }
  | compiled (map : Nat) (name : JsString) (outcome : Except Thrown Unit)
    (modules : SharedWork (Nat × JsString) (Except Thrown Unit))
    (finished : s.modules.finish (map, name) outcome = some modules) :
    Moves s (.compiles map name outcome) { s with modules }
  | operates (c : Nat) (event : FactoryEvent) (call : CreateCall) (here : s.calls[c]? = some call)
    (phase : call.phase = .opened) :
    Moves s event { s with operated := s.operated ++ [c] }

variable {s t : GeneratedComponentFactory} {event : FactoryEvent}

theorem moves_of_operate {c : Nat} {reaches : Bool} (stepped : s.operate c reaches = some t) :
    Moves caching bundles s event t := by
  obtain ⟨call, here, rest⟩ := bind_eq_some_iff.mp stepped
  cases phase : call.phase with
  | opened =>
    rw [phase] at rest
    cases reaches with
    | true =>
      cases rest
      exact .operates c event call here phase
    | false =>
      cases rest
      exact .idles event
  | closed =>
    rw [phase] at rest
    cases rest
    exact .idles event
  | importing | instantiating | rejected =>
    rw [phase] at rest
    cases rest

theorem moves_of_proceed {c : Nat} (stepped : s.proceed caching c = some t) :
    Moves caching bundles s (.continues c) t := by
  obtain ⟨call, here, rest⟩ := bind_eq_some_iff.mp stepped
  split at rest
  · cases rest
  next importing =>
    have phase := Decidable.of_not_not importing
    obtain ⟨result, answer, rest⟩ := bind_eq_some_iff.mp rest
    cases result with
    | error cause =>
      cases rest
      exact .goes c _ call _ _ here (.fails cause phase answer)
    | ok =>
      cases rest
      exact .goes c _ call _ _ here (.maps phase answer)

theorem moves_of_getCoreModule {c : Nat} {name : JsString} (stepped : s.getCoreModule bundles c name = some t) :
    Moves caching bundles s (.requests c name) t := by
  obtain ⟨call, here, rest⟩ := bind_eq_some_iff.mp stepped
  obtain ⟨map, compiled, rest⟩ := bind_eq_some_iff.mp rest
  split at rest
  · cases rest
    exact .idles _
  next new =>
    cases manifested : (bundles call.bundle).coreModuleBytes.lookup name with
    | none =>
      rw [manifested] at rest
      cases rest
      exact .idles _
    | some bytes =>
      rw [manifested] at rest
      cases rest
      exact .compiles c map name call bytes here compiled new manifested

theorem moves_of_step (stepped : s.step caching bundles event = some t) : Moves caching bundles s event t := by
  cases event with
  | creates bundle =>
    cases stepped
    unfold create
    by_cases known : bundle ∈ s.glueCache.started
    · rw [if_pos known]
      exact .joins bundle known
    · rw [if_neg known]
      exact .starts bundle known
  | imports bundle outcome =>
    obtain ⟨glueCache, finished, rfl⟩ := map_eq_some_iff.mp stepped
    exact .imported bundle outcome glueCache finished
  | continues c => exact moves_of_proceed stepped
  | requests c name => exact moves_of_getCoreModule stepped
  | compiles map name outcome =>
    obtain ⟨modules, finished, rfl⟩ := map_eq_some_iff.mp stepped
    exact .compiled map name outcome modules finished
  | instantiates c outcome =>
    obtain ⟨call, here, rest⟩ := bind_eq_some_iff.mp stepped
    split at rest
    · cases rest
    next phase =>
      cases rest
      exact .goes c _ call _ _ here (.instantiates outcome (Decidable.of_not_not phase))
  | manifests c => exact moves_of_operate stepped
  | dispatches c state => exact moves_of_operate stepped
  | closes c =>
    obtain ⟨call, here, rest⟩ := bind_eq_some_iff.mp stepped
    cases phase : call.phase with
    | opened | closed =>
      rw [phase] at rest
      cases rest
      exact .goes c _ call _ _ here (.closes (by simp [phase]))
    | importing | instantiating | rejected =>
      rw [phase] at rest
      cases rest

end moves

end GeneratedComponentFactory

end ForgeDeno
