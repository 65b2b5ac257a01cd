import ForgeDeno.ComponentFactory
import ForgeDeno.ListRules

namespace ForgeDeno

open ListRules List SharedWork

namespace GeneratedComponentFactory

variable {caching : Bool} {bundles : Nat → VerifiedWasmBundle} {s t : GeneratedComponentFactory}
  {event : FactoryEvent}

section calls

variable {c : Nat} {call changed : CreateCall} {moduleCache : List (Nat × Nat)}

theorem instantiated_ne_importing (outcome : Except Thrown GeneratedRoot) :
    ForgeDeno.instantiated outcome ≠ .importing := by
  unfold ForgeDeno.instantiated
  split
  · split <;> simp
  · split <;> simp

/-- What is true of a call in its phase, next to the end of the import of its glue. -/
structure Stands (glueCache : SharedWork Nat (Except Thrown Unit)) (call : CreateCall) : Prop where
  begins : call.phase = .importing → call.compiled = none
  goes_on : ∀ map, call.compiled = some map → glueCache.answer call.bundle = some (.ok ())
  stops : call.compiled = none → call.phase = .importing ∨
    ∃ cause, call.phase = .rejected cause ∧ glueCache.answer call.bundle = some (.error cause)

theorem stands_of_answers {glueCache later : SharedWork Nat (Except Thrown Unit)} (stands : Stands glueCache call)
    (kept : ∀ bundle result, glueCache.answer bundle = some result → later.answer bundle = some result) :
    Stands later call := by
  refine ⟨stands.begins, fun map given => kept _ _ (stands.goes_on map given), fun none => ?_⟩
  rcases stands.stops none with phase | ⟨cause, phase, answer⟩
  · exact .inl phase
  · exact .inr ⟨cause, phase, kept _ _ answer⟩

theorem stands_goes (was : Stands s.glueCache call) (goes : Goes caching s c call event moduleCache changed) :
    Stands s.glueCache changed := by
  cases goes with
  | fails cause phase answer =>
    have none := was.begins phase
    exact ⟨fun again => (by cases again), fun map given => (by cases none.symm.trans given),
      fun _ => .inr ⟨cause, rfl, answer⟩⟩
  | maps phase answer =>
    exact ⟨fun again => (by cases again), fun _ _ => answer, fun none => (by cases none)⟩
  | instantiates outcome phase =>
    refine ⟨fun again => absurd again (instantiated_ne_importing outcome), was.goes_on, fun none => ?_⟩
    simpa [phase] using was.stops none
  | closes phase =>
    refine ⟨fun again => (by cases again), was.goes_on, fun none => ?_⟩
    rcases was.stops none with begins | ⟨cause, rejected, _⟩
    · simp [begins] at phase
    · simp [rejected] at phase

theorem stands_step (moves : Moves caching bundles s event t) (stands : ∀ call ∈ s.calls, Stands s.glueCache call) :
    ∀ call ∈ t.calls, Stands t.glueCache call := by
  have newcomer : ∀ glueCache bundle, Stands glueCache ⟨bundle, .importing, none⟩ := fun glueCache bundle =>
    ⟨fun _ => rfl, nofun, fun _ => .inl rfl⟩
  intro call mem
  cases moves with
  | joins bundle known =>
    rcases mem_append.mp mem with old | new
    · exact stands call old
    · cases mem_singleton.mp new
      exact newcomer _ bundle
  | starts bundle new =>
    rcases mem_append.mp mem with old | new
    · exact stands_of_answers (stands call old) fun _ _ answer => answer_ask.trans answer
    · cases mem_singleton.mp new
      exact newcomer _ bundle
  | imported bundle outcome glueCache finished =>
    exact stands_of_answers (stands call mem) fun _ _ answer => answer_finish_of_some finished answer
  | goes c event entered changed moduleCache here goes =>
    rcases mem_or_eq_of_mem_set mem with old | rfl
    · exact stands call old
    · exact stands_goes (s := s) (stands entered (mem_of_getElem? here)) goes
  | _ => exact stands call mem

theorem bundle_goes (goes : Goes caching s c call event moduleCache changed) : changed.bundle = call.bundle := by
  cases goes <;> rfl

theorem call_stays (moves : Moves caching bundles s event t) (here : s.calls[c]? = some call) :
    ∃ call', t.calls[c]? = some call' ∧ call'.bundle = call.bundle := by
  cases moves with
  | joins bundle known => exact ⟨call, getElem?_concat_iff.mpr (.inl here), rfl⟩
  | starts bundle new => exact ⟨call, getElem?_concat_iff.mpr (.inl here), rfl⟩
  | goes i event entered changed moduleCache there goes =>
    by_cases own : c = i
    · cases own
      cases there.symm.trans here
      exact ⟨changed, (getElem?_set_iff here).mpr (.inl ⟨rfl, rfl⟩), bundle_goes goes⟩
    · exact ⟨call, (getElem?_set_iff there).mpr (.inr ⟨own, here⟩), rfl⟩
  | _ => exact ⟨call, here, rfl⟩

/-- A call of a later state is new, is one of before, or comes from one of before that has gone on. -/
theorem call_comes (moves : Moves caching bundles s event t) (here : t.calls[c]? = some call) :
    s.calls[c]? = some call ∨ call.phase = .importing ∧ call.compiled = none ∨
      ∃ entered, s.calls[c]? = some entered ∧ Goes caching s c entered event t.moduleCache call := by
  cases moves with
  | joins bundle known =>
    rcases getElem?_concat_iff.mp here with old | ⟨_, rfl⟩
    · exact .inl old
    · exact .inr (.inl ⟨rfl, rfl⟩)
  | starts bundle new =>
    rcases getElem?_concat_iff.mp here with old | ⟨_, rfl⟩
    · exact .inl old
    · exact .inr (.inl ⟨rfl, rfl⟩)
  | goes i event entered changed moduleCache there goes =>
    rcases (getElem?_set_iff there).mp here with ⟨rfl, rfl⟩ | ⟨_, old⟩
    · exact .inr (.inr ⟨entered, there, goes⟩)
    · exact .inl old
  | _ => exact .inl here

end calls

section imports

variable (bundles) in
/-- The glue of a bundle has been imported when `create` was first called for it, from the bytes of the bundle, and its
object URL stands as long as the import runs. -/
structure Imports (s : GeneratedComponentFactory) : Prop where
  log : s.imported = s.glueCache.started.map fun bundle => (bundle, (bundles bundle).glueBytes)
  asked : ∀ bundle, bundle ∈ s.glueCache.started ↔ ∃ call ∈ s.calls, call.bundle = bundle
  urls_nodup : s.urls.Nodup
  urls : ∀ bundle, bundle ∈ s.urls ↔ s.glueCache.Running bundle

theorem imports_fresh : Imports bundles fresh := by
  refine ⟨rfl, fun bundle => ?_, .nil, fun bundle => ?_⟩
  · simp [fresh, idle]
  · simp [fresh, idle, SharedWork.Running]

theorem asked_set {started : List Nat} {c : Nat} {call changed : CreateCall} (here : s.calls[c]? = some call)
    (same : changed.bundle = call.bundle)
    (asked : ∀ bundle, bundle ∈ started ↔ ∃ call ∈ s.calls, call.bundle = bundle) (bundle : Nat) :
    bundle ∈ started ↔ ∃ call ∈ s.calls.set c changed, call.bundle = bundle := by
  have kept : (s.calls.set c changed).map CreateCall.bundle = s.calls.map CreateCall.bundle := by
    obtain ⟨bound, at_c⟩ := List.getElem?_eq_some_iff.mp here
    have bound' : c < (s.calls.map CreateCall.bundle).length := by
      rw [length_map]
      exact bound
    have entry : (s.calls.map CreateCall.bundle)[c] = changed.bundle := by
      rw [getElem_map, at_c, same]
    rw [map_set, ← entry, set_getElem_self]
  rw [asked bundle, ← mem_map, ← mem_map, kept]

theorem imports_step (moves : Moves caching bundles s event t) (imports : Imports bundles s) : Imports bundles t := by
  cases moves with
  | joins bundle known =>
    refine ⟨imports.log, fun other => ?_, imports.urls_nodup, imports.urls⟩
    rw [imports.asked other]
    have known := (imports.asked bundle).mp known
    simp only [mem_append, mem_singleton, or_and_right, exists_or, exists_eq_left]
    refine ⟨.inl, fun either => either.elim id ?_⟩
    rintro rfl
    exact known
  | starts bundle new =>
    refine ⟨?_, fun other => ?_, ?_, fun other => ?_⟩
    · rw [started_ask_of_notMem new, map_append, imports.log]
      rfl
    · rw [mem_started_ask, imports.asked other]
      simp only [mem_append, mem_singleton, or_and_right, exists_or, exists_eq_left]
      rw [eq_comm (a := bundle)]
    · have unread : bundle ∉ s.urls := fun mem => new ((imports.urls bundle).mp mem).1
      exact nodup_append.mpr ⟨imports.urls_nodup, nodup_singleton bundle, fun url mem url' mem' same => by
        cases mem_singleton.mp mem'
        exact unread (same ▸ mem)⟩
    · have unanswered : s.glueCache.answer bundle = none := by
        by_contra some_answer
        obtain ⟨given, answer⟩ := Option.ne_none_iff_exists'.mp some_answer
        exact new (mem_started_of_answer answer)
      rw [mem_append, imports.urls other, mem_singleton]
      unfold SharedWork.Running
      rw [mem_started_ask, answer_ask]
      refine ⟨fun either => ?_, fun runs => ?_⟩
      · rcases either with runs | rfl
        · exact ⟨.inl runs.1, runs.2⟩
        · exact ⟨.inr rfl, unanswered⟩
      · exact runs.1.imp (fun mem => ⟨mem, runs.2⟩) id
  | imported bundle outcome glueCache finished =>
    refine ⟨?_, fun other => ?_, imports.urls_nodup.erase bundle, fun other => ?_⟩
    · rw [started_finish finished]
      exact imports.log
    · rw [started_finish finished]
      exact imports.asked other
    · rw [imports.urls_nodup.mem_erase_iff, imports.urls other]
      unfold SharedWork.Running
      rw [started_finish finished, answer_finish finished]
      by_cases same : other = bundle
      · simp [same]
      · simp [same]
  | goes c event call changed moduleCache here goes =>
    exact ⟨imports.log, asked_set here (bundle_goes goes) imports.asked, imports.urls_nodup, imports.urls⟩
  | _ => exact ⟨imports.log, imports.asked, imports.urls_nodup, imports.urls⟩

end imports

section maps

/-- The map of modules that a call uses is that of the bundle, or its own where nothing is cached. -/
def Owned (caching : Bool) (s : GeneratedComponentFactory) (bundle map : Nat) : Prop :=
  (∃ owner, s.calls[map]? = some owner ∧ owner.bundle = bundle) ∧
    (caching = true → s.moduleCache.lookup bundle = some map)

variable (caching bundles) in
structure Maps (s : GeneratedComponentFactory) : Prop where
  cached : ∀ bundle map, s.moduleCache.lookup bundle = some map → Owned caching s bundle map
  uncached : caching = false → s.moduleCache = []
  owned : ∀ (c : Nat) (call : CreateCall) (map : Nat), s.calls[c]? = some call → call.compiled = some map →
    Owned caching s call.bundle map ∧ (caching = false → map = c)
  log : s.compiled.map (fun module => (module.map, module.name)) = s.modules.started
  manifested : ∀ module ∈ s.compiled, (bundles module.bundle).coreModuleBytes.lookup module.name = some module.bytes ∧
    Owned caching s module.bundle module.map

theorem maps_fresh : Maps caching bundles fresh := by
  refine ⟨fun bundle map found => ?_, fun _ => rfl, fun c call map here => ?_, rfl, fun module mem => ?_⟩
  · cases found
  · cases here
  · cases mem

theorem lookup_cacheModules {c bundle map : Nat} (found : s.moduleCache.lookup bundle = some map) (asked : Nat) :
    (s.cacheModules caching asked c).lookup bundle = some map := by
  unfold cacheModules
  split
  · rw [lookup_append, found, Option.some_or]
  · exact found

/-- A cache that has been added to has the map of the call that did it. -/
theorem lookup_cacheModules_self {c bundle : Nat} (on : caching = true) :
    (s.cacheModules caching bundle c).lookup bundle = some ((s.moduleCache.lookup bundle).getD c) := by
  cases found : s.moduleCache.lookup bundle with
  | some map => exact lookup_cacheModules found bundle
  | none =>
    unfold cacheModules
    rw [if_pos ⟨found, on⟩, lookup_append, found, Option.none_or, lookup_cons_self, Option.getD_none]

theorem lookup_stays (moves : Moves caching bundles s event t) {bundle map : Nat}
    (found : s.moduleCache.lookup bundle = some map) : t.moduleCache.lookup bundle = some map := by
  cases moves with
  | goes c event call changed moduleCache here goes =>
    cases goes with
    | maps phase answer => exact lookup_cacheModules found call.bundle
    | _ => exact found
  | _ => exact found

theorem owned_step (moves : Moves caching bundles s event t) {bundle map : Nat}
    (owned : Owned caching s bundle map) : Owned caching t bundle map := by
  obtain ⟨⟨owner, here, same⟩, found⟩ := owned
  obtain ⟨owner', there, later⟩ := call_stays moves here
  exact ⟨⟨owner', there, later.trans same⟩, fun on => lookup_stays moves (found on)⟩

theorem owned_calls (moves : Moves caching bundles s event t) (maps : Maps caching bundles s) (c : Nat)
    (call : CreateCall) (map : Nat) (here : t.calls[c]? = some call) (compiled : call.compiled = some map) :
    Owned caching t call.bundle map ∧ (caching = false → map = c) := by
  have before : ∀ entered : CreateCall, s.calls[c]? = some entered → entered.bundle = call.bundle →
      entered.compiled = some map → Owned caching t call.bundle map ∧ (caching = false → map = c) := by
    intro entered there bundle given
    obtain ⟨owned, own⟩ := maps.owned c entered map there given
    rw [bundle] at owned
    exact ⟨owned_step moves owned, own⟩
  rcases call_comes moves here with old | ⟨_, none⟩ | ⟨entered, there, goes⟩
  · exact before call old rfl compiled
  · cases none.symm.trans compiled
  · generalize cache : t.moduleCache = moduleCache at goes
    cases goes with
    | maps phase answer =>
      cases compiled
      refine ⟨?_, fun off => ?_⟩
      · cases existing : s.moduleCache.lookup entered.bundle with
        | some map => exact owned_step moves (maps.cached _ _ existing)
        | none =>
          rw [existing] at here
          refine ⟨⟨_, here, rfl⟩, fun on => ?_⟩
          rw [cache, lookup_cacheModules_self on, existing]
      · rw [maps.uncached off]
        rfl
    | _ => exact before entered there rfl compiled

theorem maps_step (moves : Moves caching bundles s event t) (maps : Maps caching bundles s) :
    Maps caching bundles t := by
  have owned := owned_calls moves maps
  have manifested : ∀ module ∈ s.compiled,
      (bundles module.bundle).coreModuleBytes.lookup module.name = some module.bytes ∧
        Owned caching t module.bundle module.map := fun module mem =>
    ⟨(maps.manifested module mem).1, owned_step moves (maps.manifested module mem).2⟩
  have cached : ∀ bundle map, s.moduleCache.lookup bundle = some map → Owned caching t bundle map :=
    fun bundle map found => owned_step moves (maps.cached bundle map found)
  cases moves with
  | goes c event call changed moduleCache here goes =>
    cases goes with
    | maps phase answer =>
      refine ⟨fun bundle map found => ?_, fun off => ?_, owned, maps.log, manifested⟩
      · unfold cacheModules at found
        split at found
        next new =>
          rw [lookup_append] at found
          rcases Option.or_eq_some_iff.mp found with old | ⟨_, own⟩
          · exact cached bundle map old
          · rw [lookup_singleton] at own
            split at own
            next same =>
              cases own
              cases beq_iff_eq.mp same
              refine (owned c _ c ((getElem?_set_iff here).mpr (.inl ⟨rfl, rfl⟩)) ?_).1
              rw [new.1]
              rfl
            next => cases own
        next => exact cached bundle map found
      · unfold cacheModules
        rw [if_neg (by simp [off])]
        exact maps.uncached off
    | _ => exact ⟨cached, maps.uncached, owned, maps.log, manifested⟩
  | compiles c map name call bytes here compiled new found =>
    refine ⟨cached, maps.uncached, owned, ?_, fun module mem => ?_⟩
    · rw [started_ask_of_notMem new, map_append, maps.log]
      rfl
    · rcases mem_append.mp mem with old | last
      · exact manifested module old
      · cases mem_singleton.mp last
        exact ⟨found, (owned c call map here compiled).1⟩
  | compiled map name outcome modules finished =>
    refine ⟨cached, maps.uncached, owned, ?_, manifested⟩
    rw [started_finish finished]
    exact maps.log
  | _ => exact ⟨cached, maps.uncached, owned, maps.log, manifested⟩

end maps

variable (caching bundles) in
structure Sound (s : GeneratedComponentFactory) : Prop where
  stands : ∀ call ∈ s.calls, Stands s.glueCache call
  imports : Imports bundles s
  maps : Maps caching bundles s

theorem sound_step (sound : Sound caching bundles s)
    (moves : Moves caching bundles s event t) : Sound caching bundles t :=
  ⟨stands_step moves sound.stands, imports_step moves sound.imports, maps_step moves sound.maps⟩

theorem sound_of_reachable (reached : (machine caching bundles).Reachable s) :
    Sound caching bundles s := by
  refine reached.invariant ?_ ?_
  · rintro _ rfl
    exact ⟨nofun, imports_fresh, maps_fresh⟩
  · intro r event r' sound stepped
    exact sound_step sound (moves_of_step stepped)

section sample

def emptyArtifact (path : JsString) : WasmArtifactDescriptor :=
  ⟨path, js "e3b0c44298fc1c149afbf4c8996fb92427ae41e4649b934ca495991b7852b855"⟩

def emptyBundle : VerifiedWasmBundle where
  manifest :=
    { schema := [], abi := [], componentVersion := [], witPackage := [], source := emptyArtifact (js "source.wasm")
      glue := emptyArtifact (js "glue.js"), coreModules := [(js "core.wasm", emptyArtifact (js "core.wasm"))]
      capabilities := [], operations := [] }
  manifestBytes := []
  sourceBytes := []
  glueBytes := []
  coreModuleBytes := [(js "core.wasm", [])]

/-- Two calls of `create` for one bundle, the first of which gets no root, while the second opens and closes. -/
def twoCalls : List FactoryEvent :=
  [.creates 0, .creates 0, .imports 0 (.module true), .continues 1, .continues 0, .requests 0 (js "core.wasm"),
    .requests 1 (js "core.wasm"), .instantiates 0 (.ok (.nullish (js "undefined"))),
    .instantiates 1 (.ok (.root (.value true true) .nullish)), .manifests 1, .closes 1]

def afterTwoCalls : GeneratedComponentFactory :=
  ((machine true fun _ => emptyBundle).run fresh twoCalls).getD fresh

theorem twoCalls_run : (machine true fun _ => emptyBundle).run fresh twoCalls = some afterTwoCalls := rfl

theorem afterTwoCalls_reachable : (machine true fun _ => emptyBundle).Reachable afterTwoCalls :=
  ⟨fresh, twoCalls, rfl, twoCalls_run⟩

end sample

section results

theorem filter_pairs {κ ρ : Type} [DecidableEq κ] {keys : List κ} (f : κ → ρ) (once : keys.Nodup) (key : κ) :
    (keys.map fun key => (key, f key)).filter (fun entry => entry.1 = key) =
      if key ∈ keys then [(key, f key)] else [] := by
  induction keys with
  | nil => rfl
  | cons first rest ih =>
    obtain ⟨new, once⟩ := nodup_cons.mp once
    rw [map_cons, filter_cons, ih once]
    by_cases same : first = key
    · rw [← same]
      simp [new]
    · simp [same, Ne.symm same]

variable (bundles) in
/-- The glue of a bundle is imported once for all instances, and the calls of `create` share the end of that import,
also where it has failed. -/
structure ImportedOnce (s : GeneratedComponentFactory) : Prop where
  imports : ∀ bundle, s.imported.filter (fun entry => entry.1 = bundle) =
    if ∃ call ∈ s.calls, call.bundle = bundle then [(bundle, (bundles bundle).glueBytes)] else []
  urls : ∀ bundle, bundle ∈ s.urls ↔
    (∃ call ∈ s.calls, call.bundle = bundle) ∧ s.glueCache.answer bundle = none
  shared : ∀ call ∈ s.calls, ∀ other ∈ s.calls, call.bundle = other.bundle → call.phase ≠ .importing →
    call.compiled = none → other.compiled = none ∧ (other.phase = .importing ∨ other.phase = call.phase)

theorem glue_imported_once (caching : Bool) (bundles : Nat → VerifiedWasmBundle) (s : GeneratedComponentFactory)
    (reached : (machine caching bundles).Reachable s) : ImportedOnce bundles s := by
  have sound := sound_of_reachable reached
  refine ⟨fun bundle => ?_, fun bundle => ?_, fun call here other there same goes_on unmapped => ?_⟩
  · have kept := filter_pairs (fun bundle => (bundles bundle).glueBytes) s.glueCache.once bundle
    rw [sound.imports.log, kept]
    simp only [sound.imports.asked bundle]
  · rw [sound.imports.urls bundle, ← sound.imports.asked bundle]
    rfl
  · have stops := (sound.stands call here).stops unmapped
    obtain ⟨cause, rejected, answer⟩ := stops.resolve_left goes_on
    have failed : ∀ map, other.compiled ≠ some map := fun map compiled => by
      have fine := (sound.stands other there).goes_on map compiled
      rw [← same, answer] at fine
      cases fine
    have unmapped' := Option.eq_none_iff_forall_ne_some.mpr failed
    refine ⟨unmapped', ?_⟩
    rcases (sound.stands other there).stops unmapped' with begins | ⟨cause', rejected', answer'⟩
    · exact .inl begins
    · rw [← same, answer] at answer'
      cases answer'
      exact .inr (rejected'.trans rejected.symm)

theorem twoCalls_imported_once : ImportedOnce (fun _ => emptyBundle) afterTwoCalls :=
  glue_imported_once true (fun _ => emptyBundle) afterTwoCalls afterTwoCalls_reachable

variable (caching bundles) in
/-- A core module is compiled once for a bundle, or once for an instance where nothing is cached, from the bytes that
the bundle has for it, and every instance of the bundle is handed the same promise. -/
structure CompiledOnce (s : GeneratedComponentFactory) : Prop where
  once : (s.compiled.map fun module => (if caching then module.bundle else module.map, module.name)).Nodup
  bytes : ∀ module ∈ s.compiled, (bundles module.bundle).coreModuleBytes.lookup module.name = some module.bytes
  shared : ∀ (c d : Nat) (call other : CreateCall), s.calls[c]? = some call → s.calls[d]? = some other →
    call.bundle = other.bundle → call.compiled.isSome → other.compiled.isSome → caching = true →
    ∀ name, s.coreModule c name = s.coreModule d name
  own : ∀ (c : Nat) (call : CreateCall), s.calls[c]? = some call → call.compiled.isSome → caching = false →
    call.compiled = some c

theorem modules_compiled_once (caching : Bool) (bundles : Nat → VerifiedWasmBundle) (s : GeneratedComponentFactory)
    (reached : (machine caching bundles).Reachable s) : CompiledOnce caching bundles s := by
  have sound := sound_of_reachable reached
  refine ⟨?_, fun module mem => (sound.maps.manifested module mem).1,
    fun c d call other here there same given given' on name => ?_, fun c call here given off => ?_⟩
  · have distinct := sound.maps.log ▸ s.modules.once
    cases caching with
    | false => exact distinct
    | true =>
      -- the bundle of a module tells its map
      refine pairwise_map.mpr ((pairwise_map.mp distinct).imp_of_mem fun {a b} mem mem' differ same => ?_)
      obtain ⟨bundle, name⟩ := Prod.mk.inj same
      have map := (sound.maps.manifested a mem).2.2 rfl
      have map' := (sound.maps.manifested b mem').2.2 rfl
      have bundle : a.bundle = b.bundle := bundle
      rw [bundle, map'] at map
      exact differ (Prod.ext (Option.some.inj map.symm) name)
  · obtain ⟨map, compiled⟩ := Option.isSome_iff_exists.mp given
    obtain ⟨map', compiled'⟩ := Option.isSome_iff_exists.mp given'
    have found := (sound.maps.owned c call map here compiled).1.2 on
    rw [same, (sound.maps.owned d other map' there compiled').1.2 on] at found
    unfold coreModule
    rw [here, there]
    simp only [Option.bind_eq_bind, Option.bind_some, compiled, compiled', Option.some.inj found]
  · obtain ⟨map, compiled⟩ := Option.isSome_iff_exists.mp given
    rw [compiled, (sound.maps.owned c call map here compiled).2 off]

theorem twoCalls_compiled_once : CompiledOnce true (fun _ => emptyBundle) afterTwoCalls :=
  modules_compiled_once true (fun _ => emptyBundle) afterTwoCalls afterTwoCalls_reachable

/-- The code of a bundle is that which its manifest declares. -/
structure Matches (platform : BundlePlatform) (bundle : VerifiedWasmBundle) : Prop where
  glue : sha256Hex platform bundle.glueBytes = bundle.manifest.glue.sha256
  coreModules : List.Forall₂
    (fun entry declared => entry.1 = declared.1 ∧ sha256Hex platform entry.2 = declared.2.sha256)
    bundle.coreModuleBytes bundle.manifest.coreModules

theorem genuine_matches {platform : BundlePlatform} {locator : WasmBundleLocator} {compatibility : WasmCompatibility}
    {bundle : VerifiedWasmBundle} (genuine : bundle.Genuine platform locator compatibility) :
    Matches platform bundle :=
  ⟨genuine.glue, genuine.coreModules⟩

theorem declared_of_lookup {platform : BundlePlatform} {entries : List (JsString × List UInt8)}
    {declared : List (JsString × WasmArtifactDescriptor)} {name : JsString} {bytes : List UInt8}
    (agree : List.Forall₂ (fun entry declared => entry.1 = declared.1 ∧ sha256Hex platform entry.2 = declared.2.sha256)
      entries declared)
    (found : entries.lookup name = some bytes) :
    ∃ descriptor, declared.lookup name = some descriptor ∧ sha256Hex platform bytes = descriptor.sha256 := by
  induction agree with
  | nil => cases found
  | @cons entry declared entries rest here agree ih =>
    rw [lookup_cons] at found ⊢
    rw [← here.1]
    split at found
    · cases found
      exact ⟨declared.2, rfl, here.2⟩
    · exact ih found

/-- Only code with the digests of the manifest is run: what is imported is the glue of a bundle, and what is compiled
is the core module of that name. -/
structure Declared (platform : BundlePlatform) (bundles : Nat → VerifiedWasmBundle) (s : GeneratedComponentFactory) :
    Prop where
  glue : ∀ entry ∈ s.imported, sha256Hex platform entry.2 = (bundles entry.1).manifest.glue.sha256
  coreModules : ∀ module ∈ s.compiled, ∃ descriptor,
    (bundles module.bundle).manifest.coreModules.lookup module.name = some descriptor ∧
    sha256Hex platform module.bytes = descriptor.sha256

theorem run_code_is_declared (platform : BundlePlatform) (caching : Bool) (bundles : Nat → VerifiedWasmBundle)
    (verified : ∀ bundle, Matches platform (bundles bundle)) (s : GeneratedComponentFactory)
    (reached : (machine caching bundles).Reachable s) : Declared platform bundles s := by
  have sound := sound_of_reachable reached
  refine ⟨fun entry mem => ?_, fun module mem => ?_⟩
  · rw [sound.imports.log] at mem
    obtain ⟨bundle, _, rfl⟩ := mem_map.mp mem
    exact (verified bundle).glue
  · exact declared_of_lookup (verified module.bundle).coreModules (sound.maps.manifested module mem).1

theorem twoCalls_code_is_declared : Declared samplePlatform (fun _ => emptyBundle) afterTwoCalls :=
  run_code_is_declared samplePlatform true (fun _ => emptyBundle)
    (fun _ => ⟨by decide +kernel, .cons ⟨rfl, by decide +kernel⟩ .nil⟩) afterTwoCalls afterTwoCalls_reachable

end results

end GeneratedComponentFactory

end ForgeDeno
