import ForgeDeno.RuntimeAttempts
import ForgeDeno.RuntimeInstances

namespace ForgeDeno

namespace InstancePool

open ExceptRules List

variable {P : Nat → Prop} {signals : Signals} {p q : InstancePool}

/-- Every `acquire()` of the pool was one of the given callers. -/
structure AskedBy (P : Nat → Prop) (p : InstancePool) : Prop where
  waiters : ∀ w ∈ p.waiters, P w.signal
  log : ∀ record ∈ p.log, P record.waiter.signal

theorem AskedBy.flow (h : p.AskedBy P) (step : PoolFlow signals p q) : q.AskedBy P := by
  cases step with
  | drop w cause mem =>
    refine ⟨fun v hv => h.waiters v (mem_of_mem_erase hv), fun record hr => ?_⟩
    rcases mem_cons.mp hr with rfl | old
    · exact h.waiters w mem
    · exact h.log record old
  | grant w rest e alive head =>
    have mem : w ∈ p.waiters := by
      rw [head]
      exact mem_cons_self
    refine ⟨fun v hv => h.waiters v ?_, fun record hr => ?_⟩
    · rw [head]
      exact mem_cons_of_mem w hv
    · rcases mem_cons.mp hr with rfl | old
      · exact h.waiters w mem
      · exact h.log record old
  | close =>
    refine ⟨nofun, fun record hr => ?_⟩
    rcases mem_append.mp hr with dropped | old
    · obtain ⟨w, hw, rfl⟩ := mem_map.mp (mem_reverse.mp dropped)
      exact h.waiters w hw
    · exact h.log record old
  | create | arrive | arriveLate | fail | settle | finalize | finish =>
    exact ⟨h.waiters, h.log⟩

theorem AskedBy.flows (h : p.AskedBy P) (steps : PoolFlows signals p q) : q.AskedBy P :=
  steps.invariant (fun _ _ served step => served.flow step) h

theorem AskedBy.acquire (h : p.AskedBy P) {signal : Nat} (caller : P signal) :
    (p.acquire signals signal).AskedBy P := by
  rcases @acquire_cases signals p signal with ⟨cause, eq⟩ | ⟨_, _, eq⟩
  · rw [eq]
    refine ⟨h.waiters, fun record hr => ?_⟩
    rcases mem_cons.mp hr with rfl | old
    · exact caller
    · exact h.log record old
  · rw [eq]
    refine AskedBy.flows ⟨fun w hw => ?_, fun record hr => ?_⟩ pump_flows
    · rcases mem_append.mp hw with old | new
      · exact h.waiters w old
      · cases mem_singleton.mp new
        exact caller
    · rcases mem_cons.mp hr with rfl | old
      · exact caller
      · exact h.log record old

theorem AskedBy.release (h : p.AskedBy P) (ticket : Nat) (discard : Bool) :
    (p.release signals ticket discard).AskedBy P := by
  unfold InstancePool.release
  split
  · exact h
  · simp only [releaseEntry]
    split_ifs
    · exact ⟨h.waiters, h.log⟩
    · next l _ _ _ =>
      have kept : ((p.returnLease l).setBusy l.entry false).AskedBy P := ⟨h.waiters, h.log⟩
      exact kept.flows pump_flows
    · exact ⟨h.waiters, h.log⟩

theorem AskedBy.mono (h : p.AskedBy P) {Q : Nat → Prop} (more : ∀ c, P c → Q c) : p.AskedBy Q :=
  ⟨fun w hw => more _ (h.waiters w hw), fun record hr => more _ (h.log record hr)⟩

end InstancePool

namespace NativeAdapterRegistry

theorem apply_ledger (r : NativeAdapterRegistry) (op : AdapterOp) {id : Nat}
    (recorded : id ∈ r.qualificationLedger) : id ∈ (r.apply op).qualificationLedger := by
  cases op with
  | recordParityQualification other =>
    simp only [apply, recordParityQualification]
    split
    · exact List.mem_cons_of_mem other recorded
    · exact recorded
  | register other =>
    simp only [apply]
    cases done : r.register other with
    | error => exact recorded
    | ok after =>
      unfold register at done
      obtain ⟨_, done⟩ := ExceptRules.check_ok.mp done
      obtain ⟨_, _, done⟩ := ExceptRules.bind_ok.mp done
      obtain ⟨_, done⟩ := ExceptRules.check_ok.mp done
      cases ExceptRules.pure_ok.mp done
      exact recorded
  | unregister name =>
    simp only [apply]
    cases done : r.unregister name with
    | error => exact recorded
    | ok after =>
      unfold unregister at done
      obtain ⟨_, done⟩ := ExceptRules.check_ok.mp done
      cases ExceptRules.pure_ok.mp done
      exact recorded
  | mutate | close => exact recorded
  | clear =>
    simp only [apply]
    split_ifs <;> exact recorded

end NativeAdapterRegistry

def Call.Approves (name : JsString) (request : AbiRequestV1) (call : Call) : Prop :=
  call.options.route = .native name ∧
    ∃ plan, call.plan = some plan ∧ plan.request = request ∧ name ∈ plan.nativeAdapters

theorem Call.Follows.approves {call after : Call} (follows : call.Follows after) {name : JsString}
    {request : AbiRequestV1} (h : call.Approves name request) : after.Approves name request := by
  obtain ⟨native, plan, planned, same, listed⟩ := h
  refine ⟨?_, plan, follows.plan plan planned, same, listed⟩
  rw [follows.same.options]
  exact native

namespace GoforgeWasmRuntime

variable {e : RuntimeEvent} {r t : GoforgeWasmRuntime} {c : Nat} {seams : Seams}

def CallsComponent (r : GoforgeWasmRuntime) (c : Nat) : Prop :=
  ∃ call : Call, r.calls[c]? = some call ∧ call.options.route = .component

/-- Every adapter object selected was approved for its call and is in the ledger, and only calls for
the component have asked for an instance. -/
structure RoutedRight (r : GoforgeWasmRuntime) : Prop where
  executions : ∀ (x : Nat) (execution : Execution), r.executions[x]? = some execution →
    execution.adapter ∈ r.adapters.qualificationLedger ∧
      ∃ (call : Call) (name : JsString), r.calls[execution.call]? = some call ∧
        call.Approves name execution.request
  asked : ∀ pool, r.pool = some pool → pool.AskedBy r.CallsComponent

theorem move_ledger (move : RuntimeMove e r t) {id : Nat}
    (recorded : id ∈ r.adapters.qualificationLedger) : id ∈ t.adapters.qualificationLedger := by
  cases move with
  | call c seams event move =>
    rw [(callMove_frame move).2.2.2]
    exact recorded
  | giveUp c call outcome =>
    rw [(finish_frame c call outcome).2.2.2.1]
    exact recorded
  | interrupt c call reason =>
    have same : (r.abortCall c reason).adapters = r.adapters := by
      unfold abortCall
      split
      · split_ifs <;> rfl
      · rfl
    rw [same]
    exact recorded
  | adapters op => exact NativeAdapterRegistry.apply_ledger r.adapters op recorded
  | _ => exact recorded

theorem move_callsComponent (h : r.Traced) (move : RuntimeMove e r t) (c : Nat)
    (component : r.CallsComponent c) : t.CallsComponent c := by
  obtain ⟨call, here, route⟩ := component
  obtain ⟨after, later, follows⟩ := move_follows h move here
  exact ⟨after, later, by rw [follows.same.options]; exact route⟩

theorem move_asked (h : r.RoutedRight) (traced : r.Traced) (move : RuntimeMove e r t)
    {pool : InstancePool} (some_pool : t.pool = some pool) : pool.AskedBy t.CallsComponent := by
  have later {p : InstancePool} (asked : p.AskedBy r.CallsComponent) : p.AskedBy t.CallsComponent :=
    asked.mono (move_callsComponent traced move)
  have kept (same : t.pool = r.pool) : pool.AskedBy t.CallsComponent :=
    later (h.asked pool (same ▸ some_pool))
  cases move with
  | call c seams event move =>
    cases move with
    | acquire call plan p requestJson state here phase component planned before =>
      cases some_pool
      exact InstancePool.AskedBy.acquire (later (h.asked p before))
        (move_callsComponent traced (.call c seams event
          (.acquire call plan p requestJson state here phase component planned before ‹_› ‹_›)) c
          ⟨call, here, component⟩)
    | undispatch call request p lease reason here phase before =>
      cases some_pool
      exact later ((h.asked p before).release lease.ticket true)
    | threw call request p lease fault here phase before =>
      cases some_pool
      exact later ((h.asked p before).release lease.ticket true)
    | finish call outcome => exact kept (finish_pool c call outcome)
    | _ => exact kept rfl
  | giveUp c call outcome => exact kept (finish_pool c call outcome)
  | poolReady =>
    cases some_pool
    exact ⟨nofun, nofun⟩
  | settleDispatch d dispatch p outcome event there before =>
    cases some_pool
    exact later ((h.asked p before).release _ _)
  | environment step p system flow before stepped same =>
    cases some_pool
    exact later ((h.asked p before).flows (poolStep_flows flow stepped))
  | interrupt c call reason =>
    have chain : ∃ p signals, r.pool = some p ∧ PoolFlows signals p pool := by
      unfold abortCall at some_pool
      split at some_pool
      · split_ifs at some_pool
        · exact ⟨pool, r.signals, some_pool, .refl⟩
        · obtain ⟨p, before, rfl⟩ := Option.map_eq_some_iff.mp some_pool
          exact ⟨p, _, before, InstancePool.abort_flows c (.wasm reason)⟩
      · exact ⟨pool, r.signals, some_pool, .refl⟩
    obtain ⟨p, signals, before, flows⟩ := chain
    exact later ((h.asked p before).flows flows)
  | turn =>
    obtain ⟨p, before, rfl⟩ := Option.map_eq_some_iff.mp some_pool
    exact ⟨(later (h.asked p before)).waiters, (later (h.asked p before)).log⟩
  | _ => exact kept rfl

theorem routedRight_move (h : r.RoutedRight) (traced : r.Traced) (move : RuntimeMove e r t) : t.RoutedRight := by
  refine ⟨fun x execution there => ?_, fun pool some_pool => move_asked h traced move some_pool⟩
  rcases move_executions move there with ⟨before, old, eq⟩ |
      ⟨c, seams, call, plan, name, adapter, _, here, native, planned, resolved, _, _, _, eq⟩
  · obtain ⟨recorded, call, name, here, approves⟩ := h.executions x before old
    obtain ⟨after, later, follows⟩ := move_follows traced move here
    rw [eq]
    exact ⟨move_ledger move recorded, after, name, later, follows.approves approves⟩
  · have routed := NativeAdapterRegistry.resolve_routed resolved
    obtain ⟨after, later, follows⟩ := move_follows traced move here
    rw [eq]
    exact ⟨move_ledger move routed.qualified, after, name, later,
      follows.approves ⟨native, plan, planned, rfl, routed.approved⟩⟩

/-- One adapter object is selected: the registry holds it under the name the call asks for, and it
lists the operation. -/
structure Selects (r : GoforgeWasmRuntime) (e : RuntimeEvent) (name : JsString)
    (execution : Execution) : Prop where
  resumes : ∃ seams, e = .resume execution.call seams
  native : ∃ call : Call, r.calls[execution.call]? = some call ∧ call.options.route = .native name
  registered : lookupMember r.adapters.adapters name = some execution.adapter
  alive : r.adapters.closed = false
  implements : ∃ operations, (r.adapters.objects execution.adapter).operations = some operations ∧
    execution.request.operation ∈ operations

def Executes (r : GoforgeWasmRuntime) (record : Nat × Execution) : Prop :=
  ∃ execution : Execution, r.executions[record.1]? = some execution ∧
    record.2 = { execution with phase := record.2.phase }

/-- A state within a step from `r`. -/
structure Within (r : GoforgeWasmRuntime) (e : RuntimeEvent) (p : GoforgeWasmRuntime) : Prop where
  traced : p.Traced
  adapters : ∀ c seams, e = .resume c seams → p.adapters = r.adapters
  calls : ∀ (k : Nat) (call : Call), r.calls[k]? = some call →
    ∃ after : Call, p.calls[k]? = some after ∧ call.Follows after

theorem resume_adapters (move : RuntimeMove (.resume c seams) r t) : t.adapters = r.adapters := by
  cases move with
  | call k others event move => exact (callMove_frame move).2.2.2
  | giveUp k call outcome => exact (finish_frame k call outcome).2.2.2.1
  | interrupt k call reason =>
    unfold abortCall
    split
    · split_ifs <;> rfl
    · rfl
  | adapters op awake => exact absurd rfl (awake c seams)
  | clearAdapters awake => exact absurd rfl (awake c seams)
  | _ => rfl

theorem Call.Follows.trans {call after later : Call} (first : call.Follows after)
    (second : after.Follows later) : call.Follows later := by
  obtain ⟨⟨kind, operation, payload, options, requestId, deadline⟩, plan⟩ := first
  obtain ⟨⟨kind', operation', payload', options', requestId', deadline'⟩, plan'⟩ := second
  exact ⟨⟨kind'.trans kind, operation'.trans operation, payload'.trans payload,
    options'.trans options, requestId'.trans requestId, deadline'.trans deadline⟩,
    fun made planned => plan' made (plan made planned)⟩

theorem within_move {p q : GoforgeWasmRuntime} (h : r.Within e p) (move : RuntimeMove e p q) : r.Within e q := by
  refine ⟨traced_move h.traced move, fun c seams event => ?_, fun k call here => ?_⟩
  · subst event
    exact (resume_adapters move).trans (h.adapters c seams rfl)
  · obtain ⟨after, later, follows⟩ := h.calls k call here
    obtain ⟨next, last, follows'⟩ := move_follows h.traced move later
    exact ⟨next, last, Call.Follows.trans follows follows'⟩

theorem executes_step (traced : r.Traced) (stepped : r.step e = some t) {record : Nat × Execution}
    (made : t.Executes record) : r.Executes record ∨ ∃ name, r.Selects e name record.2 := by
  have resumed (c : Nat) (seams : Seams) (event : e = .resume c seams) :
      ∃ call : Call, r.calls[c]? = some call := by
    subst event
    obtain ⟨_, performed, _⟩ := Option.map_eq_some_iff.mp stepped
    obtain ⟨call, here, _⟩ := Option.bind_eq_some_iff.mp performed
    exact ⟨call, here⟩
  have keep (p q : GoforgeWasmRuntime)
      (h : r.Within e p ∧ (p.Executes record → r.Executes record ∨ ∃ name, r.Selects e name record.2))
      (move : RuntimeMove e p q) :
      r.Within e q ∧ (q.Executes record → r.Executes record ∨ ∃ name, r.Selects e name record.2) := by
    obtain ⟨within, known⟩ := h
    refine ⟨within_move within move, fun ⟨execution, there, same⟩ => ?_⟩
    rcases move_executions move there with ⟨before, old, eq⟩ |
        ⟨c, seams, call, plan, name, adapter, event, here, native, planned, resolved, _, _, _, eq⟩
    · exact known ⟨before, old, by rw [same, eq]⟩
    · have routed := NativeAdapterRegistry.resolve_routed resolved
      rw [within.adapters c seams event] at routed
      obtain ⟨first, at_c⟩ := resumed c seams event
      obtain ⟨after, later, follows⟩ := within.calls c first at_c
      cases here.symm.trans later
      have route : first.options.route = .native name := by
        rw [← follows.same.options]
        exact native
      rw [same, eq]
      exact .inr ⟨name, ⟨seams, event⟩, ⟨first, at_c, route⟩, routed.registered, routed.alive,
        routed.implements⟩
  have start : r.Within e r ∧ (r.Executes record → r.Executes record ∨ ∃ name, r.Selects e name record.2) :=
    ⟨⟨traced, fun _ _ _ => rfl, fun k call here => ⟨call, here, .refl call⟩⟩, .inl⟩
  exact ((step_moves stepped).invariant keep start).2 made

end GoforgeWasmRuntime

theorem runtime_routedRight {r : GoforgeWasmRuntime} (h : runtimeMachine.Reachable r) : r.RoutedRight := by
  have both : r.RoutedRight ∧ r.Traced := by
    refine h.invariant (I := fun r => r.RoutedRight ∧ r.Traced) ?_ ?_
    · rintro r ⟨options, constructed⟩
      have fresh := GoforgeWasmRuntime.new_fresh constructed
      refine ⟨⟨fun x execution there => ?_, fun pool some_pool => ?_⟩, GoforgeWasmRuntime.traced_fresh fresh⟩
      · simp [fresh.executions] at there
      · simp [fresh.pool] at some_pool
    · rintro r e t ⟨routed, traced⟩ stepped
      have keep (p q : GoforgeWasmRuntime) (h : p.RoutedRight ∧ p.Traced) (move : RuntimeMove e p q) :
          q.RoutedRight ∧ q.Traced :=
        ⟨GoforgeWasmRuntime.routedRight_move h.1 h.2 move, GoforgeWasmRuntime.traced_move h.2 move⟩
      exact (GoforgeWasmRuntime.step_moves stepped).invariant keep ⟨routed, traced⟩
  exact both.1

theorem run_follows {r t : GoforgeWasmRuntime} {es : List RuntimeEvent}
    (h : runtimeMachine.Reachable r) (reached : runtimeMachine.run r es = some t) {k : Nat}
    {call : Call} (here : r.calls[k]? = some call) :
    ∃ after : Call, t.calls[k]? = some after ∧ call.Follows after := by
  have step (s : GoforgeWasmRuntime) (e : RuntimeEvent) (u : GoforgeWasmRuntime)
      (hs : s.Traced ∧ ∃ after : Call, s.calls[k]? = some after ∧ call.Follows after)
      (stepped : runtimeMachine.step s e = some u) :
      u.Traced ∧ ∃ after : Call, u.calls[k]? = some after ∧ call.Follows after := by
    obtain ⟨traced, after, at_k, follows⟩ := hs
    have start : s.Within e s :=
      ⟨traced, fun _ _ _ => rfl, fun k call here => ⟨call, here, .refl call⟩⟩
    have within := (GoforgeWasmRuntime.step_moves stepped).invariant
      (fun _ _ => GoforgeWasmRuntime.within_move) start
    obtain ⟨next, later, follows'⟩ := within.calls k after at_k
    exact ⟨within.traced, next, later, GoforgeWasmRuntime.Call.Follows.trans follows follows'⟩
  exact (LabelledMachine.run_invariant step ⟨runtime_traced h, call, here, .refl call⟩ reached).2

namespace GoforgeWasmRuntime

structure ReachedBy (r : GoforgeWasmRuntime) (name : JsString) (execution : Execution) : Prop where
  native : ∃ call : Call, r.calls[execution.call]? = some call ∧ call.options.route = .native name ∧
    execution.request.operation = call.operation ∧
    ∃ manifest, r.load = .loaded manifest ∧ manifest.Allows call.operation name
  qualified : execution.adapter ∈ r.adapters.qualificationLedger

structure ComponentOnly (r : GoforgeWasmRuntime) : Prop where
  asked : ∀ pool, r.pool = some pool → ∀ record ∈ pool.log, r.CallsComponent record.waiter.signal
  dispatched : ∀ (d : Nat) (dispatch : Dispatch), r.dispatches[d]? = some dispatch →
    r.CallsComponent dispatch.call

end GoforgeWasmRuntime

/-- In every run an adapter object is reached only by a call for the name under which the registry
held the object when the call selected it. -/
theorem native_routing_explicit {options : GoforgeWasmRuntimeOptions} {r t : GoforgeWasmRuntime}
    {es : List RuntimeEvent} (constructed : GoforgeWasmRuntime.new options = .ok r)
    (reached : runtimeMachine.run r es = some t) :
    (∀ (x : Nat) (execution : Execution), t.executions[x]? = some execution →
      ∃ name, t.ReachedBy name execution ∧ ∃ pre e post u, es = pre ++ e :: post ∧
        runtimeMachine.run r pre = some u ∧ u.Selects e name execution) ∧ t.ComponentOnly := by
  have start : runtimeMachine.Reachable r := .start ⟨options, constructed⟩
  have reachable : runtimeMachine.Reachable t := start.run reached
  have traced := runtime_traced reachable
  have routed := runtime_routedRight reachable
  refine ⟨fun x execution there => ?_, fun pool some_pool record mem => ?_, fun d dispatch there => ?_⟩
  · obtain ⟨recorded, call, name, here, native, plan, planned, same, listed⟩ :=
      routed.executions x execution there
    obtain ⟨_, _, manifest, known, from_manifest⟩ := (traced.calls _ call here).planned plan planned
    have asks := (planCall_asks from_manifest).1
    have none_yet : ¬r.Executes (x, execution) := by
      rintro ⟨other, at_x, _⟩
      simp [(GoforgeWasmRuntime.new_fresh constructed).executions] at at_x
    obtain ⟨pre, e, post, u, split, before, _, other, selects⟩ :=
      LabelledMachine.run_origin (m := runtimeMachine) (I := GoforgeWasmRuntime.Traced)
        (R := GoforgeWasmRuntime.Executes) (W := fun s e record => ∃ name, s.Selects e name record.2)
        (fun _ _ _ traced stepped => GoforgeWasmRuntime.traced_step traced stepped)
        (fun _ _ _ _ traced stepped made => GoforgeWasmRuntime.executes_step traced stepped made)
        (runtime_traced start) none_yet reached ⟨execution, there, rfl⟩
    have rest : runtimeMachine.run u (e :: post) = some t := by
      rw [split, LabelledMachine.run_append, before] at reached
      exact reached
    obtain ⟨first, at_u, route⟩ := selects.native
    obtain ⟨after, later, follows⟩ := run_follows (start.run before) rest at_u
    cases here.symm.trans later
    have same_name : other = name := by
      rw [follows.same.options, route] at native
      exact WasmExecutionTarget.native.inj native
    subst same_name
    refine ⟨other, ⟨⟨call, here, native, ?_, manifest, known, planCall_allows from_manifest listed⟩,
      recorded⟩, pre, e, post, u, split, before, selects⟩
    rw [← same]
    exact asks.operation
  · exact (routed.asked pool some_pool).log record mem
  · obtain ⟨call, here, _, component, _⟩ := traced.dispatches d dispatch there
    exact ⟨call, here, component⟩

/-- A runtime whose registry holds one qualified adapter, by the name of `fast`. -/
def fastAdapterOptions : GoforgeWasmRuntimeOptions :=
  { GoforgeWasmRuntimeOptions.defaults (fun _ => 0) with
    adapters := {
      objects := fun _ => ⟨js "fast", some [js "crypto.sha256"], .bool true, true⟩
      qualificationLedger := [0]
      adapters := [(js "fast", 0)]
      closed := false } }

def fastManifest : WasmBundleManifestV1 :=
  { WasmBundleManifestV1.offering (js "crypto.sha256") false with
    operations := [(js "crypto.sha256", ⟨js "crypto.sha256", false, false, some [js "fast"]⟩)] }

def selectedRun : List RuntimeEvent :=
  [.invoke (js "crypto.sha256") .null
      { WasmCallOptions.empty with target := some (.native (js "fast")) } .calm,
    .loadThen (.ok fastManifest) .calm, .deliver 0, .resume 0 .calm]

theorem selected_adapter_was_routed : ∃ r t, GoforgeWasmRuntime.new fastAdapterOptions = .ok r ∧
      runtimeMachine.run r selectedRun = some t ∧ ∃ execution : Execution, t.executions[0]? = some execution ∧
        ∃ name, t.ReachedBy name execution ∧ ∃ pre e post u, selectedRun = pre ++ e :: post ∧
          runtimeMachine.run r pre = some u ∧ u.Selects e name execution := by
  have shows : fastAdapterOptions.shows selectedRun (fun t => t.executions.length = 1) = true := by
    decide +kernel
  obtain ⟨r, t, constructed, reached, shown⟩ := run_of_shows shows
  have one : t.executions.length = 1 := by simpa using shown
  obtain ⟨execution, there⟩ : ∃ execution : Execution, t.executions[0]? = some execution :=
    ⟨_, List.getElem?_eq_getElem (by omega)⟩
  exact ⟨r, t, constructed, reached, execution, there,
    (native_routing_explicit constructed reached).1 0 execution there⟩

/-- The adapter is unregistered between its selection and the call of its `invoke`. -/
theorem unregistered_adapter_reached :
    ∃ r t u, GoforgeWasmRuntime.new fastAdapterOptions = .ok r ∧
      runtimeMachine.run r (selectedRun ++ [.adapters (.unregister (js "fast"))]) = some t ∧
      runtimeMachine.step t (.adapterEnters 0 none) = some u ∧
      (∃ execution : Execution, t.executions[0]? = some execution ∧ execution.adapter = 0) ∧
      ∀ name, lookupMember t.adapters.adapters name ≠ some 0 := by
  have shows : fastAdapterOptions.shows (selectedRun ++ [.adapters (.unregister (js "fast"))])
      (fun t => (runtimeMachine.step t (.adapterEnters 0 none)).isSome &&
        (t.executions[0]?).any (fun execution => execution.adapter = 0) &&
        t.adapters.adapters.isEmpty) = true := by decide +kernel
  obtain ⟨r, t, constructed, reached, shown⟩ := run_of_shows shows
  simp only [Bool.and_eq_true, Option.isSome_iff_exists, Option.any_eq_true, decide_eq_true_eq,
    List.isEmpty_iff] at shown
  obtain ⟨⟨⟨u, enters⟩, execution, there, zero⟩, none_registered⟩ := shown
  refine ⟨r, t, u, constructed, reached, enters, ⟨execution, there, zero⟩, fun name => ?_⟩
  rw [none_registered]
  simp [lookupMember]

end ForgeDeno
