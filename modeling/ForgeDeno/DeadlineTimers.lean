import ForgeDeno.RuntimeAccounting
import ForgeDeno.RuntimeClock

namespace ForgeDeno

open JsNumber ExceptRules Option List

/-- How long `setTimeout(f, delay)` waits at least: the delay as a signed 32-bit integer, and a
delay that is out of their range does not wait. -/
def hostWait : JsNumber → Nat
  | .finite delay =>
    if 0 ≤ ⌊delay.toRat⌋ ∧ ⌊delay.toRat⌋ < 2 ^ 31 then ⌊delay.toRat⌋.toNat else 0
  | _ => 0

/-- At least `wait` milliseconds lie between two readings of the clock. -/
def Elapsed (start : JsNumber) (wait : Nat) : JsNumber → Prop
  | .finite reading => ∀ x, start = .finite x → x.toRat + wait ≤ reading.toRat
  | .infinity negative => start.isFinite = true → negative = false
  | .nan => True

/-- The timer for a deadline, set when the clock shows `start`, is not over before the deadline.
No reading is below `NaN`, and for a deadline that has been reached there is no timer. -/
def TimerSpans (start deadline : JsNumber) : Prop :=
  deadline = .nan ∨ deadline.le start = true ∨ ∃ x y, start = .finite x ∧ deadline = .finite y ∧
    y.toRat ≤ x.toRat + hostWait (deadline.sub start)

def deadlineFloors (options : WasmCallOptions) (defaultTimeoutMs : Option JsNumber)
    (start : JsNumber) : List JsNumber :=
  ((options.timeoutMs.or defaultTimeoutMs).map fun relative =>
    (start.add relative).floor).toList ++ (options.deadline.map JsNumber.floor).toList

/-- `Math.min` of the numbers of a list. -/
def earliest : List JsNumber → Option JsNumber
  | [] => none
  | first :: others => some (others.foldl JsNumber.min first)

theorem hostWait_lt (delay : JsNumber) : hostWait delay < 2 ^ 31 := by
  unfold hostWait
  split
  · split_ifs with inside
    · omega
    · decide
  · decide

theorem sub_whole {x y : Double} {m n : Int} (start : x.toRat = m) (deadline : y.toRat = n)
    (later : m < n) (near : n - m < 2 ^ 53) :
    ∃ z : Double, (JsNumber.finite y).sub (.finite x) = .finite z ∧ z.toRat = (n - m : Int) := by
  have opposite : Double.toRat { x with negative := !x.negative } = -(m : ℚ) := by
    rw [← start]
    unfold Double.toRat
    cases x.negative with
    | true => simp [Double.magnitude]
    | false => simp [Double.magnitude]
  have sum : y.toRat + Double.toRat { x with negative := !x.negative } = ((n - m : Int) : ℚ) := by
    rw [opposite, deadline]
    push_cast
    ring
  have small : (n - m).natAbs < 2 ^ 53 := by omega
  change ∃ z : Double, ofRat (y.toRat + Double.toRat { x with negative := !x.negative })
    (y.negative && !x.negative) = .finite z ∧ z.toRat = (n - m : Int)
  rw [sum]
  exact ofRat_intCast (m := (n - m).natAbs) (e := 0) (by omega) (by simp) small (by omega) _

theorem timerSpans_whole {x y : Double} {m n : Int} (start : x.toRat = m) (deadline : y.toRat = n) :
    TimerSpans (.finite x) (.finite y) ↔ n - m < 2 ^ 31 := by
  have reached : (finite y).le (.finite x) = true ↔ n ≤ m := by
    simp only [le, lt, eq, start, deadline, Bool.or_eq_true, decide_eq_true_eq]
    norm_cast
    omega
  constructor
  · intro spans
    rcases spans with nan | passed | ⟨x', y', same_x, same_y, bound⟩
    · cases nan
    · have := reached.mp passed
      omega
    · cases same_x
      cases same_y
      have wait := hostWait_lt ((finite y).sub (.finite x))
      rw [start, deadline] at bound
      have whole : n ≤ m + (hostWait ((finite y).sub (.finite x)) : Int) := by
        exact_mod_cast bound
      omega
  · intro near
    by_cases passed : n ≤ m
    · exact .inr (.inl (reached.mpr passed))
    · obtain ⟨z, difference, value⟩ := sub_whole start deadline (by omega) (by omega)
      refine .inr (.inr ⟨x, y, rfl, rfl, ?_⟩)
      have inside : 0 ≤ n - m ∧ n - m < 2 ^ 31 := by omega
      have wait : hostWait ((finite y).sub (.finite x)) = (n - m).toNat := by
        rw [difference]
        unfold hostWait
        simp only [value, Int.floor_intCast, inside, and_self, if_true]
      have back : (((n - m).toNat : Int) : ℚ) = (n : ℚ) - m := by
        rw [Int.toNat_of_nonneg inside.1]
        push_cast
        ring
      rw [wait, start, deadline]
      push_cast at back
      linarith

variable {x y start : JsNumber}

theorem not_lt_of_le (h : y.le x = true) : x.lt y = false := by
  cases x with
  | nan => rfl
  | infinity s =>
    cases y with
    | nan => cases s <;> rfl
    | infinity t => cases s <;> cases t <;> first | rfl | exact absurd h (by decide)
    | finite w =>
      cases s with
      | true => simp [le, lt, eq] at h
      | false => rfl
  | finite v =>
    cases y with
    | nan => rfl
    | infinity t =>
      cases t with
      | true => rfl
      | false => simp [le, lt, eq] at h
    | finite w =>
      simp only [le, lt, eq, Bool.or_eq_true, decide_eq_true_eq] at h
      exact decide_eq_false (not_lt.mpr (le_of_lt_or_eq h))

theorem le_lt_trans {z : JsNumber} (first : x.le y = true) (second : y.lt z = true) : x.lt z = true := by
  cases y with
  | nan => cases second
  | infinity s =>
    cases s with
    | true =>
      cases x with
      | infinity t => cases t <;> first | exact second | exact absurd first (by decide)
      | nan | finite v => simp [le, lt, eq] at first
    | false => cases second
  | finite w =>
    cases z with
    | nan => cases second
    | infinity t =>
      cases t with
      | true => cases second
      | false =>
        cases x with
        | infinity u =>
          cases u with
          | true => rfl
          | false => simp [le, lt, eq] at first
        | nan => simp [le, lt, eq] at first
        | finite v => rfl
    | finite u =>
      have below : w.toRat < u.toRat := of_decide_eq_true second
      cases x with
      | infinity s =>
        cases s with
        | true => rfl
        | false => simp [le, lt, eq] at first
      | nan => simp [le, lt, eq] at first
      | finite v =>
        simp only [le, lt, eq, Bool.or_eq_true, decide_eq_true_eq] at first
        exact decide_eq_true (lt_of_le_of_lt (le_of_lt_or_eq first) below)

theorem not_early {deadline reading : JsNumber} (spans : TimerSpans start deadline)
    (ahead : deadline.le start = false) (elapsed : Elapsed start (hostWait (deadline.sub start)) reading) :
    reading.lt deadline = false := by
  rcases spans with nan | passed | ⟨x, y, rfl, rfl, bound⟩
  · rw [nan]
    cases reading with
    | infinity negative => cases negative <;> rfl
    | _ => rfl
  · cases ahead.symm.trans passed
  · cases reading with
    | nan => rfl
    | infinity negative =>
      rw [elapsed rfl]
      rfl
    | finite z =>
      have late := elapsed x rfl
      exact decide_eq_false (not_lt.mpr (bound.trans late))

theorem resolveDeadline_earliest {options : WasmCallOptions} {defaultTimeoutMs : Option JsNumber}
    {deadline : Option JsNumber}
    (resolved : resolveDeadline options defaultTimeoutMs start = .ok deadline) :
    deadline = earliest (deadlineFloors options defaultTimeoutMs start) := by
  unfold resolveDeadline at resolved
  unfold deadlineFloors
  cases relative : options.timeoutMs.or defaultTimeoutMs with
  | none =>
    cases explicit : options.deadline with
    | none =>
      simp only [relative, explicit] at resolved
      cases resolved
      rfl
    | some given =>
      simp only [relative, explicit, bind_ok, pure_ok] at resolved
      obtain ⟨_, rfl, _, _, resolved⟩ := resolved
      cases resolved
      rfl
  | some timeout =>
    cases explicit : options.deadline with
    | none =>
      simp only [relative, explicit, bind_ok, pure_ok] at resolved
      obtain ⟨_, _, _, rfl, resolved⟩ := resolved
      cases resolved
      rfl
    | some given =>
      simp only [relative, explicit, bind_ok, pure_ok] at resolved
      obtain ⟨_, _, _, rfl, _, _, resolved⟩ := resolved
      cases resolved
      rfl

def Call.expired (call : Call) : Prop := call.scope.reason = some wasmDeadlineExceededError

/-- What a step leaves of the deadline of a call; `fires` tells whether its timer may go off. -/
structure Call.Ticks (fires : Prop) (call after : Call) : Prop where
  deadline : after.deadline = call.deadline
  timer : after.scope.timer = call.scope.timer
  expired : after.expired → call.expired ∨ fires

theorem Call.Ticks.refl (fires : Prop) (call : Call) : call.Ticks fires call :=
  ⟨rfl, rfl, .inl⟩

theorem Call.Ticks.trans {fires : Prop} {call later last : Call} (first : call.Ticks fires later)
    (second : later.Ticks fires last) : call.Ticks fires last := by
  refine ⟨second.deadline.trans first.deadline, second.timer.trans first.timer, fun ended => ?_⟩
  rcases second.expired ended with before | fired
  · exact first.expired before
  · exact .inr fired

structure Call.StartsAt (call : Call) (aborted : Bool) (limit : Option JsNumber) (start : JsNumber) : Prop where
  deadline : call.deadline = limit
  timer : ∀ delay, call.scope.timer = some delay → aborted = false ∧ ∃ d, limit = some d ∧
    d.le start = false ∧ delay = d.sub start
  expired : call.expired → aborted = false ∧ ∃ d, limit = some d ∧ d.le start = true

theorem Call.StartsAt.ticks {call after : Call} {aborted : Bool} {limit : Option JsNumber}
    {start : JsNumber} (starts : call.StartsAt aborted limit start)
    (ticks : call.Ticks False after) : after.StartsAt aborted limit start := by
  refine ⟨ticks.deadline.trans starts.deadline, fun delay set => ?_, fun ended => ?_⟩
  · rw [ticks.timer] at set
    exact starts.timer delay set
  · rcases ticks.expired ended with before | fired
    · exact starts.expired before
    · exact fired.elim

theorem startsAt_newCall (kind : CallKind) (operation : JsString) (payload : JsValue)
    (options : WasmCallOptions) (phase : CallPhase) (start : JsNumber) :
    (GoforgeWasmRuntime.newCall kind operation payload options phase).StartsAt true none start := by
  refine ⟨rfl, fun delay set => ?_, fun ended => ?_⟩
  · cases set
  · cases ended

theorem wasmDeadline_ne : wasmClosedError ≠ wasmDeadlineExceededError ∧
    wasmCancelledError ≠ wasmDeadlineExceededError := by
  decide

theorem createAbortScope_timer {aborted shutdown : Bool} {limit : Option JsNumber} {delay : JsNumber}
    (set : (createAbortScope aborted shutdown limit start).timer = some delay) :
    aborted = false ∧ ∃ d, limit = some d ∧ d.le start = false ∧ delay = d.sub start := by
  unfold createAbortScope at set
  split_ifs at set with callerAborted closed
  have live : aborted = false := by simpa using callerAborted
  cases limit with
  | none => cases set
  | some d =>
    simp only at set
    split_ifs at set with passed
    exact ⟨live, d, rfl, by simpa using passed, (some.inj set).symm⟩

theorem createAbortScope_expired {aborted shutdown : Bool} {limit : Option JsNumber}
    (ended : (createAbortScope aborted shutdown limit start).reason =
      some wasmDeadlineExceededError) : aborted = false ∧ ∃ d, limit = some d ∧ d.le start = true := by
  unfold createAbortScope at ended
  split_ifs at ended with callerAborted closed
  · exact absurd (some.inj ended) wasmDeadline_ne.2
  · exact absurd (some.inj ended) wasmDeadline_ne.1
  · have live : aborted = false := by simpa using callerAborted
    cases limit with
    | none => cases ended
    | some d =>
      simp only at ended
      split_ifs at ended with passed
      exact ⟨live, d, rfl, passed⟩

namespace GoforgeWasmRuntime

variable {e : RuntimeEvent} {r s t : GoforgeWasmRuntime} {c : Nat} {call after : Call}
  {seams : Seams}

structure TicksAll (fires : Nat → Prop) (r t : GoforgeWasmRuntime) : Prop where
  length : t.calls.length = r.calls.length
  ticks : ∀ (c : Nat) (call after : Call), r.calls[c]? = some call → t.calls[c]? = some after →
    call.Ticks (fires c) after

variable {fires : Nat → Prop}

theorem ticksAll_of_calls (same : t.calls = r.calls) : r.TicksAll fires t := by
  refine ⟨by rw [same], fun c call after here there => ?_⟩
  rw [same] at there
  cases here.symm.trans there
  exact .refl _ call

theorem TicksAll.trans {fires : Nat → Prop} (first : r.TicksAll fires s)
    (second : s.TicksAll fires t) : r.TicksAll fires t := by
  refine ⟨second.length.trans first.length, fun c call after here there => ?_⟩
  have bound : c < s.calls.length := by
    rw [first.length]
    exact (List.getElem?_eq_some_iff.mp here).1
  exact (first.ticks c call _ here (getElem?_eq_getElem bound)).trans
    (second.ticks c _ after (getElem?_eq_getElem bound) there)

theorem ticksAll_set (here : r.calls[c]? = some call)
    (set : t.calls = r.calls.set c after) (ticks : call.Ticks (fires c) after) : r.TicksAll fires t := by
  refine ⟨by rw [set, length_set], fun k before later at_k there => ?_⟩
  rw [set] at there
  rcases (ListRules.getElem?_set_iff here).mp there with ⟨rfl, rfl⟩ | ⟨_, old⟩
  · cases here.symm.trans at_k
    exact ticks
  · cases at_k.symm.trans old
    exact .refl _ before

theorem callMove_ticks (move : CallMove c seams r t) : r.TicksAll fires t := by
  cases move with
  | note => exact ticksAll_of_calls rfl
  | finish call outcome here => exact ticksAll_set here (finish_calls c call outcome) ⟨rfl, rfl, .inl⟩
  | reject call _ here | acquire call _ _ _ _ here | refuseLease call _ _ _ _ here
  | undispatch call _ _ _ _ here | threw call _ _ _ _ here | dispatch call _ _ _ here
  | released call _ _ _ _ here | adapted call _ _ here | select call _ _ _ here
  | begin call _ _ here | backOff call _ _ here =>
    exact ticksAll_set here rfl ⟨rfl, rfl, .inl⟩

theorem resume_ticks (h : r.resume c seams = some t) : r.TicksAll fires t := by
  have moved {s t : GoforgeWasmRuntime} (moves : CallMoves c seams s t) : s.TicksAll fires t := by
    induction moves with
    | refl => exact ticksAll_of_calls rfl
    | tail _ move ih => exact ih.trans (callMove_ticks move)
  rcases resume_cases h with ⟨call, plan, id, value, here, phase, planned, rfl⟩ | ⟨_, moves⟩
  · have ready : r.TicksAll fires { r with state := .ready, lastErrorCode := none } :=
      ticksAll_of_calls rfl
    exact ready.trans (moved (attemptSucceeded_moves here phase planned))
  · exact moved moves

theorem abortCall_ticks (c : Nat) (reason : WasmRuntimeError)
    (other : reason = wasmDeadlineExceededError → fires c) : r.TicksAll fires (r.abortCall c reason) := by
  unfold abortCall
  split
  · next call here =>
    split_ifs
    · exact ticksAll_of_calls rfl
    · refine ticksAll_set here rfl ⟨rfl, rfl, fun ended => .inr (other ?_)⟩
      exact some.inj ended
  · exact ticksAll_of_calls rfl

theorem abortAll_ticks (listens : Call → Bool) {reason : WasmRuntimeError}
    (other : reason ≠ wasmDeadlineExceededError) : r.TicksAll fires (r.abortAll listens reason) := by
  unfold abortAll
  generalize List.range r.calls.length = cs
  induction cs generalizing r with
  | nil => exact ticksAll_of_calls rfl
  | cons c cs ih =>
    simp only [foldl_cons]
    split_ifs
    · exact (abortCall_ticks c reason fun same => absurd same other).trans ih
    · exact ih

theorem abortSignal_ticks (signal : Nat) : r.TicksAll fires (r.abortSignal signal) := by
  unfold abortSignal
  split_ifs
  · exact ticksAll_of_calls rfl
  · have noted : r.TicksAll fires { r with abortedSignals := signal :: r.abortedSignals } :=
      ticksAll_of_calls rfl
    exact noted.trans (abortAll_ticks _ wasmDeadline_ne.2)

theorem deliver_ticks (h : r.deliver c = some t) : r.TicksAll fires t := by
  unfold deliver at h
  obtain ⟨call, here, h⟩ := bind_eq_some_iff.mp h
  split at h
  · split at h
    · cases h
      exact ticksAll_set here rfl ⟨rfl, rfl, .inl⟩
    · cases h
      exact ticksAll_set here rfl ⟨rfl, rfl, .inl⟩
    · cases h
  · split at h
    · cases h
      exact ticksAll_set here rfl ⟨rfl, rfl, .inl⟩
    · cases h
  · split at h
    · cases h
      exact ticksAll_set here rfl ⟨rfl, rfl, .inl⟩
    · cases h
  · cases h

theorem wake_ticks {result : Except Thrown Unit} (h : r.wake c result = some t) :
    r.TicksAll fires t := by
  unfold wake at h
  obtain ⟨call, here, h⟩ := bind_eq_some_iff.mp h
  split at h
  · cases h
    exact ticksAll_set here rfl ⟨rfl, rfl, .inl⟩
  · cases h

theorem loadThen_calls {result : Except Thrown WasmBundleManifestV1}
    (h : r.loadThen result seams = some t) : t.calls = r.calls := by
  unfold loadThen at h
  split at h
  · cases h
    rfl
  · split_ifs at h
    · cases h
      rfl
    · simp only at h
      split at h
      · cases h
        rfl
      · cases h
        rfl
  · cases h

theorem loadCatch_calls (h : r.loadCatch seams = some t) : t.calls = r.calls := by
  unfold loadCatch at h
  split at h
  · simp only at h
    split at h
    · cases h
      rfl
    · cases h
      rfl
  · cases h

theorem withPool_calls {step : PoolSystem → Option PoolSystem} (h : r.withPool step = some t) :
    t.calls = r.calls := by
  unfold withPool at h
  obtain ⟨pool, _, h⟩ := bind_eq_some_iff.mp h
  obtain ⟨system, _, h⟩ := bind_eq_some_iff.mp h
  cases h
  rfl

theorem dispatchSettles_calls {d : Nat} {outcome : Except Thrown JsString}
    (h : r.dispatchSettles d outcome = some t) : t.calls = r.calls := by
  unfold dispatchSettles at h
  obtain ⟨dispatch, _, h⟩ := bind_eq_some_iff.mp h
  obtain ⟨pool, _, h⟩ := bind_eq_some_iff.mp h
  split at h
  · cases h
    rfl
  · cases h

theorem dispatchReleased_calls {d : Nat} (h : r.dispatchReleased d = some t) : t.calls = r.calls := by
  unfold dispatchReleased at h
  obtain ⟨dispatch, _, h⟩ := bind_eq_some_iff.mp h
  split at h
  · obtain ⟨failure, _, h⟩ := bind_eq_some_iff.mp h
    cases h
    rfl
  · cases h

theorem adapterEnters_calls {x : Nat} {thrown : Option Thrown}
    (h : r.adapterEnters x thrown = some t) : t.calls = r.calls := by
  unfold adapterEnters at h
  obtain ⟨execution, _, h⟩ := bind_eq_some_iff.mp h
  split at h
  · cases h
    rfl
  · cases h

theorem adapterSettles_calls {x : Nat} {result : Except Thrown JsValue}
    (h : r.adapterSettles x result = some t) : t.calls = r.calls := by
  unfold adapterSettles at h
  obtain ⟨execution, _, h⟩ := bind_eq_some_iff.mp h
  split at h
  · cases h
    rfl
  · cases h

theorem afterCalls_calls (r : GoforgeWasmRuntime) : r.afterCalls.calls = r.calls := by
  unfold afterCalls
  split
  · rfl
  · rfl

theorem resumeClose_calls {adaptersFailed : Bool} (h : r.resumeClose adaptersFailed = some t) :
    t.calls = r.calls := by
  unfold resumeClose at h
  split at h
  · cases h
    exact afterCalls_calls r
  · split at h
    · cases h
      rfl
    · cases h
      rfl
    · cases h
  · split_ifs at h
    cases h
    rfl
  · obtain ⟨failures, _, rfl⟩ := map_eq_some_iff.mp h
    rfl
  · cases h
    rfl
  · cases h

theorem close_ticks (seams : Seams) : r.TicksAll fires (r.close seams) := by
  have shut : r.TicksAll fires r.shut := by
    unfold shut
    split_ifs
    · exact ticksAll_of_calls rfl
    · have begun : r.TicksAll fires { r with state := .closing, shutdown := true } :=
        ticksAll_of_calls rfl
      exact begun.trans (abortAll_ticks _ wasmDeadline_ne.1)
  unfold close
  split_ifs
  · simp only
    split
    · exact shut
    · split_ifs
      · exact shut.trans (ticksAll_of_calls rfl)
      · exact shut.trans (ticksAll_of_calls (afterCalls_calls _))
  · exact ticksAll_of_calls rfl

theorem perform_ticks (h : r.perform e = some t)
    (invokes : ∀ operation payload options seams, e ≠ .invoke operation payload options seams)
    (preloads : ∀ signal seams, e ≠ .preload signal seams) : r.TicksAll (fun c => e = .deadlineFires c) t := by
  cases e with
  | invoke operation payload options seams => exact absurd rfl (invokes operation payload options seams)
  | preload signal seams => exact absurd rfl (preloads signal seams)
  | abortSignal signal =>
    cases h
    exact abortSignal_ticks signal
  | deadlineFires c =>
    unfold perform deadlineFires at h
    obtain ⟨call, _, h⟩ := bind_eq_some_iff.mp h
    split_ifs at h
    cases h
    exact abortCall_ticks c _ fun _ => rfl
  | loadThen result seams => exact ticksAll_of_calls (loadThen_calls h)
  | loadCatch seams => exact ticksAll_of_calls (loadCatch_calls h)
  | deliver c => exact deliver_ticks h
  | wake c result => exact wake_ticks h
  | resume c seams => exact resume_ticks h
  | instanceCreated | instanceFailed | instanceClosed | poolClosed =>
    unfold perform at h
    exact ticksAll_of_calls (withPool_calls h)
  | dispatchSettles => exact ticksAll_of_calls (dispatchSettles_calls h)
  | dispatchReleased => exact ticksAll_of_calls (dispatchReleased_calls h)
  | adapterEnters => exact ticksAll_of_calls (adapterEnters_calls h)
  | adapterSettles => exact ticksAll_of_calls (adapterSettles_calls h)
  | adapters op =>
    cases h
    exact ticksAll_of_calls rfl
  | close seams =>
    cases h
    exact close_ticks seams
  | resumeClose => exact ticksAll_of_calls (resumeClose_calls h)

theorem enterInvoke_ticks (c : Nat) (call : Call) (seams : Seams) :
    ∃ after, (r.enterInvoke c call seams).calls = r.calls.set c after ∧ call.Ticks False after := by
  unfold enterInvoke
  split
  · exact ⟨_, finish_calls _ _ _, ⟨rfl, rfl, .inl⟩⟩
  · split
    · next loaded =>
      rw [← ensureLoaded_calls loaded]
      exact ⟨_, finish_calls _ _ _, ⟨rfl, rfl, .inl⟩⟩
    · next loaded =>
      rw [← ensureLoaded_calls loaded]
      exact ⟨_, rfl, ⟨rfl, rfl, .inl⟩⟩

theorem enterPreload_ticks (c : Nat) (call : Call) (seams : Seams) :
    ∃ after, (r.enterPreload c call seams).calls = r.calls.set c after ∧ call.Ticks False after := by
  unfold enterPreload
  split
  · next loaded =>
    rw [← ensureLoaded_calls loaded]
    exact ⟨_, finish_calls _ _ _, ⟨rfl, rfl, .inl⟩⟩
  · next loaded =>
    rw [← ensureLoaded_calls loaded]
    split
    · exact ⟨_, finish_calls _ _ _, ⟨rfl, rfl, .inl⟩⟩
    · exact ⟨_, rfl, ⟨rfl, rfl, .inl⟩⟩

theorem invokeArguments_earliest {options : WasmCallOptions} {startedAt : JsNumber}
    {requestId : JsString} {deadline : Option JsNumber}
    (arguments : r.invokeArguments options seams = .ok (startedAt, requestId, deadline)) :
    startedAt = r.clock r.turn ∧
      deadline = earliest (deadlineFloors options r.defaultTimeoutMs (r.clock r.turn)) := by
  unfold invokeArguments at arguments
  obtain ⟨now, reading, arguments⟩ := bind_ok.mp arguments
  have shown : now = r.clock r.turn := now_ok reading
  rw [shown] at arguments
  cases given : options.requestId with
  | some id =>
    simp only [given, bind_ok] at arguments
    obtain ⟨_, _, _, resolved, arguments⟩ := arguments
    cases arguments
    exact ⟨rfl, resolveDeadline_earliest resolved⟩
  | none =>
    simp only [given, bind_ok] at arguments
    obtain ⟨_, _, _, resolved, arguments⟩ := arguments
    cases arguments
    exact ⟨rfl, resolveDeadline_earliest resolved⟩

/-- Whether an invocation comes to its `try`. -/
def admits (options : WasmCallOptions) (seams : Seams) (r : GoforgeWasmRuntime) : Bool :=
  r.isOpen && options.accepted seams r.defaultTimeoutMs

def effectiveDeadline (options : WasmCallOptions) (r : GoforgeWasmRuntime) : Option JsNumber :=
  earliest (deadlineFloors options r.defaultTimeoutMs (r.clock r.turn))

theorem invoke_starts (operation : JsString) (payload : JsValue) (options : WasmCallOptions)
    (seams : Seams) : ∃ call, (r.invoke operation payload options seams).calls = r.calls ++ [call] ∧
      ((r.admits options seams = false ∧ call.StartsAt true none (r.clock r.turn)) ∨
        (r.admits options seams = true ∧ call.StartsAt (r.callerAborted options) (r.effectiveDeadline options)
            (r.clock r.turn))) := by
  unfold invoke admits
  simp only
  split_ifs with closed
  · have shut : r.isOpen = false := by simpa using closed
    exact ⟨_, rfl, .inl ⟨by rw [shut]; rfl, startsAt_newCall _ _ _ _ _ _⟩⟩
  · have isOpen : r.isOpen = true := by simpa using closed
    rw [isOpen, Bool.true_and]
    split
    · next cause failed =>
      have refused : options.accepted seams r.defaultTimeoutMs = false := by
        rw [Bool.eq_false_iff]
        intro accepted
        obtain ⟨arguments, good⟩ := invokeArguments_ok_iff.mpr accepted
        cases failed.symm.trans good
      exact ⟨_, rfl, .inl ⟨refused, startsAt_newCall _ _ _ _ _ _⟩⟩
    · next startedAt requestId deadline arguments =>
      have accepted := invokeArguments_ok_iff.mp ⟨_, arguments⟩
      obtain ⟨rfl, rfl⟩ := invokeArguments_earliest arguments
      let call : Call := { newCall .invoke operation payload options .entered with
        requestId, deadline := r.effectiveDeadline options
        scope := createAbortScope (r.callerAborted options) r.shutdown
          (r.effectiveDeadline options) (r.clock r.turn) }
      have starts : call.StartsAt (r.callerAborted options) (r.effectiveDeadline options)
          (r.clock r.turn) :=
        ⟨rfl, fun _ => createAbortScope_timer, createAbortScope_expired⟩
      obtain ⟨after, eq, ticks⟩ := enterInvoke_ticks r.calls.length call seams
        (r := { r with activeCalls := r.activeCalls + 1 }.addCall call)
      refine ⟨after, ?_, .inr ⟨accepted, starts.ticks ticks⟩⟩
      exact eq.trans (by simp [addCall])

theorem preload_starts (signal : Option Nat) (seams : Seams) :
    ∃ call, (r.preload signal seams).calls = r.calls ++ [call] ∧ call.StartsAt true none (r.clock r.turn) := by
  unfold preload
  simp only
  split_ifs with closed
  · exact ⟨_, rfl, startsAt_newCall _ _ _ _ _ _⟩
  · split
    · exact ⟨_, rfl, startsAt_newCall _ _ _ _ _ _⟩
    · next now _ =>
      let options : WasmCallOptions := ⟨signal, none, none, none, none, none, none, false⟩
      let call : Call := { newCall .preload [] .undefined options .entered with
        scope := createAbortScope (r.callerAborted options) r.shutdown none now }
      have starts : call.StartsAt true none (r.clock r.turn) := by
        refine ⟨rfl, fun delay set => ?_, fun ended => ?_⟩
        · obtain ⟨_, d, dated, _⟩ := createAbortScope_timer set
          cases dated
        · obtain ⟨_, d, dated, _⟩ := createAbortScope_expired ended
          cases dated
      obtain ⟨after, eq, ticks⟩ := enterPreload_ticks r.calls.length call seams (r := r.addCall call)
      exact ⟨after, eq.trans (by simp [addCall]), starts.ticks ticks⟩

theorem step_ticks (h : s.step e = some t) (here : s.calls[c]? = some call) :
    ∃ after, t.calls[c]? = some after ∧ call.Ticks (e = .deadlineFires c) after := by
  obtain ⟨u, done, rfl⟩ := map_eq_some_iff.mp h
  have bound := (List.getElem?_eq_some_iff.mp here).1
  have appended {new : Call} (eq : u.calls = s.calls ++ [new]) : u.calls[c]? = some call := by
    rw [eq, getElem?_append_left bound]
    exact here
  have stays (ticks : s.TicksAll (fun c => e = .deadlineFires c) u) :
      ∃ after, u.calls[c]? = some after ∧ call.Ticks (e = .deadlineFires c) after := by
    have there := getElem?_eq_getElem (ticks.length ▸ bound)
    exact ⟨_, there, ticks.ticks c call _ here there⟩
  cases e with
  | invoke operation payload options seams =>
    cases done
    obtain ⟨new, eq, _⟩ := invoke_starts (r := s) operation payload options seams
    exact ⟨call, appended eq, .refl _ call⟩
  | preload signal seams =>
    cases done
    obtain ⟨new, eq, _⟩ := preload_starts (r := s) signal seams
    exact ⟨call, appended eq, .refl _ call⟩
  | _ => exact stays (perform_ticks done (by simp) (by simp))

theorem step_starts (h : s.step e = some t) (there : t.calls[c]? = some call) (new : s.calls[c]? = none) :
    c = s.calls.length ∧ (call.StartsAt true none (s.clock s.turn) ∨
      ∃ operation payload options seams, e = .invoke operation payload options seams ∧
        s.admits options seams = true ∧
        call.StartsAt (s.callerAborted options) (s.effectiveDeadline options) (s.clock s.turn)) := by
  obtain ⟨u, done, rfl⟩ := map_eq_some_iff.mp h
  have unknown : s.calls.length ≤ c := List.getElem?_eq_none_iff.mp new
  have appended {made : Call} (eq : u.calls = s.calls ++ [made]) : c = s.calls.length ∧ call = made := by
    have here : u.calls[c]? = some call := there
    rw [eq, getElem?_append_right unknown] at here
    obtain ⟨bound, same⟩ := List.getElem?_eq_some_iff.mp here
    simp only [length_singleton] at bound
    have first : c - s.calls.length = 0 := by omega
    simp only [first, getElem_cons_zero] at same
    exact ⟨by omega, same.symm⟩
  have none_made (ticks : s.TicksAll (fun c => e = .deadlineFires c) u) : False := by
    have bound := (List.getElem?_eq_some_iff.mp there).1
    have length : u.calls.length = s.calls.length := ticks.length
    have known : c < u.calls.length := bound
    omega
  cases e with
  | invoke operation payload options seams =>
    cases done
    obtain ⟨made, eq, starts⟩ := invoke_starts (r := s) operation payload options seams
    obtain ⟨place, rfl⟩ := appended eq
    refine ⟨place, ?_⟩
    rcases starts with ⟨_, starts⟩ | ⟨admitted, starts⟩
    · exact .inl starts
    · exact .inr ⟨operation, payload, options, seams, rfl, admitted, starts⟩
  | preload signal seams =>
    cases done
    obtain ⟨made, eq, starts⟩ := preload_starts (r := s) signal seams
    obtain ⟨place, rfl⟩ := appended eq
    exact ⟨place, .inl starts⟩
  | _ => exact (none_made (perform_ticks done (by simp) (by simp))).elim

end GoforgeWasmRuntime

end ForgeDeno
